import Supercodex.History.ContextManager

/-!
# Rebuilding a session from its rollout (`core/src/session/rollout_reconstruction.rs`)

A rollout is read twice. A scan from its newest item to its oldest collects turn segments, skips
those that a rollback has dropped and looks for the newest replacement history that survives. The
items after a replacement history that the scan has met are then replayed forward.
-/

namespace Supercodex.Session

open History

/-! ## The rollout -/

/-- `EventMsg`, as the replay tells the events apart. -/
inductive EventMsg where
  | threadRolledBack (numTurns : ℕ)
  | turnStarted (turnId : Text)
  | turnComplete (turnId : Text)
  | turnAborted (turnId : Option Text)
  | userMessage
  | other
deriving DecidableEq

/-- `CompactedItem`. Without a replacement history it is a legacy compaction. -/
structure CompactedItem where
  message : Text
  replacementHistory : Option (List ResponseItem)
deriving DecidableEq

/-- `RolloutItem`. -/
inductive RolloutItem where
  | sessionMeta
  | responseItem (item : ResponseItem)
  | compacted (item : CompactedItem)
  | turnContext (item : TurnContextItem)
  | eventMsg (event : EventMsg)
deriving DecidableEq

/-- `PreviousTurnSettings`. -/
structure PreviousTurnSettings where
  model : Text
  realtimeActive : Option Bool
deriving DecidableEq

/-- `RolloutReconstruction`. -/
structure RolloutReconstruction where
  history : List ResponseItem
  previousTurnSettings : Option PreviousTurnSettings
  referenceContextItem : Option TurnContextItem
deriving DecidableEq

/-! ## The scan from the newest item -/

/-- `TurnReferenceContextItem`. -/
inductive TurnReferenceContextItem where
  | neverSet
  | cleared
  | latest (item : TurnContextItem)
deriving DecidableEq

/-- `ActiveReplaySegment`. -/
structure ActiveReplaySegment where
  turnId : Option Text := none
  countsAsUserTurn : Bool := false
  previousTurnSettings : Option PreviousTurnSettings := none
  referenceContextItem : TurnReferenceContextItem := .neverSet
  baseReplacementHistory : Option (List ResponseItem) := none
deriving DecidableEq

/-- `turn_ids_are_compatible`. -/
def turnIdsAreCompatible (activeTurnId itemTurnId : Option Text) : Bool :=
  match activeTurnId, itemTurnId with
  | some turnId, some itemTurnId => itemTurnId = turnId
  | _, _ => true

/-- The variables of the scan. -/
structure ReplayScan where
  baseReplacementHistory : Option (List ResponseItem)
  previousTurnSettings : Option PreviousTurnSettings
  referenceContextItem : TurnReferenceContextItem
  pendingRollbackTurns : ℕ
  rolloutSuffix : List RolloutItem
  activeSegment : Option ActiveReplaySegment
deriving DecidableEq

/-- `finalize_active_segment`. -/
def ReplayScan.finalizeActiveSegment (scan : ReplayScan) (segment : ActiveReplaySegment) :
    ReplayScan :=
  if 0 < scan.pendingRollbackTurns then
    if segment.countsAsUserTurn then
      { scan with pendingRollbackTurns := scan.pendingRollbackTurns - 1 }
    else scan
  else
    { scan with
      baseReplacementHistory := scan.baseReplacementHistory.or segment.baseReplacementHistory
      previousTurnSettings :=
        if scan.previousTurnSettings.isNone && segment.countsAsUserTurn then
          segment.previousTurnSettings
        else scan.previousTurnSettings
      referenceContextItem :=
        if scan.referenceContextItem = .neverSet &&
            (segment.countsAsUserTurn || segment.referenceContextItem = .cleared) then
          segment.referenceContextItem
        else scan.referenceContextItem }

/-- `active_segment.take()` and `finalize_active_segment`. -/
def ReplayScan.takeActiveSegment (scan : ReplayScan) : ReplayScan :=
  match scan.activeSegment with
  | some segment => { scan with activeSegment := none }.finalizeActiveSegment segment
  | none => scan

/-- What the scan does at an item; `newer` are the items after it. -/
def ReplayScan.step (deps : Externals) (scan : ReplayScan) (item : RolloutItem)
    (newer : List RolloutItem) : ReplayScan :=
  let segment := scan.activeSegment.getD {}
  match item with
  | .compacted compacted =>
    let segment :=
      if segment.referenceContextItem = .neverSet then
        { segment with referenceContextItem := .cleared }
      else segment
    match segment.baseReplacementHistory, compacted.replacementHistory with
    | none, some replacementHistory =>
      { scan with
        activeSegment := some { segment with baseReplacementHistory := some replacementHistory }
        rolloutSuffix := newer }
    | _, _ => { scan with activeSegment := some segment }
  | .eventMsg (.threadRolledBack numTurns) =>
    { scan with pendingRollbackTurns := saturatingAdd scan.pendingRollbackTurns numTurns }
  | .eventMsg (.turnComplete turnId) =>
    { scan with activeSegment := some { segment with turnId := segment.turnId.or (some turnId) } }
  | .eventMsg (.turnAborted turnId) =>
    match scan.activeSegment, turnId with
    | some segment, turnId =>
      { scan with activeSegment := some { segment with turnId := segment.turnId.or turnId } }
    | none, some turnId => { scan with activeSegment := some { turnId := some turnId } }
    | none, none => scan
  | .eventMsg .userMessage =>
    { scan with activeSegment := some { segment with countsAsUserTurn := true } }
  | .turnContext ctx =>
    let segment := { segment with turnId := segment.turnId.or ctx.turnId }
    if turnIdsAreCompatible segment.turnId ctx.turnId then
      { scan with
        activeSegment := some
          { segment with
            previousTurnSettings := some ⟨ctx.model, ctx.realtimeActive⟩
            referenceContextItem :=
              if segment.referenceContextItem = .neverSet then .latest ctx
              else segment.referenceContextItem } }
    else { scan with activeSegment := some segment }
  | .eventMsg (.turnStarted turnId) =>
    if scan.activeSegment.any fun segment => turnIdsAreCompatible segment.turnId (some turnId) then
      scan.takeActiveSegment
    else scan
  | .responseItem responseItem =>
    { scan with
      activeSegment := some
        { segment with
          countsAsUserTurn := segment.countsAsUserTurn || deps.isUserTurnBoundary responseItem } }
  | .eventMsg .other | .sessionMeta => scan

/-- Does the loop break off? -/
def ReplayScan.isComplete (scan : ReplayScan) : Bool :=
  scan.baseReplacementHistory.isSome && scan.previousTurnSettings.isSome &&
    scan.referenceContextItem ≠ .neverSet

/-- The loop, from the newest item to the oldest. It is an error once it has broken off. -/
def ReplayScan.run (deps : Externals) (start : ReplayScan) :
    List RolloutItem → Except ReplayScan ReplayScan
  | [] => .ok start
  | item :: newer => do
    let scan ← run deps start newer
    let scan := scan.step deps item newer
    if scan.isComplete then .error scan else .ok scan

/-- The variables before the loop. -/
def ReplayScan.start (rolloutItems : List RolloutItem) : ReplayScan :=
  ⟨none, none, .neverSet, 0, rolloutItems, none⟩

/-- The variables after the loop and after the segment it has left open. -/
def ReplayScan.final (deps : Externals) (rolloutItems : List RolloutItem) : ReplayScan :=
  match run deps (start rolloutItems) rolloutItems with
  | .ok scan | .error scan => scan.takeActiveSegment

/-! ## The replay forward -/

/-- The variables of the replay. -/
structure Replay where
  history : ContextManager
  sawLegacyCompactionWithoutReplacementHistory : Bool
deriving DecidableEq

/-- What the replay does at an item. -/
def Replay.step (deps : Externals) (policy : TruncationPolicy) (replay : Replay) :
    RolloutItem → Replay
  | .responseItem responseItem =>
    { replay with history := replay.history.recordItems deps policy [responseItem] }
  | .compacted ⟨_, some replacementHistory⟩ =>
    { replay with history := replay.history.replace replacementHistory }
  | .compacted ⟨message, none⟩ =>
    let userMessages := deps.collectUserMessages replay.history.items
    { history := replay.history.replace (buildCompactedHistory [] userMessages message)
      sawLegacyCompactionWithoutReplacementHistory := true }
  | .eventMsg (.threadRolledBack numTurns) =>
    { replay with history := replay.history.dropLastNUserTurns deps numTurns }
  | .eventMsg _ | .turnContext _ | .sessionMeta => replay

/-- The replay of items over a history. -/
def Replay.run (deps : Externals) (policy : TruncationPolicy) (history : ContextManager)
    (items : List RolloutItem) : Replay :=
  items.foldl (step deps policy) ⟨history, false⟩

/-- `Session::reconstruct_history_from_rollout`. -/
def reconstructHistoryFromRollout (deps : Externals) (policy : TruncationPolicy)
    (rolloutItems : List RolloutItem) : RolloutReconstruction :=
  let scan := ReplayScan.final deps rolloutItems
  let history := match scan.baseReplacementHistory with
    | some base => ContextManager.new.replace base
    | none => ContextManager.new
  let replay := Replay.run deps policy history scan.rolloutSuffix
  let referenceContextItem := match scan.referenceContextItem with
    | .latest item => some item
    | .neverSet | .cleared => none
  { history := replay.history.items
    previousTurnSettings := scan.previousTurnSettings
    referenceContextItem :=
      if replay.sawLegacyCompactionWithoutReplacementHistory then none else referenceContextItem }

/-- The history that a plain replay of the whole rollout gives. -/
def forwardReplay (deps : Externals) (policy : TruncationPolicy) (rolloutItems : List RolloutItem) :
    List ResponseItem :=
  (Replay.run deps policy ContextManager.new rolloutItems).history.items

end Supercodex.Session
