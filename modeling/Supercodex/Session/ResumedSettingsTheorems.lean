import Supercodex.Session.RolloutReconstruction
import Supercodex.Library.RollbackStack

/-!
# The settings of a resumed session

The rollouts of whole turns, with rollback markers between them, are read forward as a stack: a turn is
pushed, and a rollback pops the newest user turns with everything above them. What the scan from the
newest item finds is read off that stack: the settings of the newest user turn that has any, and the
baseline of the newest turn that set or cleared one.
-/

namespace Supercodex.Session

open History RollbackStack ReplayScan ActiveReplaySegment

/-! ## Rollouts of whole turns -/

/-- The items that belong to the turn around them. -/
def RolloutItem.isTurnScoped : RolloutItem → Bool
  | .eventMsg (.threadRolledBack _) | .eventMsg (.turnStarted _) | .eventMsg (.turnComplete _)
  | .eventMsg (.turnAborted _) => false
  | _ => true

/-- A turn from its `TurnStarted` to its `TurnComplete` or `TurnAborted`. -/
structure WholeTurn where
  turnId : Text
  items : List RolloutItem
  aborted : Bool
  turnScoped : ∀ item ∈ items, item.isTurnScoped = true

/-- The items of a turn in the rollout. -/
def WholeTurn.rollout (turn : WholeTurn) : List RolloutItem :=
  .eventMsg (.turnStarted turn.turnId) :: (turn.items ++
    [.eventMsg (if turn.aborted then .turnAborted (some turn.turnId)
      else .turnComplete turn.turnId)])

/-- The items of a turn or of a rollback marker. -/
def eventRollout : Event WholeTurn → List RolloutItem
  | .push turn => turn.rollout
  | .rollback n => [.eventMsg (.threadRolledBack n)]

/-- A rollout of whole turns with rollback markers between them; its length is a `usize`. -/
structure TurnRollout where
  events : List (Event WholeTurn)
  fits : (events.flatMap eventRollout).length ≤ usizeMax

/-- The items of the rollout. -/
def TurnRollout.items (rollout : TurnRollout) : List RolloutItem :=
  rollout.events.flatMap eventRollout

/-! ## The stack -/

namespace WholeTurn

/-- Does the item make its turn a user turn? -/
def isUserItem (deps : Externals) : RolloutItem → Bool
  | .eventMsg .userMessage => true
  | .responseItem item => deps.isUserTurnBoundary item
  | _ => false

/-- The turn context of the item, if it is one of this turn. -/
def contextOf (turn : WholeTurn) : RolloutItem → Option TurnContextItem
  | .turnContext ctx =>
    if turnIdsAreCompatible (some turn.turnId) ctx.turnId then some ctx else none
  | _ => none

/-- What the item does to the baseline of the context: a turn context sets it, a compaction clears
it. -/
def baselineOf (turn : WholeTurn) : RolloutItem → Option TurnReferenceContextItem
  | .compacted _ => some .cleared
  | item => (turn.contextOf item).map .latest

/-- Is this a user turn? -/
def countsAsUserTurn (deps : Externals) (turn : WholeTurn) : Bool :=
  turn.items.any (isUserItem deps)

/-- The settings of the first turn context of the turn. -/
def settings (turn : WholeTurn) : Option PreviousTurnSettings :=
  (turn.items.filterMap turn.contextOf).head?.map fun ctx => ⟨ctx.model, ctx.realtimeActive⟩

/-- What the turn leaves of the baseline. -/
def baseline (turn : WholeTurn) : TurnReferenceContextItem :=
  (turn.items.filterMap turn.baselineOf).getLast?.getD .neverSet

end WholeTurn

/-- The settings of the newest user turn that has any. -/
def stackSettings (deps : Externals) : List WholeTurn → Option PreviousTurnSettings
  | [] => none
  | turn :: older =>
    if turn.countsAsUserTurn deps then turn.settings.or (stackSettings deps older)
    else stackSettings deps older

/-- The baseline: user turns set it, and every turn may clear it. -/
def stackReference (deps : Externals) : List WholeTurn → Option TurnContextItem
  | [] => none
  | turn :: older =>
    match turn.baseline with
    | .neverSet => stackReference deps older
    | .cleared => none
    | .latest ctx =>
      if turn.countsAsUserTurn deps then some ctx else stackReference deps older

/-- The turns that the rollbacks leave, newest first. -/
def TurnRollout.stack (deps : Externals) (rollout : TurnRollout) : List WholeTurn :=
  forward (WholeTurn.countsAsUserTurn deps) rollout.events

/-! ## The scan without the early exit -/

/-- The loop when it never breaks off. -/
def ReplayScan.runAll (deps : Externals) (start : ReplayScan) : List RolloutItem → ReplayScan
  | [] => start
  | item :: newer => (runAll deps start newer).step deps item newer

/-- The variables after the whole loop. -/
def ReplayScan.finalAll (deps : Externals) (rolloutItems : List RolloutItem) : ReplayScan :=
  (runAll deps (start rolloutItems) rolloutItems).takeActiveSegment

/-- The scans that have found the same. -/
structure ReplayScan.SameFindings (scan scan' : ReplayScan) : Prop where
  base : scan.baseReplacementHistory = scan'.baseReplacementHistory
  settings : scan.previousTurnSettings = scan'.previousTurnSettings
  reference : scan.referenceContextItem = scan'.referenceContextItem

namespace ReplayScan

variable {deps : Externals} {scan scan' : ReplayScan}

lemma SameFindings.trans {scan'' : ReplayScan} (h : SameFindings scan scan')
    (h' : SameFindings scan' scan'') : SameFindings scan scan'' :=
  ⟨h.base.trans h'.base, h.settings.trans h'.settings, h.reference.trans h'.reference⟩

lemma SameFindings.isComplete (h : SameFindings scan scan') (hcomplete : scan'.isComplete = true) :
    scan.isComplete = true := by
  unfold ReplayScan.isComplete at *
  rw [h.base, h.settings, h.reference]
  exact hcomplete

lemma sameFindings_takeActiveSegment (h : scan.isComplete = true) :
    SameFindings scan.takeActiveSegment scan := by
  unfold isComplete at h
  simp only [Bool.and_eq_true, decide_eq_true_eq] at h
  obtain ⟨⟨hbase, hsettings⟩, hreference⟩ := h
  unfold takeActiveSegment
  split
  · unfold finalizeActiveSegment
    split
    · split <;> exact ⟨rfl, rfl, rfl⟩
    refine ⟨?_, ?_, ?_⟩
    · cases hfound : scan.baseReplacementHistory with
      | none =>
        rw [hfound] at hbase
        cases hbase
      | some base => rfl
    · dsimp only
      rw [if_neg]
      cases hfound : scan.previousTurnSettings with
      | none =>
        rw [hfound] at hsettings
        cases hsettings
      | some settings => exact Bool.false_ne_true
    · dsimp only
      rw [if_neg]
      rw [decide_eq_false hreference]
      exact Bool.false_ne_true
  · exact ⟨rfl, rfl, rfl⟩

/-- Only the end of a segment finds anything. -/
lemma step_findings (deps : Externals) (scan : ReplayScan) (item : RolloutItem) (newer : List RolloutItem) :
    scan.step deps item newer = scan.takeActiveSegment ∨
      SameFindings (scan.step deps item newer) scan := by
  cases item with
  | sessionMeta | responseItem item => exact .inr ⟨rfl, rfl, rfl⟩
  | compacted item | turnContext item =>
    right
    unfold step
    dsimp only
    split <;> exact ⟨rfl, rfl, rfl⟩
  | eventMsg event =>
    cases event with
    | turnStarted turnId =>
      unfold step
      dsimp only
      split
      · exact .inl rfl
      · exact .inr ⟨rfl, rfl, rfl⟩
    | turnAborted turnId =>
      right
      unfold step
      dsimp only
      split <;> exact ⟨rfl, rfl, rfl⟩
    | _ => exact .inr ⟨rfl, rfl, rfl⟩

lemma sameFindings_step (h : scan.isComplete = true) (item : RolloutItem)
    (newer : List RolloutItem) : SameFindings (scan.step deps item newer) scan := by
  rcases step_findings deps scan item newer with heq | hsame
  · rw [heq]
    exact sameFindings_takeActiveSegment h
  · exact hsame

lemma run_cases (deps : Externals) (start : ReplayScan) (items : List RolloutItem) :
    run deps start items = .ok (runAll deps start items) ∨
      ∃ scan, run deps start items = .error scan ∧ scan.isComplete = true ∧
        SameFindings (runAll deps start items) scan := by
  induction items with
  | nil => exact .inl rfl
  | cons item newer ih =>
    rcases ih with hok | ⟨scan, herror, hcomplete, hsame⟩
    · by_cases hcomplete : ((runAll deps start newer).step deps item newer).isComplete = true
      · right
        refine ⟨(runAll deps start newer).step deps item newer, ?_, hcomplete, ⟨rfl, rfl, rfl⟩⟩
        simp only [run, hok, bind, Except.bind]
        rw [if_pos hcomplete]
      · left
        simp only [run, hok, bind, Except.bind]
        rw [if_neg hcomplete]
        rfl
    · right
      refine ⟨scan, ?_, hcomplete, ?_⟩
      · simp only [run, herror, bind, Except.bind]
      · exact (sameFindings_step (hsame.isComplete hcomplete) item newer).trans hsame

lemma sameFindings_final (deps : Externals) (items : List RolloutItem) :
    SameFindings (final deps items) (finalAll deps items) := by
  unfold final finalAll
  rcases run_cases deps (start items) items with hok | ⟨scan, herror, hcomplete, hsame⟩
  · rw [hok]
    exact ⟨rfl, rfl, rfl⟩
  rw [herror]
  have hall := (sameFindings_takeActiveSegment (hsame.isComplete hcomplete)).trans hsame
  have hbroken := sameFindings_takeActiveSegment hcomplete
  exact ⟨hbroken.base.trans hall.base.symm, hbroken.settings.trans hall.settings.symm,
    hbroken.reference.trans hall.reference.symm⟩

end ReplayScan

/-! ## The scan of a turn -/

/-- What an item of a turn does to the segment that the scan has open. -/
def ActiveReplaySegment.joinItem (deps : Externals) (segment : ActiveReplaySegment) :
    RolloutItem → ActiveReplaySegment
  | .compacted compacted =>
    { segment with
      referenceContextItem :=
        if segment.referenceContextItem = .neverSet then .cleared else segment.referenceContextItem
      baseReplacementHistory := segment.baseReplacementHistory.or compacted.replacementHistory }
  | .eventMsg .userMessage => { segment with countsAsUserTurn := true }
  | .turnContext ctx =>
    let segment := { segment with turnId := segment.turnId.or ctx.turnId }
    if turnIdsAreCompatible segment.turnId ctx.turnId then
      { segment with
        previousTurnSettings := some ⟨ctx.model, ctx.realtimeActive⟩
        referenceContextItem :=
          if segment.referenceContextItem = .neverSet then .latest ctx
          else segment.referenceContextItem }
    else segment
  | .responseItem item =>
    { segment with countsAsUserTurn := segment.countsAsUserTurn || deps.isUserTurnBoundary item }
  | _ => segment

namespace ReplayScan

variable {deps : Externals} {scan : ReplayScan} {segment : ActiveReplaySegment}

lemma step_turnScoped (deps : Externals) (h : scan.activeSegment = some segment) {item : RolloutItem}
    (hitem : item.isTurnScoped = true) (newer : List RolloutItem) :
    ∃ suffix, scan.step deps item newer =
      { scan with activeSegment := some (segment.joinItem deps item), rolloutSuffix := suffix } := by
  have hsame : scan = { scan with activeSegment := some segment } := by
    rw [← h]
  have hopen : scan.activeSegment.getD {} = segment := by
    rw [h]
    rfl
  cases item with
  | sessionMeta => exact ⟨_, hsame⟩
  | responseItem item =>
    refine ⟨scan.rolloutSuffix, ?_⟩
    unfold step
    rw [hopen]
    rfl
  | compacted item =>
    unfold step
    rw [hopen]
    dsimp only
    obtain ⟨cleared, hcleared⟩ : ∃ cleared, cleared = (if segment.referenceContextItem = .neverSet then
        { segment with referenceContextItem := .cleared } else segment) := ⟨_, rfl⟩
    rw [← hcleared]
    have hsegment : cleared.baseReplacementHistory = segment.baseReplacementHistory := by
      rw [hcleared]
      split <;> rfl
    have hjoin : segment.joinItem deps (.compacted item) = { cleared with
        baseReplacementHistory := segment.baseReplacementHistory.or item.replacementHistory } := by
      rw [hcleared]
      simp only [joinItem]
      by_cases hnever : segment.referenceContextItem = .neverSet
      · rw [if_pos hnever, if_pos hnever]
      · rw [if_neg hnever, if_neg hnever]
    rw [hjoin]
    split
    · rename_i replacementHistory hnone hsome
      rw [hsegment] at hnone
      refine ⟨newer, ?_⟩
      rw [hnone, hsome]
      rfl
    · rename_i hneither
      refine ⟨scan.rolloutSuffix, ?_⟩
      have hkeep : segment.baseReplacementHistory.or item.replacementHistory =
          segment.baseReplacementHistory := by
        cases hfound : segment.baseReplacementHistory with
        | some base => rfl
        | none =>
          cases hreplacement : item.replacementHistory with
          | none => rfl
          | some history => exact (hneither history (hsegment.trans hfound) hreplacement).elim
      rw [hkeep, ← hsegment]
  | turnContext ctx =>
    refine ⟨scan.rolloutSuffix, ?_⟩
    unfold step joinItem
    rw [hopen]
    dsimp only
    split <;> rfl
  | eventMsg event =>
    cases event with
    | userMessage =>
      refine ⟨scan.rolloutSuffix, ?_⟩
      unfold step
      rw [hopen]
      rfl
    | other => exact ⟨_, hsame⟩
    | _ => cases hitem

lemma runAll_items {start : ReplayScan} {rest : List RolloutItem}
    (h : (runAll deps start rest).activeSegment = some segment) {items : List RolloutItem}
    (hitems : ∀ item ∈ items, item.isTurnScoped = true) :
    ∃ suffix, runAll deps start (items ++ rest) =
      { runAll deps start rest with
        activeSegment := some (items.foldr (fun item segment => segment.joinItem deps item) segment)
        rolloutSuffix := suffix } := by
  induction items with
  | nil =>
    refine ⟨(runAll deps start rest).rolloutSuffix, ?_⟩
    rw [List.nil_append, List.foldr_nil, ← h]
  | cons item items ih =>
    obtain ⟨suffix, hrun⟩ := ih fun item hitem => hitems item (List.mem_cons_of_mem _ hitem)
    have hopen : (runAll deps start (items ++ rest)).activeSegment =
        some (items.foldr (fun item segment => segment.joinItem deps item) segment) := by
      rw [hrun]
    obtain ⟨suffix', hstep⟩ := step_turnScoped deps hopen (hitems item List.mem_cons_self)
      (items ++ rest)
    refine ⟨suffix', ?_⟩
    rw [List.cons_append, runAll, hstep, hrun]
    rfl

end ReplayScan

namespace WholeTurn

variable (deps : Externals) (turn : WholeTurn)

/-- The segment that the scan has collected at the beginning of the turn. -/
def segment : ActiveReplaySegment :=
  turn.items.foldr (fun item segment => segment.joinItem deps item) { turnId := some turn.turnId }

lemma baselineOf_ne_neverSet (item : RolloutItem) : turn.baselineOf item ≠ some .neverSet := by
  unfold baselineOf
  split
  · exact nofun
  · cases turn.contextOf item with
    | none | some ctx => exact nofun

lemma getLast?_baseline_eq_neverSet_iff (items : List RolloutItem) :
    (items.filterMap turn.baselineOf).getLast?.getD .neverSet = .neverSet ↔
      items.filterMap turn.baselineOf = [] := by
  constructor
  · intro h
    cases hlast : (items.filterMap turn.baselineOf).getLast? with
    | none => exact List.getLast?_eq_none_iff.mp hlast
    | some baseline =>
      rw [hlast, Option.getD_some] at h
      subst h
      obtain ⟨item, -, hitem⟩ := List.mem_filterMap.mp (List.mem_of_getLast? hlast)
      exact absurd hitem (turn.baselineOf_ne_neverSet item)
  · intro h
    rw [h]
    rfl

/-- What the open segment of the scan knows of the items it has seen. -/
structure Collected (items : List RolloutItem) (segment : ActiveReplaySegment) : Prop where
  turnId : segment.turnId = some turn.turnId
  counts : segment.countsAsUserTurn = items.any (isUserItem deps)
  settings : segment.previousTurnSettings =
    (items.filterMap turn.contextOf).head?.map fun ctx => ⟨ctx.model, ctx.realtimeActive⟩
  reference : segment.referenceContextItem =
    (items.filterMap turn.baselineOf).getLast?.getD .neverSet

variable {deps turn} {items : List RolloutItem} {item : RolloutItem}

/-- An item without context or baseline may only count as a user turn. -/
lemma Collected.cons_of_none {segment segment' : ActiveReplaySegment}
    (h : turn.Collected deps items segment)
    (hcontext : turn.contextOf item = none) (hbaseline : turn.baselineOf item = none)
    (hcounts : segment'.countsAsUserTurn = (isUserItem deps item || segment.countsAsUserTurn))
    (hsame : segment'.turnId = segment.turnId ∧
      segment'.previousTurnSettings = segment.previousTurnSettings ∧
      segment'.referenceContextItem = segment.referenceContextItem) :
    turn.Collected deps (item :: items) segment' := by
  obtain ⟨hid, hsettings, hreference⟩ := hsame
  refine ⟨hid.trans h.turnId, ?_, ?_, ?_⟩
  · rw [hcounts, h.counts, List.any_cons]
  · rw [hsettings, h.settings, List.filterMap_cons_none hcontext]
  · rw [hreference, h.reference, List.filterMap_cons_none hbaseline]

lemma reference_cons {baseline reference : TurnReferenceContextItem}
    (hbaseline : turn.baselineOf item = some baseline)
    (h : reference = (items.filterMap turn.baselineOf).getLast?.getD .neverSet) :
    (if reference = .neverSet then baseline else reference) =
      ((item :: items).filterMap turn.baselineOf).getLast?.getD .neverSet := by
  rw [List.filterMap_cons_some hbaseline, List.getLast?_cons, Option.getD_some]
  by_cases hnever : reference = .neverSet
  · rw [if_pos hnever]
    rw [hnever] at h
    rw [(turn.getLast?_baseline_eq_neverSet_iff items).mp h.symm]
    rfl
  · rw [if_neg hnever, h]
    cases hlast : (items.filterMap turn.baselineOf).getLast? with
    | none =>
      rw [hlast] at h
      exact absurd h hnever
    | some last => rfl

lemma Collected.joinItem {segment : ActiveReplaySegment} (h : turn.Collected deps items segment)
    (hitem : item.isTurnScoped = true) :
    turn.Collected deps (item :: items) (segment.joinItem deps item) := by
  cases item with
  | sessionMeta => exact h.cons_of_none rfl rfl rfl ⟨rfl, rfl, rfl⟩
  | responseItem item => exact h.cons_of_none rfl rfl (Bool.or_comm _ _) ⟨rfl, rfl, rfl⟩
  | eventMsg event =>
    cases event with
    | userMessage | other => exact h.cons_of_none rfl rfl rfl ⟨rfl, rfl, rfl⟩
    | _ => cases hitem
  | compacted item =>
    refine ⟨h.turnId, ?_, ?_, ?_⟩
    · show segment.countsAsUserTurn = _
      rw [h.counts]
      rfl
    · show segment.previousTurnSettings = _
      rw [h.settings]
      rfl
    · exact reference_cons rfl h.reference
  | turnContext ctx =>
    have hid : segment.turnId.or ctx.turnId = some turn.turnId := by
      rw [h.turnId]
      rfl
    simp only [joinItem, hid]
    by_cases hcompatible : turnIdsAreCompatible (some turn.turnId) ctx.turnId = true
    · have hcontext : turn.contextOf (.turnContext ctx) = some ctx := if_pos hcompatible
      have hbaseline : turn.baselineOf (.turnContext ctx) = some (.latest ctx) := by
        show (turn.contextOf (.turnContext ctx)).map _ = _
        rw [hcontext]
        rfl
      rw [if_pos hcompatible]
      refine ⟨rfl, ?_, ?_, ?_⟩
      · exact h.counts
      · rw [List.filterMap_cons_some hcontext]
        rfl
      · exact reference_cons hbaseline h.reference
    · have hcontext : turn.contextOf (.turnContext ctx) = none := if_neg hcompatible
      have hbaseline : turn.baselineOf (.turnContext ctx) = none := by
        show (turn.contextOf (.turnContext ctx)).map _ = _
        rw [hcontext]
        rfl
      rw [if_neg hcompatible]
      exact h.cons_of_none hcontext hbaseline rfl ⟨h.turnId.symm, rfl, rfl⟩

lemma collected_foldr (deps : Externals) (turn : WholeTurn)
    (h : ∀ item ∈ items, item.isTurnScoped = true) :
    turn.Collected deps items (items.foldr (fun item segment => segment.joinItem deps item)
      { turnId := some turn.turnId }) := by
  induction items with
  | nil => exact ⟨rfl, rfl, rfl, rfl⟩
  | cons item items ih =>
    exact (ih fun item hitem => h item (List.mem_cons_of_mem _ hitem)).joinItem
      (h item List.mem_cons_self)

lemma collected_segment (deps : Externals) (turn : WholeTurn) :
    turn.Collected deps turn.items (turn.segment deps) := collected_foldr deps turn turn.turnScoped

end WholeTurn

namespace ReplayScan

variable {deps : Externals} {start : ReplayScan} {rest : List RolloutItem}

lemma step_turnEnd {scan : ReplayScan} (h : scan.activeSegment = none) (turn : WholeTurn)
    (newer : List RolloutItem) :
    scan.step deps (.eventMsg (if turn.aborted then .turnAborted (some turn.turnId)
        else .turnComplete turn.turnId)) newer =
      { scan with activeSegment := some { turnId := some turn.turnId } } := by
  cases turn.aborted with
  | true =>
    show scan.step deps (.eventMsg (.turnAborted (some turn.turnId))) newer = _
    unfold step
    rw [h]
  | false =>
    show scan.step deps (.eventMsg (.turnComplete turn.turnId)) newer = _
    unfold step
    rw [h]
    rfl

lemma runAll_turn (turn : WholeTurn) (h : (runAll deps start rest).activeSegment = none) :
    ∃ suffix, runAll deps start (turn.rollout ++ rest) =
      { runAll deps start rest with rolloutSuffix := suffix }.finalizeActiveSegment
        (turn.segment deps) := by
  have hend : runAll deps start ([.eventMsg (if turn.aborted then .turnAborted (some turn.turnId)
        else .turnComplete turn.turnId)] ++ rest) =
      { runAll deps start rest with activeSegment := some { turnId := some turn.turnId } } :=
    step_turnEnd h turn rest
  have hopen := congrArg activeSegment hend
  obtain ⟨suffix, hitems⟩ := runAll_items hopen turn.turnScoped
  rw [hend] at hitems
  refine ⟨suffix, ?_⟩
  have hsegment : turn.segment deps = turn.items.foldr
      (fun item segment => segment.joinItem deps item) { turnId := some turn.turnId } := rfl
  rw [WholeTurn.rollout, List.cons_append, List.append_assoc, runAll, hitems, ← hsegment]
  simp only [step, Option.any_some, (turn.collected_segment deps).turnId]
  have hcompatible : turnIdsAreCompatible (some turn.turnId) (some turn.turnId) = true :=
    decide_eq_true rfl
  rw [if_pos hcompatible, takeActiveSegment, ← h]

end ReplayScan

/-! ## The scan of a rollout -/

/-- The baseline of the newest turn that set or cleared one, as the scan keeps it. -/
def keptBaseline (deps : Externals) : List WholeTurn → TurnReferenceContextItem
  | [] => .neverSet
  | turn :: older =>
    if (turn.countsAsUserTurn deps || turn.baseline = .cleared) && turn.baseline ≠ .neverSet then
      turn.baseline
    else keptBaseline deps older

lemma stackSettings_append (deps : Externals) (turns : List WholeTurn) (turn : WholeTurn) :
    stackSettings deps (turns ++ [turn]) =
      if (stackSettings deps turns).isNone && turn.countsAsUserTurn deps then turn.settings
      else stackSettings deps turns := by
  induction turns with
  | nil =>
    show (if turn.countsAsUserTurn deps then turn.settings.or none else none) =
      if true && turn.countsAsUserTurn deps then turn.settings else none
    rw [Option.or_none, Bool.true_and]
  | cons first turns ih =>
    rw [List.cons_append, stackSettings, stackSettings, ih]
    split
    · cases first.settings with
      | none | some settings => rfl
    · rfl

lemma keptBaseline_append (deps : Externals) (turns : List WholeTurn) (turn : WholeTurn) :
    keptBaseline deps (turns ++ [turn]) =
      if keptBaseline deps turns = .neverSet &&
          (turn.countsAsUserTurn deps || turn.baseline = .cleared) then turn.baseline
      else keptBaseline deps turns := by
  induction turns with
  | nil =>
    show (if _ && _ then turn.baseline else .neverSet) = if true && _ then turn.baseline else .neverSet
    rw [Bool.true_and]
    cases turn.countsAsUserTurn deps <;> cases turn.baseline <;> rfl
  | cons first turns ih =>
    rw [List.cons_append, keptBaseline, keptBaseline, ih]
    split
    · rename_i hfirst
      rw [Bool.and_eq_true, decide_eq_true_eq] at hfirst
      rw [decide_eq_false hfirst.2]
      rfl
    · rfl

/-- The scan is between two turns, and has found what the kept turns say. -/
structure Follows (deps : Externals) (scan : ReplayScan) (s : Scan WholeTurn) : Prop where
  active : scan.activeSegment = none
  pending : scan.pendingRollbackTurns = s.pending
  settings : scan.previousTurnSettings = stackSettings deps s.kept
  reference : scan.referenceContextItem = keptBaseline deps s.kept

variable {deps : Externals}

lemma Follows.finalize {scan : ReplayScan} {s : Scan WholeTurn}
    (h : Follows deps scan s) (turn : WholeTurn) (suffix : List RolloutItem) :
    Follows deps ({ scan with rolloutSuffix := suffix }.finalizeActiveSegment (turn.segment deps))
      (s.step (WholeTurn.countsAsUserTurn deps) usizeMax (.push turn)) := by
  have hcollected := turn.collected_segment deps
  have hcounts : (turn.segment deps).countsAsUserTurn = turn.countsAsUserTurn deps :=
    hcollected.counts
  have hsettings : (turn.segment deps).previousTurnSettings = turn.settings := hcollected.settings
  have hreference : (turn.segment deps).referenceContextItem = turn.baseline := hcollected.reference
  unfold finalizeActiveSegment Scan.step
  dsimp only
  rw [h.pending, hcounts]
  split
  · split
    · exact ⟨h.active, rfl, h.settings, h.reference⟩
    · exact ⟨h.active, rfl, h.settings, h.reference⟩
  · refine ⟨h.active, rfl, ?_, ?_⟩
    · dsimp only
      rw [h.settings, hsettings, stackSettings_append]
    · dsimp only
      rw [h.reference, hreference, keptBaseline_append]

lemma follows_runAll (deps : Externals) (items : List RolloutItem) (events : List (Event WholeTurn)) :
    Follows deps (runAll deps (start items) (events.flatMap eventRollout))
      (scan (WholeTurn.countsAsUserTurn deps) usizeMax events) := by
  induction events with
  | nil => exact ⟨rfl, rfl, rfl, rfl⟩
  | cons event newer ih =>
    rw [List.flatMap_cons]
    cases event with
    | rollback n =>
      refine ⟨ih.active, ?_, ih.settings, ih.reference⟩
      show saturatingAdd (runAll deps _ (newer.flatMap eventRollout)).pendingRollbackTurns n =
        min ((scan (WholeTurn.countsAsUserTurn deps) usizeMax newer).pending + n) usizeMax
      rw [ih.pending]
      rfl
    | push turn =>
      obtain ⟨suffix, hturn⟩ := runAll_turn turn ih.active
      show Follows deps (runAll deps _ (turn.rollout ++ _)) _
      rw [hturn]
      exact ih.finalize turn suffix

/-! ## The stack and the scan -/

/-- `TurnReferenceContextItem` as the result of the reconstruction has it. -/
def TurnReferenceContextItem.toOption : TurnReferenceContextItem → Option TurnContextItem
  | .latest item => some item
  | .neverSet | .cleared => none

lemma stackSettings_of_covers {turns kept : List WholeTurn}
    (h : Covers (WholeTurn.countsAsUserTurn deps) turns kept) :
    stackSettings deps turns = stackSettings deps kept := by
  obtain ⟨rest, rfl, hrest⟩ := h
  induction kept with
  | nil =>
    rw [List.nil_append]
    induction rest with
    | nil => rfl
    | cons turn rest ih =>
      show (if turn.countsAsUserTurn deps then _ else stackSettings deps rest) = _
      rw [hrest turn List.mem_cons_self, if_neg Bool.false_ne_true]
      exact ih fun turn hturn => hrest turn (List.mem_cons_of_mem _ hturn)
  | cons turn kept ih => rw [List.cons_append, stackSettings, stackSettings, ih]

lemma stackReference_of_covers {turns kept : List WholeTurn}
    (h : Covers (WholeTurn.countsAsUserTurn deps) turns kept) :
    stackReference deps turns = (keptBaseline deps kept).toOption := by
  obtain ⟨rest, rfl, hrest⟩ := h
  induction kept with
  | nil =>
    rw [List.nil_append]
    induction rest with
    | nil => rfl
    | cons turn rest ih =>
      rw [stackReference, hrest turn List.mem_cons_self]
      cases turn.baseline with
      | cleared => rfl
      | neverSet | latest ctx => exact ih fun turn hturn => hrest turn (List.mem_cons_of_mem _ hturn)
  | cons turn kept ih =>
    rw [List.cons_append, stackReference, keptBaseline]
    cases turn.baseline with
    | cleared =>
      rw [if_pos (by simp)]
      rfl
    | neverSet =>
      rw [if_neg (by simp)]
      exact ih
    | latest ctx =>
      cases turn.countsAsUserTurn deps with
      | true => rfl
      | false =>
        rw [if_neg (by simp)]
        exact ih

/-- What the scan finds in a rollout of whole turns is what the stack says, and breaking off early
changes nothing of it. -/
theorem resumed_settings_follow_stack (deps : Externals) (policy : TruncationPolicy)
    (rollout : TurnRollout) :
    (reconstructHistoryFromRollout deps policy rollout.items).previousTurnSettings =
        stackSettings deps (rollout.stack deps) ∧
      (final deps rollout.items).referenceContextItem.toOption =
        stackReference deps (rollout.stack deps) ∧
      (final deps rollout.items).SameFindings (finalAll deps rollout.items) := by
  have hfollows := follows_runAll deps rollout.items rollout.events
  have hcovers : Covers (WholeTurn.countsAsUserTurn deps) (rollout.stack deps)
      (scan (WholeTurn.countsAsUserTurn deps) usizeMax rollout.events).kept :=
    covers_scan ((length_le_length_flatMap (by rintro (turn | n) <;> exact List.cons_ne_nil _ _) rollout.events).trans
      rollout.fits)
  have hsame := sameFindings_final deps rollout.items
  have hfinal : finalAll deps rollout.items =
      runAll deps (start rollout.items)
        (rollout.events.flatMap eventRollout) := by
    show (runAll deps (start rollout.items)
      (rollout.events.flatMap eventRollout)).takeActiveSegment = _
    rw [takeActiveSegment, hfollows.active]
  refine ⟨?_, ?_, hsame⟩
  · show (final deps rollout.items).previousTurnSettings = _
    rw [hsame.settings, hfinal, hfollows.settings, stackSettings_of_covers hcovers]
  · rw [hsame.reference, hfinal, hfollows.reference, stackReference_of_covers hcovers]

end Supercodex.Session
