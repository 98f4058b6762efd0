import Supercodex.ThreadHistory.BuilderTheorems
import Supercodex.Session.ResumedSettingsTheorems

/-!
# Rollbacks in the turns of a client and in the history of the model

A rollback marker counts user turns. The reconstruction of a session drops that many user turns, each
with what came after it; the turns of a client lose that many turns of any kind. Both are read off the
events after a turn: how many turns the markers ask for, and how many were opened.
-/

namespace Supercodex.ThreadHistory

open History FirstMatch RollbackStack ThreadHistoryBuilder RolloutItem

/-! ## Rollouts of opened turns -/

/-- The event as the reconstruction of a session reads it. -/
def EventMsg.toSession : EventMsg → Session.EventMsg
  | .threadRolledBack numTurns => .threadRolledBack numTurns
  | .turnStarted turnId _ => .turnStarted turnId
  | .turnComplete turnId _ _ => .turnComplete turnId
  | .turnAborted turnId _ _ => .turnAborted turnId
  | .userMessage _ _ _ _ => .userMessage
  | _ => .other

/-- The item as the reconstruction of a session reads it. -/
def RolloutItem.toSession : RolloutItem → Session.RolloutItem
  | .sessionMeta => .sessionMeta
  | .responseItem item => .responseItem item
  | .compacted item => .compacted item
  | .turnContext item => .turnContext item
  | .eventMsg event => .eventMsg event.toSession

/-- How a turn ends in the rollout, if it does. -/
inductive Ending where
  | missing
  | complete (completedAt durationMs : Option ℤ)
  | aborted (completedAt durationMs : Option ℤ)
deriving DecidableEq

/-- A turn that was opened by `TurnStarted`, with its items. -/
structure OpenedTurn where
  turnId : Text
  startedAt : Option ℤ
  items : List (Text × RolloutItem)
  ending : Ending
  turnScoped : ∀ entry ∈ items, entry.2.toSession.isTurnScoped = true
  /-- Where no end names the turn, its contexts are its own. -/
  ownContexts : ending = .missing → ∀ entry ∈ items, ∀ ctx, entry.2 = .turnContext ctx →
    ctx.turnId = none ∨ ctx.turnId = some turnId

namespace OpenedTurn

/-- The end of a turn in the rollout. -/
def endEntries (turn : OpenedTurn) : List (Text × RolloutItem) :=
  match turn.ending with
  | .missing => []
  | .complete completedAt durationMs =>
    [([], .eventMsg (.turnComplete turn.turnId completedAt durationMs))]
  | .aborted completedAt durationMs =>
    [([], .eventMsg (.turnAborted (some turn.turnId) completedAt durationMs))]

/-- The items of a turn in the rollout. -/
def entries (turn : OpenedTurn) : List (Text × RolloutItem) :=
  ([], .eventMsg (.turnStarted turn.turnId turn.startedAt)) :: (turn.items ++ turn.endEntries)

/-- Is this a user turn? -/
def isUserTurn (deps : Externals) (turn : OpenedTurn) : Bool :=
  turn.items.any fun entry => Session.WholeTurn.isUserItem deps.history entry.2.toSession

end OpenedTurn

/-- The items of a turn or of a rollback marker. -/
def eventEntries : Event OpenedTurn → List (Text × RolloutItem)
  | .push turn => turn.entries
  | .rollback n => [([], .eventMsg (.threadRolledBack n))]

/-- The id of the turn that is opened. -/
def openedId : Event OpenedTurn → Option Text
  | .push turn => some turn.turnId
  | .rollback _ => none

/-- A rollout of opened turns with rollback markers between them; its length is a `usize`. -/
structure OpenedRollout where
  events : List (Event OpenedTurn)
  distinct : (events.filterMap openedId).Nodup
  fits : (events.flatMap eventEntries).length ≤ usizeMax

/-- The items of the rollout. -/
def OpenedRollout.entries (rollout : OpenedRollout) : List (Text × RolloutItem) :=
  rollout.events.flatMap eventEntries

/-- The items as the reconstruction of a session reads them. -/
def sessionItems (events : List (Event OpenedTurn)) : List Session.RolloutItem :=
  (events.flatMap eventEntries).map fun entry => entry.2.toSession

/-- The turn is among those that the client is shown. -/
def Present (deps : Externals) (rollout : OpenedRollout) (turn : OpenedTurn) : Prop :=
  turn.turnId ∈ (buildTurnsFromRolloutItems deps rollout.entries).map Turn.id

/-- The scan from the newest item has no rollback left to apply when it has read what is newer than the
turn, and so `finalize_active_segment` keeps the segment of the turn. -/
def SegmentSurvives (deps : Externals) (rollout : OpenedRollout) (newer : List (Event OpenedTurn)) :
    Prop :=
  (Session.ReplayScan.runAll deps.history
    (Session.ReplayScan.start (sessionItems rollout.events))
    (sessionItems newer)).pendingRollbackTurns = 0

/-! ## The turns of a client -/

namespace ThreadHistoryBuilder

variable {builder : ThreadHistoryBuilder} {deps : Externals} {ids : List Text} {turnId : Text}

/-- The builder inside a turn that was opened explicitly. -/
structure InTurn (ids : List Text) (turnId : Text) (builder : ThreadHistoryBuilder) : Prop where
  closed : builder.turns.map Turn.id = ids
  active : ∃ turn, builder.currentTurn = some turn ∧ turn.id = turnId ∧ turn.openedExplicitly = true

/-- The builder between turns; the last one may still be open. -/
structure Between (ids : List Text) (builder : ThreadHistoryBuilder) : Prop where
  all : builder.allTurns.map Turn.id = ids
  explicit : ∀ turn, builder.currentTurn = some turn → turn.openedExplicitly = true

lemma Between.new : Between [] new := by
  refine ⟨rfl, fun turn hturn => ?_⟩
  cases hturn

lemma Between.keepsOpenTurn (h : Between ids builder) : builder.KeepsOpenTurn :=
  fun turn hturn => .inr (.inl (h.explicit turn hturn))

section

variable (h : InTurn ids turnId builder)
include h

lemma InTurn.between : Between (ids ++ [turnId]) builder := by
  obtain ⟨turn, hturn, hid, hexplicit⟩ := h.active
  constructor
  · simp [allTurns, hturn, h.closed, hid]
  · intro turn' hturn'
    rw [hturn] at hturn'
    rw [← Option.some.inj hturn']
    exact hexplicit

lemma InTurn.changeTurn {uuid : Text}
    (change : PendingTurn → PendingTurn)
    (hchange : ∀ turn, (change turn).id = turn.id ∧
      (change turn).openedExplicitly = turn.openedExplicitly) :
    InTurn ids turnId (builder.changeTurn uuid change) := by
  obtain ⟨turn, hturn, hid, hexplicit⟩ := h.active
  refine ⟨h.closed, change turn, ?_, (hchange turn).1.trans hid, (hchange turn).2.trans hexplicit⟩
  simp [ThreadHistoryBuilder.changeTurn, ensureTurn, hturn]

lemma InTurn.changeActiveTurn (change : Turn → Turn)
    (hchange : ∀ turn, (change turn).id = turn.id) :
    InTurn ids turnId (builder.changeActiveTurn change) := by
  obtain ⟨turn, hturn, hid, hexplicit⟩ := h.active
  refine ⟨h.closed, turn.mapTurn change, ?_, (hchange _).trans hid, hexplicit⟩
  simp [ThreadHistoryBuilder.changeActiveTurn, hturn]

lemma InTurn.pushNextItem {uuid : Text}
    (item : Text → ThreadItem) : InTurn ids turnId (builder.pushNextItem uuid item) := by
  have hnext : InTurn ids turnId { builder with nextItemIndex := builder.nextItemIndex + 1 } :=
    ⟨h.closed, h.active⟩
  exact hnext.changeTurn _ fun _ => ⟨rfl, rfl⟩

lemma InTurn.upsertAt {uuid : Text} (address : Address)
    (item : ThreadItem) : InTurn ids turnId (builder.upsertAt uuid address item) := by
  cases address with
  | current => exact h.changeTurn (·.upsert item) fun _ => ⟨rfl, rfl⟩
  | turn addressed =>
    show InTurn ids turnId (builder.upsertItemInTurnId addressed item)
    obtain ⟨turn, hturn, hid, hexplicit⟩ := h.active
    unfold upsertItemInTurnId
    split
    · next found hfound =>
      rw [hturn] at hfound
      have := (Option.filter_eq_some_iff.mp hfound).1
      cases this
      exact ⟨h.closed, _, rfl, hid, hexplicit⟩
    · split
      · next turns hturns =>
        obtain ⟨before, changed, after, heq, rfl, -, -⟩ := modifyFirst_eq_some hturns
        refine ⟨?_, turn, hturn, hid, hexplicit⟩
        rw [← h.closed, heq]
        simp
      · exact h

/-- An event of a turn opens and closes no turn. -/
lemma InTurn.handleEvent (uuid : Text) {event : EventMsg}
    (hscoped : (eventMsg event).toSession.isTurnScoped = true) :
    InTurn ids turnId (builder.handleEvent deps uuid event) := by
  rcases handleEvent_cases deps uuid builder event with ⟨address, found, -, heq⟩ | ⟨-, hmarks⟩
  · rw [heq]
    exact h.upsertAt address found
  generalize builder.handleEvent deps uuid event = result at hmarks ⊢
  cases hmarks with
  | nothing => exact h
  | user message images localImages textElements =>
    -- the open turn is explicit, so the message stays in it
    obtain ⟨turn, hturn, -, hexplicit⟩ := h.active
    unfold handleUserMessage
    simp only [hturn, hexplicit, Bool.true_eq_false, false_and, if_false]
    exact h.pushNextItem _
  | pushNextItem next hid hturn => exact h.pushNextItem next
  | reasoning text add hturn =>
    unfold handleReasoning
    split
    · exact h
    · split
      · exact h.changeTurn _ fun _ => ⟨rfl, rfl⟩
      · exact h.pushNextItem _
  | error message info =>
    unfold handleError
    split
    · exact h.changeActiveTurn _ fun _ => rfl
    · exact h
  | rollback numTurns | aborted id completedAt durationMs | started id startedAt => cases hscoped
  | complete id completedAt durationMs => cases hscoped

lemma InTurn.handleRolloutItem (uuid : Text) {item : RolloutItem}
    (hscoped : item.toSession.isTurnScoped = true) :
    InTurn ids turnId (builder.handleRolloutItem deps uuid item) := by
  have hnext : InTurn ids turnId builder.countRolloutItem := ⟨h.closed, h.active⟩
  cases item with
  | sessionMeta | turnContext item => exact hnext
  | compacted item =>
    exact hnext.changeTurn ({ · with sawCompaction := true }) fun _ => ⟨rfl, rfl⟩
  | responseItem item =>
    simp only [ThreadHistoryBuilder.handleRolloutItem]
    unfold handleResponseItem
    split
    · split
      · exact hnext
      · split
        · exact hnext.changeTurn _ fun _ => ⟨rfl, rfl⟩
        · exact hnext
    · exact hnext
  | eventMsg event => exact hnext.handleEvent uuid hscoped

lemma InTurn.foldl_items (deps : Externals)
    {items : List (Text × RolloutItem)}
    (hscoped : ∀ entry ∈ items, entry.2.toSession.isTurnScoped = true) :
    InTurn ids turnId
      (items.foldl (fun builder entry => builder.handleRolloutItem deps entry.1 entry.2) builder) := by
  induction items generalizing builder with
  | nil => exact h
  | cons entry items ih =>
    refine ih (h.handleRolloutItem entry.1 (hscoped entry List.mem_cons_self)) ?_
    exact fun entry hentry => hscoped entry (List.mem_cons_of_mem _ hentry)

end

/-- `TurnStarted` closes the turn before and opens a new one. -/
lemma Between.handleTurnStarted (h : Between ids builder) (turnId : Text) (startedAt : Option ℤ) :
    InTurn ids turnId (builder.handleTurnStarted turnId startedAt) := by
  refine ⟨?_, _, rfl, rfl, rfl⟩
  show builder.finishCurrentTurn.turns.map Turn.id = ids
  rw [h.keepsOpenTurn.finishCurrentTurn_turns]
  exact h.all

lemma InTurn.any_id (h : InTurn ids turnId builder) :
    (builder.currentTurn.any fun turn => turn.id = turnId) = true := by
  obtain ⟨turn, hturn, hid, -⟩ := h.active
  rw [hturn]
  exact decide_eq_true hid

/-- `TurnComplete` closes the turn. -/
lemma InTurn.handleTurnComplete (h : InTurn ids turnId builder)
    (completedAt durationMs : Option ℤ) :
    Between (ids ++ [turnId]) (builder.handleTurnComplete turnId completedAt durationMs) := by
  have hmarked := (h.changeActiveTurn (·.markCompleted completedAt durationMs) fun _ => rfl).between
  unfold ThreadHistoryBuilder.handleTurnComplete
  rw [if_pos h.any_id]
  constructor
  · rw [allTurns, finishCurrentTurn_currentTurn, hmarked.keepsOpenTurn.finishCurrentTurn_turns]
    simpa using hmarked.all
  · intro turn hturn
    rw [finishCurrentTurn_currentTurn] at hturn
    cases hturn

/-- `TurnAborted` marks the turn. -/
lemma InTurn.handleTurnAborted (h : InTurn ids turnId builder) (completedAt durationMs : Option ℤ) :
    Between (ids ++ [turnId])
      (builder.handleTurnAborted (some turnId) completedAt durationMs) := by
  simp only [ThreadHistoryBuilder.handleTurnAborted, if_pos h.any_id]
  exact (h.changeActiveTurn (·.applyAbort completedAt durationMs) fun _ => rfl).between

lemma Between.handleThreadRollback (h : Between ids builder) (n : ℕ) :
    Between (ids.take (ids.length - n)) (builder.handleThreadRollback n) := by
  have hturns := h.keepsOpenTurn.finishCurrentTurn_turns
  have hlength := congrArg List.length h.all
  rw [List.length_map] at hlength
  constructor
  · simp only [ThreadHistoryBuilder.handleThreadRollback, allTurns, finishCurrentTurn_currentTurn]
    rw [hturns, ← hlength, ← h.all, Option.map_none, Option.toList_none, List.append_nil,
      ← List.map_take]
    split
    · next hall =>
      have hzero : builder.allTurns.length - n = 0 := by omega
      rw [hzero, List.take_zero]
    · rfl
  · intro turn hturn
    simp only [ThreadHistoryBuilder.handleThreadRollback, finishCurrentTurn_currentTurn] at hturn
    cases hturn

lemma Between.foldl_entries (h : Between ids builder) (deps : Externals) (turn : OpenedTurn) :
    Between (ids ++ [turn.turnId]) (turn.entries.foldl
      (fun builder entry => builder.handleRolloutItem deps entry.1 entry.2) builder) := by
  have hcounted : Between ids builder.countRolloutItem := ⟨h.all, h.explicit⟩
  have hitems := (hcounted.handleTurnStarted turn.turnId turn.startedAt).foldl_items deps
    turn.turnScoped
  rw [OpenedTurn.entries, List.foldl_cons, List.foldl_append, OpenedTurn.endEntries]
  obtain ⟨inTurn, hinTurn⟩ : ∃ inTurn, inTurn = turn.items.foldl
      (fun builder entry => handleRolloutItem builder deps entry.1 entry.2)
      (builder.countRolloutItem.handleTurnStarted turn.turnId turn.startedAt) := ⟨_, rfl⟩
  show Between _ (List.foldl _ (turn.items.foldl
    (fun builder entry => handleRolloutItem builder deps entry.1 entry.2)
    (builder.countRolloutItem.handleTurnStarted turn.turnId turn.startedAt)) _)
  rw [← hinTurn] at hitems ⊢
  have hnext : InTurn ids turn.turnId inTurn.countRolloutItem := ⟨hitems.closed, hitems.active⟩
  cases turn.ending with
  | missing => exact hitems.between
  | complete completedAt durationMs => exact hnext.handleTurnComplete completedAt durationMs
  | aborted completedAt durationMs => exact hnext.handleTurnAborted completedAt durationMs

lemma between_handleRolloutItems (deps : Externals) (events : List (Event OpenedTurn)) :
    Between ((events.foldl (skipApply fun _ => true) []).map OpenedTurn.turnId).reverse
      (handleRolloutItems deps (events.flatMap eventEntries)) := by
  unfold handleRolloutItems
  induction events using List.reverseRecOn with
  | nil => exact Between.new
  | append_singleton events event ih =>
    rw [List.flatMap_append, List.flatMap_singleton, List.foldl_append, List.foldl_append,
      List.foldl_cons, List.foldl_nil]
    cases event with
    | push turn =>
      have hturn := ih.foldl_entries deps turn
      simpa [skipApply, eventEntries] using hturn
    | rollback n =>
      generalize events.foldl (skipApply fun _ => true) [] = stack at ih ⊢
      have hcounted : Between (stack.map OpenedTurn.turnId).reverse (countRolloutItem
        ((events.flatMap eventEntries).foldl
          (fun builder entry => builder.handleRolloutItem deps entry.1 entry.2) new)) :=
        ⟨ih.all, ih.explicit⟩
      have hrollback := hcounted.handleThreadRollback n
      have hdrop : (stack.map OpenedTurn.turnId).reverse.take
          ((stack.map OpenedTurn.turnId).reverse.length - n) =
          ((stack.drop n).map OpenedTurn.turnId).reverse := by
        rw [List.length_reverse, ← List.reverse_drop, List.map_drop]
      rw [hdrop] at hrollback
      rw [skipApply, skip_true]
      exact hrollback

end ThreadHistoryBuilder

/-! ## The history of the model -/

namespace OpenedTurn

variable {deps : Externals} {turn : OpenedTurn} {scan scan' : Session.ReplayScan}
  {items : List (Text × RolloutItem)}

/-- The scan has read some items of a turn, from the newest: what it knows of the open segment. -/
structure Reads (deps : Externals) (turn : OpenedTurn) (pending : ℕ)
    (items : List (Text × RolloutItem)) (scan : Session.ReplayScan) : Prop where
  pending : scan.pendingRollbackTurns = pending
  closed : scan.activeSegment = none →
    (items.any fun entry => Session.WholeTurn.isUserItem deps.history entry.2.toSession) = false ∧
      turn.ending = .missing
  active : ∀ segment, scan.activeSegment = some segment →
    segment.countsAsUserTurn =
        (items.any fun entry => Session.WholeTurn.isUserItem deps.history entry.2.toSession) ∧
      (segment.turnId = some turn.turnId ∨ turn.ending = .missing ∧ segment.turnId = none)

variable {pending : ℕ} {entry : Text × RolloutItem}

section

variable (h : turn.Reads deps pending items scan)
include h

/-- The reverse scan is in a segment for the turn. -/
lemma Reads.of_segment {segment : Session.ActiveReplaySegment}
    (hpending : scan'.pendingRollbackTurns = pending)
    (hactive : scan'.activeSegment = some segment)
    (hcounts : segment.countsAsUserTurn =
      (Session.WholeTurn.isUserItem deps.history entry.2.toSession ||
        (scan.activeSegment.getD {}).countsAsUserTurn))
    (hid : segment.turnId = (scan.activeSegment.getD {}).turnId ∨
      turn.ending = .missing ∧ segment.turnId = some turn.turnId) :
    turn.Reads deps pending (entry :: items) scan' := by
  refine ⟨hpending, fun hnone => ?_, fun segment' hsegment' => ?_⟩
  · rw [hactive] at hnone
    cases hnone
  · rw [hactive] at hsegment'
    cases hsegment'
    cases hscan : scan.activeSegment with
    | none =>
      obtain ⟨hany, hending⟩ := h.closed hscan
      rw [hscan] at hcounts hid
      refine ⟨by rw [hcounts, List.any_cons, hany]; rfl, ?_⟩
      rcases hid with hid | ⟨-, hid⟩
      · exact .inr ⟨hending, hid⟩
      · exact .inl hid
    | some old =>
      obtain ⟨hany, hturn⟩ := h.active old hscan
      rw [hscan, Option.getD_some] at hcounts hid
      refine ⟨by rw [hcounts, List.any_cons, hany], ?_⟩
      rcases hid with hid | ⟨-, hid⟩
      · rw [hid]
        exact hturn
      · exact .inl hid

lemma Reads.of_skip (hitem : Session.WholeTurn.isUserItem deps.history entry.2.toSession = false) :
    turn.Reads deps pending (entry :: items) scan := by
  refine ⟨h.pending, fun hnone => ?_, fun segment hsegment => ?_⟩
  · rw [List.any_cons, hitem]
    exact h.closed hnone
  · rw [List.any_cons, hitem]
    exact h.active segment hsegment

lemma Reads.step (hscoped : entry.2.toSession.isTurnScoped = true)
    (hcontext : turn.ending = .missing → ∀ ctx, entry.2 = .turnContext ctx →
      ctx.turnId = none ∨ ctx.turnId = some turn.turnId) (newer : List Session.RolloutItem) :
    turn.Reads deps pending (entry :: items)
      (scan.step deps.history entry.2.toSession newer) := by
  obtain ⟨uuid, item⟩ := entry
  cases item with
  | sessionMeta => exact h.of_skip rfl
  | responseItem item =>
    exact h.of_segment h.pending rfl (Bool.or_comm _ _) (.inl rfl)
  | compacted item =>
    simp only [toSession, Session.ReplayScan.step]
    have hcounts : ∀ segment : Session.ActiveReplaySegment,
        (if segment.referenceContextItem = .neverSet then
          { segment with referenceContextItem := .cleared } else segment).countsAsUserTurn =
            segment.countsAsUserTurn ∧
        (if segment.referenceContextItem = .neverSet then
          { segment with referenceContextItem := .cleared } else segment).turnId =
            segment.turnId := by
      intro segment
      split <;> exact ⟨rfl, rfl⟩
    split
    · exact h.of_segment h.pending rfl (hcounts _).1 (.inl (hcounts _).2)
    · exact h.of_segment h.pending rfl (hcounts _).1 (.inl (hcounts _).2)
  | turnContext ctx =>
    -- the id of the context is only taken where no end has named the turn
    have hid : (scan.activeSegment.getD {}).turnId.or ctx.turnId =
          (scan.activeSegment.getD {}).turnId ∨
        turn.ending = .missing ∧ (scan.activeSegment.getD {}).turnId.or ctx.turnId =
          some turn.turnId := by
      cases hsegment : (scan.activeSegment.getD {}).turnId with
      | some id => exact .inl rfl
      | none =>
        have hmissing : turn.ending = .missing := by
          cases hscan : scan.activeSegment with
          | none => exact (h.closed hscan).2
          | some segment =>
            rw [hscan, Option.getD_some] at hsegment
            rcases (h.active segment hscan).2 with hsome | ⟨hmissing, -⟩
            · rw [hsegment] at hsome
              cases hsome
            · exact hmissing
        rcases hcontext hmissing ctx rfl with hctx | hctx
        · exact .inl hctx
        · exact .inr ⟨hmissing, hctx⟩
    simp only [toSession, Session.ReplayScan.step]
    split
    · exact h.of_segment h.pending rfl rfl hid
    · exact h.of_segment h.pending rfl rfl hid
  | eventMsg event =>
    cases event with
    | userMessage message images localImages textElements =>
      exact h.of_segment h.pending rfl rfl (.inl rfl)
    | threadRolledBack numTurns | turnStarted id startedAt => cases hscoped
    | turnComplete id completedAt durationMs | turnAborted id completedAt durationMs => cases hscoped
    | _ => exact h.of_skip rfl

end

variable {rest : List Session.RolloutItem} {start : Session.ReplayScan}

/-- The items of a turn are read one by one, the last one first. -/
lemma Reads.runAll_items
    (h : turn.Reads deps pending [] (Session.ReplayScan.runAll deps.history start rest))
    (hscoped : ∀ entry ∈ items, entry.2.toSession.isTurnScoped = true)
    (hcontext : turn.ending = .missing → ∀ entry ∈ items, ∀ ctx, entry.2 = .turnContext ctx →
      ctx.turnId = none ∨ ctx.turnId = some turn.turnId) :
    turn.Reads deps pending items (Session.ReplayScan.runAll deps.history start
      (items.map (fun entry => entry.2.toSession) ++ rest)) := by
  induction items with
  | nil => exact h
  | cons entry items ih =>
    have hitems := ih (fun entry hentry => hscoped entry (List.mem_cons_of_mem _ hentry))
      fun hmissing entry hentry => hcontext hmissing entry (List.mem_cons_of_mem _ hentry)
    exact hitems.step (hscoped entry List.mem_cons_self)
      (fun hmissing => hcontext hmissing entry List.mem_cons_self) _

lemma reads_endEntries (deps : Externals) (turn : OpenedTurn)

    (hactive : (Session.ReplayScan.runAll deps.history start rest).activeSegment = none) :
    turn.Reads deps (Session.ReplayScan.runAll deps.history start rest).pendingRollbackTurns []
      (Session.ReplayScan.runAll deps.history start
        (turn.endEntries.map (fun entry => entry.2.toSession) ++ rest)) := by
  unfold endEntries
  cases hending : turn.ending with
  | missing =>
    refine ⟨rfl, fun _ => ⟨rfl, hending⟩, fun segment hsegment => ?_⟩
    rw [List.map_nil, List.nil_append, hactive] at hsegment
    cases hsegment
  | complete completedAt durationMs | aborted completedAt durationMs =>
    simp only [List.map_cons, List.map_nil, toSession, EventMsg.toSession,
      List.cons_append, List.nil_append, Session.ReplayScan.runAll, Session.ReplayScan.step, hactive]
    refine ⟨rfl, fun hnone => absurd hnone (Option.some_ne_none _), fun segment hsegment => ?_⟩
    cases hsegment
    exact ⟨rfl, .inl rfl⟩

/-- Once a turn is read, no segment is open, and a rollback that is pending is used up by a user
turn. -/
lemma runAll_entries (deps : Externals) (turn : OpenedTurn)

    (hactive : (Session.ReplayScan.runAll deps.history start rest).activeSegment = none) :
    (Session.ReplayScan.runAll deps.history start
        (turn.entries.map (fun entry => entry.2.toSession) ++ rest)).activeSegment = none ∧
      (Session.ReplayScan.runAll deps.history start
        (turn.entries.map (fun entry => entry.2.toSession) ++ rest)).pendingRollbackTurns =
        (Session.ReplayScan.runAll deps.history start rest).pendingRollbackTurns -
          (turn.isUserTurn deps).toNat := by
  have hreads := (reads_endEntries deps turn hactive).runAll_items turn.turnScoped turn.ownContexts
  rw [entries, List.map_cons, List.cons_append, List.map_append, List.append_assoc,
    Session.ReplayScan.runAll]
  generalize Session.ReplayScan.runAll deps.history start rest = before at hreads ⊢
  generalize Session.ReplayScan.runAll deps.history start _ = scan at hreads ⊢
  obtain ⟨hpending, hclosed, hopen⟩ := hreads
  simp only [toSession, EventMsg.toSession, Session.ReplayScan.step]
  cases hscan : scan.activeSegment with
  | none =>
    have huser : turn.isUserTurn deps = false := (hclosed hscan).1
    simp only [Option.any_none, Bool.false_eq_true, if_false, huser]
    exact ⟨hscan, hpending⟩
  | some segment =>
    obtain ⟨hcounts, hid⟩ := hopen segment hscan
    have hcompatible : Session.turnIdsAreCompatible segment.turnId (some turn.turnId) = true := by
      rcases hid with hid | ⟨-, hid⟩
      · rw [hid]
        exact decide_eq_true rfl
      · rw [hid]
        rfl
    have huser : segment.countsAsUserTurn = turn.isUserTurn deps := hcounts
    simp only [Option.any_some, hcompatible, if_true, Session.ReplayScan.takeActiveSegment, hscan,
      Session.ReplayScan.finalizeActiveSegment, huser, hpending]
    split
    · cases turn.isUserTurn deps with
      | true | false => exact ⟨rfl, rfl⟩
    · refine ⟨rfl, ?_⟩
      show before.pendingRollbackTurns = _
      omega

end OpenedTurn

/-- The scan of a rollout counts what the scan of its events counts. -/
lemma runAll_sessionItems (deps : Externals) (start : Session.ReplayScan)
    (hstart : start.activeSegment = none ∧ start.pendingRollbackTurns = 0)
    (events : List (Event OpenedTurn)) :
    (Session.ReplayScan.runAll deps.history start (sessionItems events)).activeSegment = none ∧
      (Session.ReplayScan.runAll deps.history start (sessionItems events)).pendingRollbackTurns =
        (scan (OpenedTurn.isUserTurn deps) usizeMax events).pending := by
  induction events with
  | nil => exact hstart
  | cons event newer ih =>
    have hitems : sessionItems (event :: newer) =
        (eventEntries event).map (fun entry => entry.2.toSession) ++ sessionItems newer := by
      simp [sessionItems]
    rw [hitems, scan]
    cases event with
    | push turn =>
      obtain ⟨hactive, hpending⟩ := OpenedTurn.runAll_entries deps turn ih.1
      refine ⟨hactive, hpending.trans ?_⟩
      rw [ih.2, Scan.step]
      cases turn.isUserTurn deps with
      | true =>
        simp only [Bool.toNat_true, if_true]
        split
        · rfl
        · show (scan _ usizeMax newer).pending - 1 = (scan _ usizeMax newer).pending
          omega
      | false =>
        simp only [Bool.toNat_false, Bool.false_eq_true, if_false]
        split <;> rfl
    | rollback n =>
      refine ⟨ih.1, ?_⟩
      show saturatingAdd (Session.ReplayScan.runAll deps.history start
        (sessionItems newer)).pendingRollbackTurns n = _
      rw [ih.2]
      rfl

/-! ## Which turns are left -/

section
variable {deps : Externals} {rollout : OpenedRollout} {older newer : List (Event OpenedTurn)}
  {turn : OpenedTurn}

lemma mem_openedIds_of_push {events : List (Event OpenedTurn)}
    (h : .push turn ∈ events) : turn.turnId ∈ events.filterMap openedId :=
  List.mem_filterMap.mpr ⟨.push turn, h, rfl⟩

/-- A turn is shown if the markers after it leave it when every turn counts. -/
lemma present_iff (hsplit : rollout.events = older ++ .push turn :: newer) :
    Present deps rollout turn ↔ (exactScan (fun _ => true) newer).pending = 0 := by
  have hbetween := between_handleRolloutItems deps rollout.events
  have hdistinct := rollout.distinct
  have hbuilt : (buildTurnsFromRolloutItems deps rollout.entries).map Turn.id =
      ((rollout.events.foldl (skipApply fun _ => true) []).map OpenedTurn.turnId).reverse := by
    rw [← hbetween.all, ← hbetween.keepsOpenTurn.finishCurrentTurn_turns]
    rfl
  have hopened : openedId (.push turn) = some turn.turnId := rfl
  rw [hsplit, List.filterMap_append, List.filterMap_cons_some hopened, List.nodup_append,
    List.nodup_cons] at hdistinct
  obtain ⟨-, ⟨hnewer, -⟩, holder⟩ := hdistinct
  unfold Present
  rw [hbuilt, List.mem_reverse, hsplit, List.foldl_append, List.foldl_cons, foldl_skipApply]
  show turn.turnId ∈ List.map _ (_ ++ skip _ _ (turn :: _)) ↔ _
  constructor
  · intro hmem
    by_contra hpending
    obtain ⟨found, hfound, hid⟩ := List.mem_map.mp hmem
    rcases List.mem_append.mp hfound with hkept | hskipped
    · exact hnewer (hid ▸ mem_openedIds_of_push (push_mem_of_mem_kept hkept))
    -- the turn itself is dropped, and what is below it is older
    obtain ⟨n, hn⟩ := Nat.exists_eq_succ_of_ne_zero hpending
    rw [skip_true, hn, List.drop_succ_cons] at hskipped
    have hbelow := List.mem_of_mem_drop hskipped
    rw [foldl_skipApply, skip_nil, List.append_nil] at hbelow
    exact holder found.turnId (mem_openedIds_of_push (push_mem_of_mem_kept hbelow)) turn.turnId
      List.mem_cons_self hid
  · intro hpending
    rw [hpending, skip_zero]
    simp

lemma segmentSurvives_iff (hsplit : rollout.events = older ++ .push turn :: newer) :
    SegmentSurvives deps rollout newer ↔
      (exactScan (OpenedTurn.isUserTurn deps) newer).pending = 0 := by
  have hlength : newer.length + 1 ≤ usizeMax := by
    have hfits := (length_le_length_flatMap (by rintro (turn | n) <;> exact List.cons_ne_nil _ _)
      rollout.events).trans rollout.fits
    rw [hsplit, List.length_append, List.length_cons] at hfits
    omega
  unfold SegmentSurvives
  rw [(runAll_sessionItems deps _ ⟨rfl, rfl⟩ newer).2]
  -- a saturated counter is no nearer to zero than an exact one
  rcases (scan_eq_exactScan newer 1 hlength).2 with heq | ⟨hscan, hexact⟩
  · rw [heq]
  · omega

lemma pending_eq_zero_iff {counts : OpenedTurn → Bool} (newer : List (Event OpenedTurn)) :
    (exactScan counts newer).pending = 0 ↔
      ∀ k, asked (newer.take k) ≤ pushed counts (newer.take k) := by
  rw [← Nat.le_zero, exactScan_pending_le_iff]
  rfl

lemma pushed_le (counts : OpenedTurn → Bool) (events : List (Event OpenedTurn)) :
    pushed counts events ≤ pushed (fun _ => true) events := by
  induction events with
  | nil => exact Nat.le_refl 0
  | cons event events ih =>
    cases event with
    | push turn =>
      have := Bool.toNat_le (counts turn)
      simp only [pushed, Bool.toNat_true]
      omega
    | rollback n => exact ih

end

/-- The turns that a client is shown and the history of the model agree on the user turns of a rollout
if and only if no user turn is one whose markers always fit into the turns opened after it, but at some
point do not fit into the user turns among them. -/
theorem rollback_views_agree_iff (deps : Externals) (rollout : OpenedRollout) :
    (∀ older turn newer, rollout.events = older ++ .push turn :: newer →
      turn.isUserTurn deps = true →
      (Present deps rollout turn ↔ SegmentSurvives deps rollout newer)) ↔
    ∀ older turn newer, rollout.events = older ++ .push turn :: newer →
      turn.isUserTurn deps = true →
      (∀ k, asked (newer.take k) ≤ pushed (fun _ => true) (newer.take k)) →
      ∀ k, asked (newer.take k) ≤ pushed (OpenedTurn.isUserTurn deps) (newer.take k) := by
  have hviews : ∀ older turn newer, rollout.events = older ++ .push turn :: newer →
      ((Present deps rollout turn ↔ SegmentSurvives deps rollout newer) ↔
        ((∀ k, asked (newer.take k) ≤ pushed (fun _ => true) (newer.take k)) →
          ∀ k, asked (newer.take k) ≤ pushed (OpenedTurn.isUserTurn deps) (newer.take k))) := by
    intro older turn newer hsplit
    rw [present_iff hsplit, segmentSurvives_iff hsplit, pending_eq_zero_iff, pending_eq_zero_iff]
    constructor
    · exact fun h => h.mp
    · exact fun h => ⟨h, fun huser k => (huser k).trans (pushed_le _ _)⟩
  constructor
  · exact fun h older turn newer hsplit huser =>
      (hviews older turn newer hsplit).mp (h older turn newer hsplit huser)
  · exact fun h older turn newer hsplit huser =>
      (hviews older turn newer hsplit).mpr (h older turn newer hsplit huser)

/-- A turn with a message of the user. -/
def userTurn : OpenedTurn where
  turnId := ['u']
  startedAt := none
  items := [([], .eventMsg (.userMessage ['h', 'i'] none [] []))]
  ending := .complete none none
  turnScoped := by decide
  ownContexts := nofun

/-- A turn that only compacts the history. -/
def compactionTurn : OpenedTurn where
  turnId := ['c']
  startedAt := none
  items := [([], .compacted ⟨[], some []⟩)]
  ending := .complete none none
  turnScoped := by decide
  ownContexts := nofun

/-- A user turn, a compaction and a rollback of one turn. -/
def compactedThenRolledBack : OpenedRollout where
  events := [.push userTurn, .push compactionTurn, .rollback 1]
  distinct := by decide
  fits := by decide

/-- The client still has the user turn, which the history of the model has lost. -/
theorem rolled_back_turn_still_shown :
    userTurn.isUserTurn noParsers = true ∧ Present noParsers compactedThenRolledBack userTurn ∧
      ¬ SegmentSurvives noParsers compactedThenRolledBack
        [.push compactionTurn, .rollback 1] := by
  refine ⟨rfl, ?_, ?_⟩
  · unfold Present
    decide
  · unfold SegmentSurvives
    decide

end Supercodex.ThreadHistory
