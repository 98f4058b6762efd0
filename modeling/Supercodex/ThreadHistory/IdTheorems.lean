import Supercodex.ThreadHistory.BuilderTheorems
import Supercodex.Library.Numbering

/-!
# The ids of turns and items

Ids of items are drawn from a counter or come with the events; a rollback starts the counter again
behind the number of items that are left. Ids of turns come with `TurnStarted`, or are made from the
place of the item that opens the turn. In every rollout they stay different, as long as each call keeps
to one turn.
-/

namespace Supercodex.ThreadHistory

open History FirstMatch Supercodex.Numbering PendingTurn Address

/-! ## The ids that a rollout brings -/

namespace RolloutItem

/-- The item that a rollout item puts into a turn, with the turn that it is for. -/
def upserts (deps : Externals) : RolloutItem → Option (Address × ThreadItem)
  | .eventMsg event => event.upserts deps
  | _ => none

/-- The id of the turn that a rollout item starts. -/
def startedId : RolloutItem → Option Text
  | .eventMsg (.turnStarted turnId _) => some turnId
  | _ => none

/-- The hook prompt in a rollout item. -/
def hookPrompt (deps : Externals) (uuid : Text) : RolloutItem → Option ThreadItem
  | .responseItem (.message id role content _ _) =>
    if role ≠ "user".toList then none
    else ThreadHistoryBuilder.parseHookPromptMessage deps uuid id content
  | _ => none

end RolloutItem

/-- The ids of the turns that are started. -/
def startedIds (items : List (Text × RolloutItem)) : List Text :=
  items.filterMap fun entry => entry.2.startedId

/-- The ids of the hook prompts. -/
def hookPromptIds (deps : Externals) (items : List (Text × RolloutItem)) : List Text :=
  items.filterMap fun entry => (entry.2.hookPrompt deps entry.1).map ThreadItem.id

/-- The calls that the items are about: the turn that an item names and the id of the call. -/
def calls (deps : Externals) (items : List (Text × RolloutItem)) : List (Address × Text) :=
  items.filterMap fun entry => (entry.2.upserts deps).map fun (address, item) => (address, item.id)

/-- The ids that come with a rollout are different from each other and from the generated ones, and
the events of one call name one turn. -/
structure DistinctIds (deps : Externals) (items : List (Text × RolloutItem)) : Prop where
  started : (startedIds items).Nodup
  startedForm : ∀ turnId ∈ startedIds items, ∀ n, turnId ≠ rolloutId n
  callForm : ∀ call ∈ calls deps items, ∀ n, call.2 ≠ itemId n
  callTurn : ∀ call ∈ calls deps items, ∀ other ∈ calls deps items, call.2 = other.2 →
    call.1 = other.1
  prompts : (hookPromptIds deps items).Nodup
  promptForm : ∀ id ∈ hookPromptIds deps items, ∀ n, id ≠ itemId n
  promptCall : ∀ id ∈ hookPromptIds deps items, ∀ call ∈ calls deps items, call.2 ≠ id

/-- No event without a turn id is for a call whose item stands in a closed turn. -/
def CallsStayInTurn (deps : Externals) (items : List (Text × RolloutItem)) : Prop :=
  ∀ before entry after, items = before ++ entry :: after →
    ∀ item, entry.2.upserts deps = some (.current, item) →
      ∀ turn ∈ (ThreadHistoryBuilder.handleRolloutItems deps before).turns,
        ∀ other ∈ turn.items, other.id ≠ item.id

section
variable {deps : Externals} {items done rest : List (Text × RolloutItem)}

lemma mem_calls_append_left {call : Address × Text} (h : call ∈ calls deps done) :
    call ∈ calls deps (done ++ rest) := by
  rw [calls, List.filterMap_append]
  exact List.mem_append_left _ h

lemma mem_calls_of_upserts {entry : Text × RolloutItem} {address : Address} {item : ThreadItem}
    (h : entry.2.upserts deps = some (address, item)) :
    (address, item.id) ∈ calls deps (done ++ [entry]) := by
  rw [calls, List.mem_filterMap]
  exact ⟨entry, by simp, by rw [h]; rfl⟩

lemma startedIds_append :
    startedIds (done ++ rest) = startedIds done ++ startedIds rest := List.filterMap_append

lemma hookPromptIds_append :
    hookPromptIds deps (done ++ rest) = hookPromptIds deps done ++ hookPromptIds deps rest :=
  List.filterMap_append

lemma DistinctIds.of_append (h : DistinctIds deps (done ++ rest)) : DistinctIds deps done := by
  have hstarted := h.started
  have hprompts := h.prompts
  rw [startedIds_append] at hstarted
  rw [hookPromptIds_append] at hprompts
  have hprompt : ∀ id ∈ hookPromptIds deps done, id ∈ hookPromptIds deps (done ++ rest) := by
    intro id hid
    rw [hookPromptIds_append]
    exact List.mem_append_left _ hid
  refine ⟨hstarted.of_append_left, ?_, ?_, ?_, hprompts.of_append_left, ?_, ?_⟩
  · intro turnId hturn
    apply h.startedForm
    rw [startedIds_append]
    exact List.mem_append_left _ hturn
  · exact fun call hcall => h.callForm call (mem_calls_append_left hcall)
  · exact fun call hcall other hother =>
      h.callTurn call (mem_calls_append_left hcall) other (mem_calls_append_left hother)
  · exact fun id hid => h.promptForm id (hprompt id hid)
  · exact fun id hid call hcall => h.promptCall id (hprompt id hid) call (mem_calls_append_left hcall)

lemma CallsStayInTurn.of_append (h : CallsStayInTurn deps (done ++ rest)) :
    CallsStayInTurn deps done := by
  intro before entry after heq
  apply h before entry (after ++ rest)
  rw [heq, List.append_assoc, List.cons_append]

end

/-! ## Generated ids -/

lemma itemId_injective : Function.Injective itemId := by
  intro m n h
  exact Text.toDigits_injective (List.append_cancel_left h)

lemma rolloutId_injective : Function.Injective rolloutId := by
  intro m n h
  exact Text.toDigits_injective (List.append_cancel_left h)

/-! ## What is kept of the ids -/

/-- The id of a turn and the ids of its items. -/
def Turn.outline (turn : Turn) : Text × List Text := (turn.id, turn.items.map ThreadItem.id)

/-- Where the id of an item comes from. -/
def Origin (deps : Externals) (done : List (Text × RolloutItem)) (turnId id : Text) : Prop :=
  (∃ n, id = itemId n) ∨ id ∈ hookPromptIds deps done ∨
    ∃ address, (address, id) ∈ calls deps done ∧ ∀ t, address = .turn t → turnId = t

/-- The ids of the turns and items, after some items of a rollout. -/
structure IdsKept (deps : Externals) (done : List (Text × RolloutItem)) (bound : ℕ)
    (outlines : List (Text × List Text)) (next : ℕ) : Prop where
  turnIds : (outlines.map Prod.fst).Nodup
  turnOrigin : ∀ turnId ∈ outlines.map Prod.fst,
    turnId ∈ startedIds done ∨ ∃ n < bound, turnId = rolloutId n
  numbered : Numbered itemId (outlines.map Prod.snd) next
  itemOrigin : ∀ outline ∈ outlines, ∀ id ∈ outline.2, Origin deps done outline.1 id

namespace IdsKept

variable {deps : Externals} {done : List (Text × RolloutItem)} {bound next : ℕ}
  {outlines before after : List (Text × List Text)} {turnId : Text} {ids : List Text}

lemma mono (h : IdsKept deps done bound outlines next) (rest : List (Text × RolloutItem))
    {bound' : ℕ} (hbound : bound ≤ bound') :
    IdsKept deps (done ++ rest) bound' outlines next := by
  refine ⟨h.turnIds, ?_, h.numbered, ?_⟩
  · intro id hid
    rcases h.turnOrigin id hid with hstarted | ⟨n, hn, hrollout⟩
    · left
      rw [startedIds_append]
      exact List.mem_append_left _ hstarted
    · exact .inr ⟨n, by omega, hrollout⟩
  · intro outline houtline id hid
    rcases h.itemOrigin outline houtline id hid with hgen | hprompt | ⟨address, hcall, haddress⟩
    · exact .inl hgen
    · right; left
      rw [hookPromptIds_append]
      exact List.mem_append_left _ hprompt
    · exact .inr (.inr ⟨address, mem_calls_append_left hcall, haddress⟩)

lemma openTurn (h : IdsKept deps done bound outlines next)
    (hnew : turnId ∉ outlines.map Prod.fst)
    (horigin : turnId ∈ startedIds done ∨ ∃ n < bound, turnId = rolloutId n) :
    IdsKept deps done bound (outlines ++ [(turnId, [])]) next := by
  refine ⟨?_, ?_, ?_, ?_⟩
  · rw [List.map_append, List.nodup_append]
    refine ⟨h.turnIds, by simp, ?_⟩
    intro a ha b hb heq
    rw [List.map_singleton, List.mem_singleton, ← heq] at hb
    obtain rfl : a = turnId := hb
    exact hnew ha
  · intro id hid
    rw [List.map_append, List.mem_append] at hid
    rcases hid with hid | hid
    · exact h.turnOrigin id hid
    · rw [List.map_singleton, List.mem_singleton] at hid
      rw [hid]
      exact horigin
  · rw [List.map_append]
    exact h.numbered.open
  · intro outline houtline id hid
    rcases List.mem_append.mp houtline with hold | hlast
    · exact h.itemOrigin outline hold id hid
    · rw [List.mem_singleton.mp hlast] at hid
      cases hid

lemma of_change (h : IdsKept deps done bound (before ++ (turnId, ids) :: after) next)
    {ids' : List Text} {next' : ℕ}
    (hnumbered : Numbered itemId (before.map Prod.snd ++ ids' :: after.map Prod.snd) next')
    (horigin : ∀ id ∈ ids', id ∈ ids ∨ Origin deps done turnId id) :
    IdsKept deps done bound (before ++ (turnId, ids') :: after) next' := by
  have hfst : (before ++ (turnId, ids') :: after).map Prod.fst =
      (before ++ (turnId, ids) :: after).map Prod.fst := by simp
  refine ⟨hfst ▸ h.turnIds, hfst ▸ h.turnOrigin, ?_, ?_⟩
  · rw [List.map_append, List.map_cons]
    exact hnumbered
  · intro outline houtline id hid
    rcases List.mem_append.mp houtline with hold | hold
    · exact h.itemOrigin outline (List.mem_append_left _ hold) id hid
    rcases List.mem_cons.mp hold with rfl | hold
    · rcases horigin id hid with hin | hnew
      · exact h.itemOrigin (turnId, ids) (by simp) id hin
      · exact hnew
    · exact h.itemOrigin outline
        (List.mem_append_right _ (List.mem_cons_of_mem _ hold)) id hid

lemma join (h : IdsKept deps done bound (before ++ (turnId, ids) :: after) next) {id : Text}
    (hnew : ∀ outline ∈ before ++ (turnId, ids) :: after, id ∉ outline.2)
    (hform : ∀ n, id ≠ itemId n) (horigin : Origin deps done turnId id) :
    IdsKept deps done bound (before ++ (turnId, ids ++ [id]) :: after) next := by
  have hnumbered := h.numbered
  rw [List.map_append, List.map_cons] at hnumbered
  refine h.of_change (hnumbered.join ?_ hform) ?_
  · rw [List.mem_flatten]
    rintro ⟨group, hgroup, hid⟩
    have hmap : before.map Prod.snd ++ ids :: after.map Prod.snd =
        (before ++ (turnId, ids) :: after).map Prod.snd := by simp
    rw [hmap] at hgroup
    obtain ⟨outline, houtline, rfl⟩ := List.mem_map.mp hgroup
    exact hnew outline houtline hid
  · intro other hother
    rcases List.mem_append.mp hother with hin | hlast
    · exact .inl hin
    · rw [List.mem_singleton.mp hlast]
      exact .inr horigin

lemma drawNext (h : IdsKept deps done bound (before ++ [(turnId, ids)]) next) :
    IdsKept deps done bound (before ++ [(turnId, ids ++ [itemId next])]) (next + 1) := by
  have hnumbered := h.numbered
  rw [List.map_append, List.map_cons, List.map_nil] at hnumbered
  refine h.of_change (hnumbered.drawNext itemId_injective) ?_
  intro id hid
  rcases List.mem_append.mp hid with hin | hlast
  · exact .inl hin
  · rw [List.mem_singleton.mp hlast]
    exact .inr (.inl ⟨next, rfl⟩)

lemma truncate (h : IdsKept deps done bound outlines next) (k : ℕ) :
    IdsKept deps done bound (outlines.take k)
      (((outlines.take k).map Prod.snd).flatten.length + 1) := by
  refine ⟨?_, ?_, ?_, ?_⟩
  · rw [List.map_take]
    exact h.turnIds.sublist (List.take_sublist _ _)
  · intro id hid
    rw [List.map_take] at hid
    exact h.turnOrigin id (List.mem_of_mem_take hid)
  · rw [List.map_take]
    exact h.numbered.truncate k
  · exact fun outline houtline => h.itemOrigin outline (List.mem_of_mem_take houtline)

end IdsKept

/-! ## Turns and their ids -/

lemma map_id_upsertTurnItem (items : List ThreadItem) (item : ThreadItem) :
    item.id ∈ items.map ThreadItem.id ∧
        (upsertTurnItem items item).map ThreadItem.id = items.map ThreadItem.id ∨
      item.id ∉ items.map ThreadItem.id ∧
        (upsertTurnItem items item).map ThreadItem.id = items.map ThreadItem.id ++ [item.id] := by
  unfold upsertTurnItem
  cases h : modifyFirst (fun existing => decide (existing.id = item.id)) (fun _ => item) items with
  | none =>
    right
    have hnone := modifyFirst_eq_none.mp h
    refine ⟨?_, by simp⟩
    intro hin
    obtain ⟨existing, hexisting, heq⟩ := List.mem_map.mp hin
    exact of_decide_eq_false (hnone existing hexisting) heq
  | some changed =>
    left
    obtain ⟨before, old, after, rfl, rfl, hold, -⟩ := modifyFirst_eq_some h
    have heq : old.id = item.id := of_decide_eq_true hold
    simp [heq]

lemma map_outline_modifyFirst {turns turns' : List Turn} {select : Turn → Bool}
    {change : Turn → Turn} (h : modifyFirst select change turns = some turns')
    (hchange : ∀ turn, (change turn).outline = turn.outline) :
    turns'.map Turn.outline = turns.map Turn.outline := by
  obtain ⟨before, turn, after, rfl, rfl, -, -⟩ := modifyFirst_eq_some h
  simp [hchange]

variable {event : EventMsg}

namespace ThreadHistoryBuilder

variable {builder : ThreadHistoryBuilder} {uuid : Text}

/-- The ids of all turns and their items. -/
def outlines (builder : ThreadHistoryBuilder) : List (Text × List Text) :=
  builder.allTurns.map Turn.outline

lemma outlines_changeTurn (change : PendingTurn → PendingTurn) :
    (builder.changeTurn uuid change).outlines =
      builder.turns.map Turn.outline ++ [(change (builder.ensureTurn uuid)).outline] := by
  simp [outlines, allTurns, changeTurn]

lemma KeepsOpenTurn.outlines_finishCurrentTurn (h : builder.KeepsOpenTurn) :
    builder.finishCurrentTurn.outlines = builder.outlines := by
  unfold outlines
  rw [← h.finishCurrentTurn_turns, allTurns, finishCurrentTurn_currentTurn]
  simp

lemma outlines_changeActiveTurn {change : Turn → Turn}
    (hchange : ∀ turn, (change turn).outline = turn.outline) :
    (builder.changeActiveTurn change).outlines = builder.outlines := by
  unfold outlines allTurns changeActiveTurn
  cases builder.currentTurn with
  | none => rfl
  | some turn => simp [mapTurn, hchange]

@[simp]
lemma finishCurrentTurn_nextItemIndex :
    builder.finishCurrentTurn.nextItemIndex = builder.nextItemIndex := by
  unfold finishCurrentTurn
  split
  · rfl
  · split <;> rfl

@[simp]
lemma finishCurrentTurn_currentRolloutIndex :
    builder.finishCurrentTurn.currentRolloutIndex = builder.currentRolloutIndex := by
  unfold finishCurrentTurn
  split
  · rfl
  · split <;> rfl

@[simp]
lemma finishCurrentTurn_nextRolloutIndex :
    builder.finishCurrentTurn.nextRolloutIndex = builder.nextRolloutIndex := by
  unfold finishCurrentTurn
  split
  · rfl
  · split <;> rfl

/-- An item goes to the turn of its id, or nowhere. -/
lemma upsertItemInTurnId_cases (builder : ThreadHistoryBuilder) (turnId : Text)
    (item : ThreadItem) :
    builder.upsertItemInTurnId turnId item = builder ∨
      ∃ before turn after, builder.allTurns = before ++ turn :: after ∧ turn.id = turnId ∧
        (builder.upsertItemInTurnId turnId item).allTurns =
          before ++ { turn with items := upsertTurnItem turn.items item } :: after ∧
        (builder.upsertItemInTurnId turnId item).nextItemIndex = builder.nextItemIndex := by
  unfold upsertItemInTurnId
  split
  · next turn hturn =>
    rw [Option.filter_eq_some_iff] at hturn
    refine .inr ⟨builder.turns, turn.toTurn, [], ?_, of_decide_eq_true hturn.2, ?_, rfl⟩
    · simp [allTurns, hturn.1]
    · simp [allTurns, upsert, mapTurn]
  · split
    · next turns hturns =>
      obtain ⟨before, turn, after, heq, rfl, hid, -⟩ := modifyFirst_eq_some hturns
      refine .inr ⟨before, turn, after ++ (builder.currentTurn.map toTurn).toList, ?_,
        of_decide_eq_true hid, ?_, rfl⟩
      · rw [allTurns, heq, List.append_assoc, List.cons_append]
      · rw [allTurns, List.append_assoc, List.cons_append]
    · exact .inl rfl

lemma outlines_handleTurnAborted (turnId : Option Text) (completedAt durationMs : Option ℤ) :
    (builder.handleTurnAborted turnId completedAt durationMs).outlines = builder.outlines := by
  have hactive : (builder.changeActiveTurn (·.applyAbort completedAt durationMs)).outlines =
      builder.outlines := outlines_changeActiveTurn fun _ => rfl
  unfold handleTurnAborted
  split
  · split
    · exact hactive
    split
    · next turns hturns =>
      unfold outlines allTurns
      rw [List.map_append, List.map_append,
        map_outline_modifyFirst hturns fun _ => rfl]
    · exact hactive
  · exact hactive

lemma KeepsOpenTurn.outlines_handleTurnComplete (h : builder.KeepsOpenTurn) (turnId : Text)
    (completedAt durationMs : Option ℤ) :
    (builder.handleTurnComplete turnId completedAt durationMs).outlines = builder.outlines := by
  have hactive : (builder.changeActiveTurn
      (·.markCompleted completedAt durationMs)).finishCurrentTurn.outlines = builder.outlines := by
    rw [(h.changeActiveTurn (·.markCompleted completedAt durationMs)
      fun _ => rfl).outlines_finishCurrentTurn]
    exact outlines_changeActiveTurn fun _ => rfl
  unfold ThreadHistoryBuilder.handleTurnComplete
  split
  · exact hactive
  split
  · next turns hturns =>
    unfold outlines allTurns
    rw [List.map_append, List.map_append, map_outline_modifyFirst hturns fun _ => rfl]
  · exact hactive

/-! ## One rollout item -/

section
variable {deps : Externals} {done : List (Text × RolloutItem)}

/-- The turn that `ensure_turn` opens has the id of the rollout item at hand. -/
lemma idsKept_opened {bound : ℕ} (h : IdsKept deps done bound builder.outlines builder.nextItemIndex)
    (hbound : bound ≤ builder.currentRolloutIndex) (hrollout : builder.nextRolloutIndex ≠ 0)
    (hstarted : ∀ turnId ∈ startedIds done, ∀ n, turnId ≠ rolloutId n) (uuid : Text) :
    IdsKept deps done (builder.currentRolloutIndex + 1)
      (builder.turns.map Turn.outline ++ [(builder.ensureTurn uuid).outline])
      builder.nextItemIndex := by
  have hmono : IdsKept deps done (builder.currentRolloutIndex + 1) builder.outlines
      builder.nextItemIndex := by
    have := h.mono [] (Nat.le_succ_of_le hbound)
    rwa [List.append_nil] at this
  cases hcurrent : builder.currentTurn with
  | some turn =>
    have heq : builder.turns.map Turn.outline ++ [(builder.ensureTurn uuid).outline] =
        builder.outlines := by
      simp [outlines, allTurns, ensureTurn, hcurrent]
    rw [heq]
    exact hmono
  | none =>
    have hturns : builder.outlines = builder.turns.map Turn.outline := by
      simp [outlines, allTurns, hcurrent]
    have hnew : (builder.ensureTurn uuid).outline =
        (rolloutId builder.currentRolloutIndex, []) := by
      simp [ensureTurn, hcurrent, newTurn, Turn.outline, hrollout]
    rw [hnew, ← hturns]
    refine hmono.openTurn ?_ (.inr ⟨_, Nat.lt_succ_self _, rfl⟩)
    intro hin
    rcases h.turnOrigin _ hin with hold | ⟨n, hn, heq⟩
    · exact hstarted _ hold _ rfl
    · have := rolloutId_injective heq
      omega

/-- The state of the loop before a rollout item, with the item's place already counted. -/
structure AtItem (deps : Externals) (done : List (Text × RolloutItem)) (entry : Text × RolloutItem)
    (builder : ThreadHistoryBuilder) : Prop where
  kept : IdsKept deps done done.length builder.outlines builder.nextItemIndex
  keeps : builder.KeepsOpenTurn
  current : builder.currentRolloutIndex = done.length
  next : builder.nextRolloutIndex = done.length + 1
  distinct : DistinctIds deps (done ++ [entry])

/-- What a rollout item leaves behind. -/
abbrev IdsAfter (deps : Externals) (done : List (Text × RolloutItem)) (entry : Text × RolloutItem)
    (builder : ThreadHistoryBuilder) : Prop :=
  IdsKept deps (done ++ [entry]) (done.length + 1) builder.outlines builder.nextItemIndex

namespace AtItem

variable {entry : Text × RolloutItem}

section

variable (h : AtItem deps done entry builder)
include h

lemma same {after : ThreadHistoryBuilder}
    (houtlines : after.outlines = builder.outlines)
    (hnext : after.nextItemIndex = builder.nextItemIndex) : IdsAfter deps done entry after := by
  unfold IdsAfter
  rw [houtlines, hnext]
  exact h.kept.mono [entry] (Nat.le_succ _)

/-- The turn that `ensure_turn` gives, before anything is put into it. -/
lemma opened (uuid : Text) :
    IdsKept deps done (done.length + 1)
      (builder.turns.map Turn.outline ++ [(builder.ensureTurn uuid).outline])
      builder.nextItemIndex := by
  have hopened := idsKept_opened h.kept h.current.ge (by rw [h.next]; exact Nat.succ_ne_zero _)
    h.distinct.of_append.startedForm uuid
  rwa [h.current] at hopened

lemma changeTurn_same {change : PendingTurn → PendingTurn}
    (hchange : (change (builder.ensureTurn uuid)).outline = (builder.ensureTurn uuid).outline) :
    IdsAfter deps done entry (builder.changeTurn uuid change) := by
  unfold IdsAfter
  rw [outlines_changeTurn, hchange]
  exact (h.opened uuid).mono [entry] (Nat.le_refl _)

lemma pushNextItem {item : Text → ThreadItem}
    (hid : ∀ id, (item id).id = id) :
    IdsAfter deps done entry (builder.pushNextItem uuid item) := by
  have hdrawn := ((h.opened uuid).mono [entry] (Nat.le_refl _)).drawNext
  unfold IdsAfter ThreadHistoryBuilder.pushNextItem
  rw [outlines_changeTurn]
  have houtline : ((builder.ensureTurn uuid).push (item (itemId builder.nextItemIndex))).outline =
      ((builder.ensureTurn uuid).id,
        (builder.ensureTurn uuid).items.map ThreadItem.id ++ [itemId builder.nextItemIndex]) := by
    simp [push, mapTurn, Turn.outline, hid]
  show IdsKept deps (done ++ [entry]) (done.length + 1) (builder.turns.map Turn.outline ++
    [((builder.ensureTurn uuid).push (item (itemId builder.nextItemIndex))).outline])
    (builder.nextItemIndex + 1)
  rw [houtline]
  exact hdrawn

lemma handleUserMessage (message : Text)
    (images : Option (List Text)) (localImages textElements : List Text) :
    IdsAfter deps done entry
      (builder.handleUserMessage uuid message images localImages textElements) := by
  have hfinished : AtItem deps done entry builder.finishCurrentTurn := by
    refine ⟨?_, .of_none finishCurrentTurn_currentTurn, ?_, ?_, h.distinct⟩
    · rw [h.keeps.outlines_finishCurrentTurn, finishCurrentTurn_nextItemIndex]
      exact h.kept
    · rw [finishCurrentTurn_currentRolloutIndex, h.current]
    · rw [finishCurrentTurn_nextRolloutIndex, h.next]
  unfold ThreadHistoryBuilder.handleUserMessage
  split
  · split
    · exact hfinished.pushNextItem fun _ => rfl
    · exact h.pushNextItem fun _ => rfl
  · exact h.pushNextItem fun _ => rfl

lemma handleReasoning (text : Text)
    (add : List Text → List Text → List Text × List Text) :
    IdsAfter deps done entry (builder.handleReasoning uuid text add) := by
  unfold ThreadHistoryBuilder.handleReasoning
  split
  · exact h.same rfl rfl
  split
  · next id summary content hlast =>
    -- the last item keeps its id
    refine h.changeTurn_same ?_
    obtain ⟨before, hitems⟩ := List.getLast?_eq_some_iff.mp hlast
    simp [mapTurn, Turn.outline, hitems, ThreadItem.id]
  · exact h.pushNextItem fun _ => rfl

lemma handleTurnStarted (turnId : Text)
    (startedAt : Option ℤ) (hentry : entry.2.startedId = some turnId) :
    IdsAfter deps done entry (builder.handleTurnStarted turnId startedAt) := by
  have hstarted : startedIds (done ++ [entry]) = startedIds done ++ [turnId] := by
    rw [startedIds_append]
    simp [startedIds, hentry]
  have houtlines : (builder.handleTurnStarted turnId startedAt).outlines =
      builder.outlines ++ [(turnId, [])] := by
    rw [← h.keeps.outlines_finishCurrentTurn]
    simp [ThreadHistoryBuilder.handleTurnStarted, outlines, allTurns, newTurn, Turn.outline]
  have hnext : (builder.handleTurnStarted turnId startedAt).nextItemIndex =
      builder.nextItemIndex := finishCurrentTurn_nextItemIndex
  unfold IdsAfter
  rw [houtlines, hnext]
  refine (h.kept.mono [entry] (Nat.le_succ _)).openTurn ?_ (.inl (by rw [hstarted]; simp))
  intro hin
  rcases h.kept.turnOrigin turnId hin with hold | ⟨n, -, heq⟩
  · have hnodup := h.distinct.started
    rw [hstarted, List.nodup_append] at hnodup
    exact hnodup.2.2 turnId hold turnId (by simp) rfl
  · exact h.distinct.startedForm turnId (by rw [hstarted]; simp) n heq

lemma handleThreadRollback (numTurns : ℕ) :
    IdsAfter deps done entry (builder.handleThreadRollback numTurns) := by
  obtain ⟨k, hk⟩ : ∃ k, (if numTurns ≥ builder.finishCurrentTurn.turns.length then []
      else builder.finishCurrentTurn.turns.take
        (builder.finishCurrentTurn.turns.length - numTurns)) = builder.allTurns.take k := by
    rw [← h.keeps.finishCurrentTurn_turns]
    split
    · exact ⟨0, by simp⟩
    · exact ⟨_, rfl⟩
  have houtlines : (builder.handleThreadRollback numTurns).outlines =
      builder.outlines.take k := by
    unfold ThreadHistoryBuilder.handleThreadRollback outlines
    rw [allTurns]
    dsimp only
    rw [hk, finishCurrentTurn_currentTurn, ← List.map_take]
    simp
  have hnext : (builder.handleThreadRollback numTurns).nextItemIndex =
      ((builder.outlines.take k).map Prod.snd).flatten.length + 1 := by
    unfold ThreadHistoryBuilder.handleThreadRollback outlines
    dsimp only
    rw [hk, ← List.map_take, List.map_map, List.length_flatten, List.map_map]
    simp [Function.comp_def, Turn.outline]
  unfold IdsAfter
  rw [houtlines, hnext]
  exact (h.kept.truncate k).mono [entry] (Nat.le_succ _)

variable {item : ThreadItem}

lemma pushHookPrompt (hentry : entry.2.hookPrompt deps entry.1 = some item) :
    IdsAfter deps done entry (builder.changeTurn uuid (·.push item)) := by
  have hids : hookPromptIds deps (done ++ [entry]) = hookPromptIds deps done ++ [item.id] := by
    rw [hookPromptIds_append]
    simp [hookPromptIds, hentry]
  have hprompt : item.id ∈ hookPromptIds deps (done ++ [entry]) := by
    rw [hids]
    simp
  have hopened := h.opened uuid
  have houtline : ((builder.ensureTurn uuid).push item).outline =
      ((builder.ensureTurn uuid).id,
        (builder.ensureTurn uuid).items.map ThreadItem.id ++ [item.id]) := by
    simp [push, mapTurn, Turn.outline]
  unfold IdsAfter
  rw [outlines_changeTurn, houtline]
  refine (hopened.mono [entry] (Nat.le_refl _)).join ?_ (h.distinct.promptForm _ hprompt)
    (.inr (.inl hprompt))
  intro outline houtline hin
  rcases hopened.itemOrigin outline houtline _ hin with ⟨n, hgen⟩ | hold | ⟨address, hcall, -⟩
  · exact h.distinct.promptForm _ hprompt n hgen
  · have hnodup := h.distinct.prompts
    rw [hids, List.nodup_append] at hnodup
    exact hnodup.2.2 _ hold _ (by simp) rfl
  · exact h.distinct.promptCall _ hprompt _ (mem_calls_append_left hcall) rfl

lemma not_mem_of_turn_ne {turnId : Text}
    (hentry : entry.2.upserts deps = some (.turn turnId, item)) {outline : Text × List Text}
    (houtline : outline ∈ builder.outlines) (hne : outline.1 ≠ turnId) : item.id ∉ outline.2 := by
  have hcall : (turn turnId, item.id) ∈ calls deps (done ++ [entry]) :=
    mem_calls_of_upserts hentry
  intro hin
  rcases h.kept.itemOrigin outline houtline _ hin with ⟨n, hgen⟩ | hprompt | ⟨address, hold, hturn⟩
  · exact h.distinct.callForm _ hcall n hgen
  · refine h.distinct.promptCall item.id ?_ _ hcall rfl
    rw [hookPromptIds_append]
    exact List.mem_append_left _ hprompt
  · have haddress := h.distinct.callTurn _ (mem_calls_append_left hold) _ hcall rfl
    exact hne (hturn turnId haddress)

lemma upsertItemInTurnId {turnId : Text}
    (hentry : entry.2.upserts deps = some (.turn turnId, item)) :
    IdsAfter deps done entry (builder.upsertItemInTurnId turnId item) := by
  have hcall : (turn turnId, item.id) ∈ calls deps (done ++ [entry]) :=
    mem_calls_of_upserts hentry
  rcases upsertItemInTurnId_cases builder turnId item with heq |
    ⟨before, turn, after, hall, hid, hafter, hnext⟩
  · rw [heq]
    exact h.same rfl rfl
  have hold : builder.outlines = before.map Turn.outline ++
      (turnId, turn.items.map ThreadItem.id) :: after.map Turn.outline := by
    rw [outlines, hall, List.map_append, List.map_cons, Turn.outline, hid]
  rcases map_id_upsertTurnItem turn.items item with ⟨-, hids⟩ | ⟨hnot, hids⟩
  · refine h.same ?_ hnext
    rw [outlines, outlines, hafter, hall]
    simp [Turn.outline, hids]
  · have hnew : (builder.upsertItemInTurnId turnId item).outlines = before.map Turn.outline ++
        (turnId, turn.items.map ThreadItem.id ++ [item.id]) :: after.map Turn.outline := by
      rw [outlines, hafter, List.map_append, List.map_cons]
      simp [Turn.outline, hids, hid]
    have hkept := h.kept.mono [entry] (Nat.le_succ _)
    have hturnIds := h.kept.turnIds
    rw [hold] at hkept hturnIds
    unfold IdsAfter
    rw [hnew, hnext]
    refine hkept.join ?_ (h.distinct.callForm _ hcall)
      (.inr (.inr ⟨_, hcall, fun t ht => Address.turn.inj ht⟩))
    intro outline houtline
    by_cases hturn : outline.1 = turnId
    · -- ids of turns are different, so this is the turn itself
      have hthis := List.inj_on_of_nodup_map hturnIds houtline
        (List.mem_append_right _ List.mem_cons_self) hturn
      rw [hthis]
      exact hnot
    · exact h.not_mem_of_turn_ne hentry (hold ▸ houtline) hturn

lemma upsertItemInCurrentTurn (hentry : entry.2.upserts deps = some (.current, item))
    (hclosed : ∀ turn ∈ builder.turns, ∀ other ∈ turn.items, other.id ≠ item.id) :
    IdsAfter deps done entry (builder.upsertItemInCurrentTurn uuid item) := by
  have hcall : (Address.current, item.id) ∈ calls deps (done ++ [entry]) :=
    mem_calls_of_upserts hentry
  rcases map_id_upsertTurnItem (builder.ensureTurn uuid).items item with ⟨-, hids⟩ | ⟨hnot, hids⟩
  · refine h.changeTurn_same ?_
    simp [upsert, mapTurn, Turn.outline, hids]
  have houtline : ((builder.ensureTurn uuid).upsert item).outline =
      ((builder.ensureTurn uuid).id,
        (builder.ensureTurn uuid).items.map ThreadItem.id ++ [item.id]) := by
    simp [upsert, mapTurn, Turn.outline, hids]
  unfold IdsAfter ThreadHistoryBuilder.upsertItemInCurrentTurn
  rw [outlines_changeTurn, houtline]
  refine ((h.opened uuid).mono [entry] (Nat.le_refl _)).join ?_
    (h.distinct.callForm _ hcall) (.inr (.inr ⟨_, hcall, fun _ heq => (by cases heq)⟩))
  intro outline hin
  rcases List.mem_append.mp hin with hin | hin
  · obtain ⟨turn, hturn, rfl⟩ := List.mem_map.mp hin
    intro hid
    obtain ⟨other, hother, heq⟩ := List.mem_map.mp hid
    exact hclosed turn hturn other hother heq
  · rw [List.mem_singleton.mp hin]
    exact hnot

end

/-- Every event keeps the ids different. -/
lemma handleEvent (h : AtItem deps done (uuid, .eventMsg event) builder)
    (hclosed : ∀ item, event.upserts deps = some (.current, item) →
      ∀ turn ∈ builder.turns, ∀ other ∈ turn.items, other.id ≠ item.id) :
    IdsAfter deps done (uuid, .eventMsg event) (builder.handleEvent deps uuid event) := by
  rcases handleEvent_cases deps uuid builder event with
    ⟨address, item, hupserts, heq⟩ | ⟨-, hmarks⟩
  · rw [heq]
    cases address with
    | current => exact h.upsertItemInCurrentTurn hupserts (hclosed item hupserts)
    | turn turnId => exact h.upsertItemInTurnId hupserts
  · generalize builder.handleEvent deps uuid event = result at hmarks ⊢
    cases hmarks with
    | nothing => exact h.same rfl rfl
    | user message images localImages textElements => exact h.handleUserMessage ..
    | pushNextItem item hid hturn => exact h.pushNextItem hid
    | reasoning text add hturn => exact h.handleReasoning text add
    | error message info =>
      unfold handleError
      split
      · exact h.same (outlines_changeActiveTurn fun _ => rfl) rfl
      · exact h.same rfl rfl
    | rollback numTurns => exact h.handleThreadRollback numTurns
    | aborted turnId completedAt durationMs =>
      refine h.same (outlines_handleTurnAborted turnId completedAt durationMs) ?_
      unfold handleTurnAborted
      repeat' split
      all_goals rfl
    | started turnId startedAt => exact h.handleTurnStarted turnId startedAt rfl
    | complete turnId completedAt durationMs =>
      refine h.same (h.keeps.outlines_handleTurnComplete turnId completedAt durationMs) ?_
      unfold handleTurnComplete
      repeat' split
      · exact finishCurrentTurn_nextItemIndex
      · rfl
      · exact finishCurrentTurn_nextItemIndex

lemma handleResponseItem {item : ResponseItem}
    (h : AtItem deps done (uuid, .responseItem item) builder) :
    IdsAfter deps done (uuid, .responseItem item) (builder.handleResponseItem deps uuid item) := by
  cases item with
  | message id role content endTurn phase =>
    simp only [ThreadHistoryBuilder.handleResponseItem]
    split
    · exact h.same rfl rfl
    next hrole =>
    split
    · next prompt hprompt =>
      refine h.pushHookPrompt ?_
      simp only [RolloutItem.hookPrompt, if_neg hrole]
      exact hprompt
    · exact h.same rfl rfl
  | _ => exact h.same rfl rfl

end AtItem

end

/-! ## Whole rollouts -/

section

variable (deps : Externals)

@[simp]
lemma handleRolloutItems_snoc (items : List (Text × RolloutItem))
    (entry : Text × RolloutItem) :
    handleRolloutItems deps (items ++ [entry]) =
      (handleRolloutItems deps items).handleRolloutItem deps entry.1 entry.2 := by
  simp [handleRolloutItems]

lemma keepsOpenTurn_handleRolloutItems (items : List (Text × RolloutItem)) :
    (handleRolloutItems deps items).KeepsOpenTurn := by
  induction items using List.reverseRecOn with
  | nil => exact KeepsOpenTurn.new
  | append_singleton items entry ih =>
    rw [handleRolloutItems_snoc]
    exact ih.handleRolloutItem deps entry.1 entry.2

/-- Only the loop over the rollout counts its places. -/
lemma handleEvent_nextRolloutIndex (uuid : Text)
    (builder : ThreadHistoryBuilder) (event : EventMsg) :
    (builder.handleEvent deps uuid event).nextRolloutIndex = builder.nextRolloutIndex := by
  rcases handleEvent_cases deps uuid builder event with ⟨address, item, -, heq⟩ | ⟨-, hmarks⟩
  · rw [heq]
    cases address with
    | current => rfl
    | turn turnId =>
      show (builder.upsertItemInTurnId turnId item).nextRolloutIndex = _
      unfold upsertItemInTurnId
      split
      · rfl
      · split <;> rfl
  · generalize builder.handleEvent deps uuid event = result at hmarks ⊢
    cases hmarks with
    | nothing => rfl
    | user message images localImages textElements =>
      unfold handleUserMessage
      split
      · split
        · exact finishCurrentTurn_nextRolloutIndex
        · rfl
      · rfl
    | pushNextItem item hid hturn => rfl
    | reasoning text add hturn =>
      unfold handleReasoning
      split
      · rfl
      · split <;> rfl
    | error message info =>
      unfold handleError
      split <;> rfl
    | rollback numTurns => exact finishCurrentTurn_nextRolloutIndex
    | aborted turnId completedAt durationMs =>
      unfold handleTurnAborted
      repeat' split
      all_goals rfl
    | started turnId startedAt => exact finishCurrentTurn_nextRolloutIndex
    | complete turnId completedAt durationMs =>
      unfold handleTurnComplete
      repeat' split
      · exact finishCurrentTurn_nextRolloutIndex
      · rfl
      · exact finishCurrentTurn_nextRolloutIndex

lemma handleRolloutItem_nextRolloutIndex (uuid : Text)
    (builder : ThreadHistoryBuilder) (item : RolloutItem) :
    (builder.handleRolloutItem deps uuid item).nextRolloutIndex = builder.nextRolloutIndex + 1 := by
  cases item with
  | eventMsg event => exact handleEvent_nextRolloutIndex deps uuid _ event
  | responseItem item =>
    simp only [handleRolloutItem]
    unfold handleResponseItem
    split
    · split
      · rfl
      · split <;> rfl
    · rfl
  | _ => rfl

lemma nextRolloutIndex_handleRolloutItems (items : List (Text × RolloutItem)) :
    (handleRolloutItems deps items).nextRolloutIndex = items.length := by
  induction items using List.reverseRecOn with
  | nil => rfl
  | append_singleton items entry ih =>
    rw [handleRolloutItems_snoc, handleRolloutItem_nextRolloutIndex, ih, List.length_append]
    rfl

end

/-- One more item of the rollout keeps the ids. -/
lemma idsAfter_handleRolloutItem {deps : Externals} {done : List (Text × RolloutItem)}
    {entry : Text × RolloutItem}
    (h : IdsKept deps done done.length (handleRolloutItems deps done).outlines
      (handleRolloutItems deps done).nextItemIndex)
    (hdistinct : DistinctIds deps (done ++ [entry]))
    (hcalls : CallsStayInTurn deps (done ++ [entry])) :
    IdsAfter deps done entry (handleRolloutItems deps (done ++ [entry])) := by
  have hclosed := hcalls done entry [] rfl
  have hindex := nextRolloutIndex_handleRolloutItems deps done
  have hkeeps := keepsOpenTurn_handleRolloutItems deps done
  rw [handleRolloutItems_snoc]
  generalize handleRolloutItems deps done = builder at h hclosed hindex hkeeps ⊢
  obtain ⟨uuid, item⟩ := entry
  have hat : AtItem deps done (uuid, item) builder.countRolloutItem :=
    ⟨h, hkeeps, hindex, by rw [countRolloutItem, hindex], hdistinct⟩
  cases item with
  | eventMsg event => exact hat.handleEvent hclosed
  | compacted item => exact hat.changeTurn_same rfl
  | responseItem item => exact hat.handleResponseItem
  | turnContext item | sessionMeta => exact hat.same rfl rfl

lemma idsKept_handleRolloutItems {deps : Externals} {items : List (Text × RolloutItem)}
    (hdistinct : DistinctIds deps items) (hcalls : CallsStayInTurn deps items) :
    IdsKept deps items items.length (handleRolloutItems deps items).outlines
      (handleRolloutItems deps items).nextItemIndex := by
  induction items using List.reverseRecOn with
  | nil => exact ⟨by simp [outlines, allTurns, handleRolloutItems, new],
      by simp [outlines, allTurns, handleRolloutItems, new], Numbered.nil,
      by simp [outlines, allTurns, handleRolloutItems, new]⟩
  | append_singleton items entry ih =>
    have hafter := idsAfter_handleRolloutItem (ih hdistinct.of_append hcalls.of_append) hdistinct
      hcalls
    rw [List.length_append]
    exact hafter

end ThreadHistoryBuilder

/-! ## Events for one turn -/

/-- Does the event end a turn? -/
def EventMsg.endsTurn : EventMsg → Bool
  | .turnAborted _ _ _ | .turnComplete _ _ _ => true
  | _ => false

lemma Address.ofTurnId_eq {turnId turnId' : Text}
    (h : (if turnId = [] then none else some turnId) = some turnId') :
    ofTurnId turnId = .turn turnId' := by
  unfold ofTurnId
  split at h
  · cases h
  · next hne =>
    rw [if_neg hne, Option.some.inj h]

lemma EventMsg.address_of_upserts {deps : Externals} {turnId : Text}
    {address : Address} {item : ThreadItem} (hturn : event.turnId = some turnId)
    (hupserts : event.upserts deps = some (address, item)) : address = .turn turnId := by
  cases event with
  | execCommandBegin payload | execCommandEnd payload =>
    cases hturn
    cases hupserts
    rfl
  | guardianAssessment payload =>
    obtain ⟨found, -, heq⟩ := Option.map_eq_some_iff.mp hupserts
    cases heq
    exact ofTurnId_eq hturn
  | applyPatchApprovalRequest payload | patchApplyBegin payload | patchApplyEnd payload status
  | dynamicToolCallRequest payload | dynamicToolCallResponse payload =>
    cases hupserts
    exact ofTurnId_eq hturn
  | itemStarted id turnItem | itemCompleted id turnItem =>
    cases hturn
    cases turnItem with
    | plan planId text =>
      simp only [EventMsg.upserts] at hupserts
      split at hupserts
      · cases hupserts
      · cases hupserts
        rfl
    | _ => cases hupserts
  | turnAborted id completedAt durationMs | turnStarted id startedAt => cases hupserts
  | turnComplete id completedAt durationMs => cases hupserts
  | _ => cases hturn

namespace ThreadHistoryBuilder

variable {builder : ThreadHistoryBuilder} {deps : Externals} {uuid turnId : Text}

/-- The turns other than one. -/
def otherTurns (builder : ThreadHistoryBuilder) (turnId : Text) : List Turn :=
  builder.allTurns.filter fun turn => turn.id ≠ turnId

lemma filter_change {before after : List Turn} {turn turn' : Turn} (h : turn.id = turnId)
    (h' : turn'.id = turnId) :
    (before ++ turn' :: after).filter (fun turn => turn.id ≠ turnId) =
      (before ++ turn :: after).filter (fun turn => turn.id ≠ turnId) := by
  simp [List.filter_append, h, h']

lemma KeepsOpenTurn.allTurns_finishCurrentTurn (h : builder.KeepsOpenTurn) :
    builder.finishCurrentTurn.allTurns = builder.allTurns := by
  rw [← h.finishCurrentTurn_turns, allTurns, finishCurrentTurn_currentTurn]
  simp

lemma allTurns_changeActiveTurn (change : Turn → Turn) :
    (builder.changeActiveTurn change).allTurns =
      builder.turns ++ (builder.currentTurn.map fun turn => change turn.toTurn).toList := by
  simp [allTurns, changeActiveTurn, mapTurn, Function.comp_def]

variable {change : Turn → Turn}

lemma otherTurns_changeActiveTurn (hchange : ∀ turn, (change turn).id = turn.id)
    (hactive : (builder.currentTurn.any fun turn => turn.id = turnId) = true) :
    (builder.changeActiveTurn change).otherTurns turnId = builder.otherTurns turnId := by
  unfold otherTurns
  rw [allTurns_changeActiveTurn, allTurns]
  cases hcurrent : builder.currentTurn with
  | none => rfl
  | some turn =>
    rw [hcurrent] at hactive
    have hid : turn.id = turnId := of_decide_eq_true hactive
    exact filter_change hid ((hchange _).trans hid)

lemma otherTurns_modifyFirst {turns : List Turn}
    (h : modifyFirst (fun turn => turn.id = turnId) change builder.turns = some turns)
    (hchange : ∀ turn, (change turn).id = turn.id) :
    { builder with turns := turns }.otherTurns turnId = builder.otherTurns turnId := by
  obtain ⟨before, turn, after, heq, rfl, hid, -⟩ := modifyFirst_eq_some h
  have hid : turn.id = turnId := of_decide_eq_true hid
  unfold otherTurns allTurns
  rw [heq]
  rw [List.append_assoc, List.append_assoc, List.cons_append, List.cons_append]
  exact filter_change hid ((hchange turn).trans hid)

lemma not_mem_of_unknown (hactive : ¬ (builder.currentTurn.any fun turn => turn.id = turnId) = true)
    (h : modifyFirst (fun turn => turn.id = turnId) change builder.turns = none) :
    turnId ∉ builder.allTurns.map Turn.id := by
  intro hin
  obtain ⟨turn, hturn, hid⟩ := List.mem_map.mp hin
  rcases List.mem_append.mp hturn with hclosed | hopen
  · exact of_decide_eq_false (modifyFirst_eq_none.mp h turn hclosed) hid
  · rw [Option.mem_toList, Option.map_eq_some_iff] at hopen
    obtain ⟨pending, hpending, rfl⟩ := hopen
    exact hactive (by rw [hpending]; exact decide_eq_true hid)

/-- An event that names a turn changes only this turn. -/
lemma KeepsOpenTurn.otherTurns_handleEvent (h : builder.KeepsOpenTurn)
    (hturn : event.turnId = some turnId)
    (hknown : event.endsTurn = true → turnId ∈ builder.allTurns.map Turn.id) :
    (builder.handleEvent deps uuid event).otherTurns turnId = builder.otherTurns turnId := by
  rcases handleEvent_cases deps uuid builder event with
    ⟨address, item, hupserts, heq⟩ | ⟨-, hmarks⟩
  · rw [heq, EventMsg.address_of_upserts hturn hupserts]
    show (builder.upsertItemInTurnId turnId item).otherTurns turnId = _
    rcases upsertItemInTurnId_cases builder turnId item with hsame |
      ⟨before, turn, after, hall, hid, hafter, -⟩
    · rw [hsame]
    · rw [otherTurns, otherTurns, hafter, hall]
      exact filter_change hid hid
  · generalize builder.handleEvent deps uuid event = result at hmarks ⊢
    cases hmarks with
    | nothing => rfl
    | user message images localImages textElements => cases hturn
    | pushNextItem item hid hnone | reasoning text add hnone =>
      rw [hnone] at hturn
      cases hturn
    | error message info | rollback numTurns => cases hturn
    | aborted id completedAt durationMs =>
      obtain rfl : id = some turnId := hturn
      unfold ThreadHistoryBuilder.handleTurnAborted
      dsimp only
      split
      · next hactive => exact otherTurns_changeActiveTurn (fun _ => rfl) hactive
      next hactive =>
      split
      · next turns hturns => exact otherTurns_modifyFirst hturns fun _ => rfl
      · next hnone => exact absurd (hknown rfl) (not_mem_of_unknown hactive hnone)
    | started id startedAt =>
      cases hturn
      have hall : (builder.handleTurnStarted turnId startedAt).allTurns = builder.allTurns ++
          [{ builder.finishCurrentTurn.newTurn [] (some turnId) with
            status := .inProgress, startedAt := startedAt, openedExplicitly := true }.toTurn] := by
        rw [← h.finishCurrentTurn_turns]
        rfl
      rw [otherTurns, hall, List.filter_append, otherTurns]
      simp [newTurn]
    | complete id completedAt durationMs =>
      cases hturn
      have hkeeps := h.changeActiveTurn (·.markCompleted completedAt durationMs) fun _ => rfl
      unfold ThreadHistoryBuilder.handleTurnComplete
      split
      · next hactive =>
        rw [otherTurns, hkeeps.allTurns_finishCurrentTurn]
        exact otherTurns_changeActiveTurn (fun _ => rfl) hactive
      · next hactive =>
        split
        · next turns hturns => exact otherTurns_modifyFirst hturns fun _ => rfl
        · next hnone => exact absurd (hknown rfl) (not_mem_of_unknown hactive hnone)

lemma unknown_of_not_mem (h : turnId ∉ builder.allTurns.map Turn.id) (change : Turn → Turn) :
    ¬ (builder.currentTurn.any fun turn => turn.id = turnId) = true ∧
      modifyFirst (fun turn => turn.id = turnId) change builder.turns = none := by
  constructor
  · intro hany
    cases hcurrent : builder.currentTurn with
    | none =>
      rw [hcurrent] at hany
      cases hany
    | some turn =>
      rw [hcurrent] at hany
      refine h (List.mem_map.mpr ⟨turn.toTurn, ?_, of_decide_eq_true hany⟩)
      simp [allTurns, hcurrent]
  · refine modifyFirst_eq_none.mpr fun turn hturn => decide_eq_false fun hid => ?_
    exact h (List.mem_map.mpr ⟨turn, List.mem_append_left _ hturn, hid⟩)

lemma KeepsOpenTurn.handleEvent_unknown (h : builder.KeepsOpenTurn)
    (hends : event.endsTurn = true) (hturn : event.turnId = some turnId)
    (hunknown : turnId ∉ builder.allTurns.map Turn.id) :
    (builder.handleEvent deps uuid event).allTurns.take builder.turns.length = builder.turns ∧
      (builder.handleEvent deps uuid event).outlines = builder.outlines := by
  cases event with
  | turnAborted id completedAt durationMs =>
    obtain rfl : id = some turnId := hturn
    refine ⟨?_, outlines_handleTurnAborted _ completedAt durationMs⟩
    obtain ⟨hactive, hclosed⟩ := unknown_of_not_mem hunknown (·.applyAbort completedAt durationMs)
    have heq : builder.handleTurnAborted (some turnId) completedAt durationMs =
        builder.changeActiveTurn (·.applyAbort completedAt durationMs) := by
      simp only [ThreadHistoryBuilder.handleTurnAborted, if_neg hactive, hclosed]
    show (builder.handleTurnAborted (some turnId) completedAt durationMs).allTurns.take _ = _
    rw [heq, allTurns_changeActiveTurn, List.take_left]
  | turnComplete id completedAt durationMs =>
    cases hturn
    refine ⟨?_, h.outlines_handleTurnComplete turnId completedAt durationMs⟩
    obtain ⟨hactive, hclosed⟩ :=
      unknown_of_not_mem hunknown (·.markCompleted completedAt durationMs)
    have heq : builder.handleTurnComplete turnId completedAt durationMs =
        (builder.changeActiveTurn (·.markCompleted completedAt durationMs)).finishCurrentTurn := by
      simp only [ThreadHistoryBuilder.handleTurnComplete, if_neg hactive, hclosed]
    show (builder.handleTurnComplete turnId completedAt durationMs).allTurns.take _ = _
    rw [heq, (h.changeActiveTurn (·.markCompleted completedAt durationMs)
      fun _ => rfl).allTurns_finishCurrentTurn, allTurns_changeActiveTurn, List.take_left]
  | _ => cases hends

/-- For every rollout whose own ids are different, and whose events without a turn id are for calls of
the open turn: at every point all items have different ids and all turns have different ids; an event
that names a turn changes only this turn, or, when it ends a turn that is not there, only the active
one. -/
theorem ids_stay_distinct (deps : Externals) (items : List (Text × RolloutItem))
    (hdistinct : DistinctIds deps items) (hcalls : CallsStayInTurn deps items) :
    ∀ done rest, items = done ++ rest →
      (((handleRolloutItems deps done).allTurns.flatMap Turn.items).map ThreadItem.id).Nodup ∧
      ((handleRolloutItems deps done).allTurns.map Turn.id).Nodup ∧
      ∀ uuid event turnId, event.turnId = some turnId →
        ((event.endsTurn = true → turnId ∈ (handleRolloutItems deps done).allTurns.map Turn.id) →
          (handleRolloutItems deps (done ++ [(uuid, .eventMsg event)])).otherTurns turnId =
            (handleRolloutItems deps done).otherTurns turnId) ∧
        (event.endsTurn = true → turnId ∉ (handleRolloutItems deps done).allTurns.map Turn.id →
          (handleRolloutItems deps (done ++ [(uuid, .eventMsg event)])).allTurns.take
              (handleRolloutItems deps done).turns.length = (handleRolloutItems deps done).turns ∧
            (handleRolloutItems deps (done ++ [(uuid, .eventMsg event)])).outlines =
              (handleRolloutItems deps done).outlines) := by
  rintro done rest rfl
  have hkept := idsKept_handleRolloutItems hdistinct.of_append hcalls.of_append
  have hkeeps := keepsOpenTurn_handleRolloutItems deps done
  refine ⟨?_, ?_, ?_⟩
  · have hnodup := hkept.numbered.nodup
    rw [outlines, List.map_map, ← List.flatMap_def] at hnodup
    rw [List.map_flatMap]
    exact hnodup
  · have hnodup := hkept.turnIds
    rwa [outlines, List.map_map] at hnodup
  · intro uuid event turnId hturn
    rw [handleRolloutItems_snoc]
    have hnext : (handleRolloutItems deps done).countRolloutItem.KeepsOpenTurn := hkeeps
    exact ⟨hnext.otherTurns_handleEvent hturn,
      fun hends hunknown => hnext.handleEvent_unknown hends hturn hunknown⟩

/-- First characters tell the kinds of ids apart. -/
lemma distinctIds_of_head {items : List (Text × RolloutItem)}
    (hstarted : (startedIds items).Nodup)
    (hform : ∀ turnId ∈ startedIds items, turnId.head? ≠ some 'r')
    (hcalls : ∀ call ∈ calls deps items, call.2.head? ≠ some 'i')
    (hturn : ∀ call ∈ calls deps items, ∀ other ∈ calls deps items, call.2 = other.2 →
      call.1 = other.1)
    (hprompts : hookPromptIds deps items = []) : DistinctIds deps items := by
  refine ⟨hstarted, ?_, ?_, hturn, ?_, ?_, ?_⟩
  · rintro turnId hmem n rfl
    exact hform _ hmem rfl
  · intro call hmem n heq
    exact hcalls call hmem (by rw [heq]; rfl)
  all_goals rw [hprompts]
  · exact List.nodup_nil
  · exact fun id hid => absurd hid (by simp)
  · exact fun id hid => absurd hid (by simp)

/-- A turn that is started under the id of the implicit turn before it. -/
def startedAgain : List (Text × RolloutItem) :=
  [([], .eventMsg (.agentMessage "done".toList none none)), ([], .eventMsg (.turnStarted (rolloutId 0) none))]

/-- The events of one tool call. -/
def toolCallBegin : McpToolCallBeginEvent := ⟨['c'], "server".toList, "tool".toList, none, none⟩

def toolCallEnd : McpToolCallEndEvent := ⟨toolCallBegin, 5, .error "timeout".toList⟩

/-- A patch that is applied in the first turn. -/
def patchInTurn : PatchEvent := ⟨['p'], ['a'], []⟩

/-- The end of the patch, which the second turn has overtaken. -/
def latePatchEnd : EventMsg := .patchApplyEnd patchInTurn .completed

/-- Two turns with a tool call each, a third one that is rolled back, and a message after it. The patch of the first
turn ends during the second. -/
def callsInTurns : List (Text × RolloutItem) :=
  [.turnStarted ['a'] none, .mcpToolCallBegin toolCallBegin, .patchApplyBegin patchInTurn,
    .mcpToolCallEnd toolCallEnd, .turnStarted ['b'] none, .agentMessage "done".toList none none, latePatchEnd,
    .turnStarted ['d'] none, .agentMessage "more".toList none none, .threadRolledBack 1,
    .agentMessage "again".toList none none].map fun event => ([], .eventMsg event)

/-- A tool call that ends when the next turn is open. -/
def lateCallEnd : List (Text × RolloutItem) :=
  [([], .eventMsg (.turnStarted ['a'] none)), ([], .eventMsg (.mcpToolCallBegin toolCallBegin)),
    ([], .eventMsg (.turnStarted ['b'] none)), ([], .eventMsg (.mcpToolCallEnd toolCallEnd))]

/-- Is the item that the `k`-th item puts into the open turn in no closed turn? -/
def staysInTurn (deps : Externals) (items : List (Text × RolloutItem)) (k : ℕ) : Bool :=
  (items[k]?.bind (·.2.upserts deps)).all fun call => call.1 ≠ .current ||
    (handleRolloutItems deps (items.take k)).turns.all fun turn => turn.items.all (·.id ≠ call.2.id)

lemma callsStayInTurn_of_all {items : List (Text × RolloutItem)}
    (h : ∀ k < items.length, staysInTurn deps items k = true) : CallsStayInTurn deps items := by
  rintro before entry after rfl item hitem
  simpa [staysInTurn, hitem] using h before.length (by simp)

/-- The items of these turns have different ids, and the late end of the patch changes the first turn only. -/
theorem ids_stay_distinct_callsInTurns :
    (handleRolloutItems noParsers callsInTurns).allTurns.length = 3 ∧
      (((handleRolloutItems noParsers callsInTurns).allTurns.flatMap Turn.items).map ThreadItem.id).Nodup ∧
      ((handleRolloutItems noParsers callsInTurns).allTurns.map Turn.id).Nodup ∧
      (handleRolloutItems noParsers (callsInTurns ++ [([], .eventMsg latePatchEnd)])).otherTurns ['a'] =
        (handleRolloutItems noParsers callsInTurns).otherTurns ['a'] := by
  obtain ⟨hitems, hturns, haddressed⟩ := ids_stay_distinct noParsers callsInTurns
    (distinctIds_of_head (by decide) (by decide) (by decide) (by decide) rfl)
    (callsStayInTurn_of_all (by decide +kernel)) callsInTurns [] (List.append_nil _).symm
  exact ⟨by decide +kernel, hitems, hturns, (haddressed [] latePatchEnd ['a'] rfl).1 (by decide)⟩

/-- An abort for a turn that is not there interrupts the active turn, which has another id. When a tool call ends
after the next turn was started, its item stands in both turns. And a turn may be started under the id that an
implicit turn has. -/
theorem ids_not_always_distinct :
    (DistinctIds noParsers [([], .eventMsg (.turnStarted ['a'] none))] ∧
      ((handleRolloutItems noParsers [([], .eventMsg (.turnStarted ['a'] none)),
        ([], .eventMsg (.turnAborted (some ['b']) none none))]).otherTurns ['b']).map Turn.status ≠
      ((handleRolloutItems noParsers [([], .eventMsg (.turnStarted ['a'] none))]).otherTurns
        ['b']).map Turn.status) ∧
    DistinctIds noParsers lateCallEnd ∧
      ¬ (((handleRolloutItems noParsers lateCallEnd).allTurns.flatMap Turn.items).map
        ThreadItem.id).Nodup ∧
    (startedIds startedAgain).Nodup ∧
      ¬ ((handleRolloutItems noParsers startedAgain).allTurns.map Turn.id).Nodup := by
  refine ⟨⟨?_, by decide⟩, ?_, by decide, by decide, by decide +kernel⟩
  · exact distinctIds_of_head (by decide) (by decide) (by decide) (by decide) rfl
  · exact distinctIds_of_head (by decide) (by decide) (by decide) (by decide) rfl

end ThreadHistoryBuilder

end Supercodex.ThreadHistory
