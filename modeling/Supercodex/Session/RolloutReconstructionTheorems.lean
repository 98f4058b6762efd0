import Supercodex.History.RollbackTheorems
import Supercodex.Session.RolloutReconstruction

/-!
# Reconstruction against a plain replay

The turns of a rollout are described without the loops of the source: which items form a turn,
which replacement history each turn ends up with, and which turns the rollback markers leave. The
scan is shown to compute this description as far as it reads, and the reconstructed history is
compared with a replay of the whole rollout.
-/

namespace Supercodex.Session

open History ReplayScan

/-! ## The turns of a rollout -/

/-- A replacement history in a rollout, with the items after it. -/
structure Checkpoint where
  history : List ResponseItem
  newer : List RolloutItem
deriving DecidableEq

/-- A turn of a rollout. Its checkpoint is the newest one in it. -/
structure TurnSegment where
  turnId : Option Text := none
  countsAsUserTurn : Bool := false
  checkpoint : Option Checkpoint := none
  /-- The turns dropped by the rollback markers between the turn after this one and the oldest
  item of this one. -/
  rolledBackTurns : ℕ := 0
deriving DecidableEq

/-- The turns of the newest items of a rollout, newest first, and the turn that older items may
still join. -/
structure Segmentation where
  closed : List TurnSegment
  current : Option TurnSegment
  markers : ℕ
deriving DecidableEq

/-- Does an item start a turn of its own, if none is open? -/
def RolloutItem.opensTurn : RolloutItem → Bool
  | .compacted _ | .turnContext _ | .responseItem _ => true
  | .eventMsg (.turnComplete _) | .eventMsg .userMessage | .eventMsg (.turnAborted (some _)) => true
  | .eventMsg _ | .sessionMeta => false

/-- A turn together with an item older than its other items. -/
def TurnSegment.join (deps : Externals) (segment : TurnSegment) (item : RolloutItem)
    (newer : List RolloutItem) : TurnSegment :=
  match item with
  | .compacted compacted =>
    { segment with
      checkpoint := segment.checkpoint.or (compacted.replacementHistory.map (⟨·, newer⟩)) }
  | .turnContext ctx => { segment with turnId := segment.turnId.or ctx.turnId }
  | .responseItem responseItem =>
    { segment with
      countsAsUserTurn := segment.countsAsUserTurn || deps.isUserTurnBoundary responseItem }
  | .eventMsg (.turnComplete turnId) =>
    { segment with turnId := segment.turnId.or (some turnId) }
  | .eventMsg (.turnAborted turnId) => { segment with turnId := segment.turnId.or turnId }
  | .eventMsg .userMessage => { segment with countsAsUserTurn := true }
  | .eventMsg _ | .sessionMeta => segment

/-- The turns of a rollout with one more item, older than all others. -/
def Segmentation.read (deps : Externals) (seg : Segmentation) (item : RolloutItem)
    (newer : List RolloutItem) : Segmentation :=
  match item with
  | .eventMsg (.threadRolledBack numTurns) =>
    { seg with markers := saturatingAdd seg.markers numTurns }
  | .eventMsg (.turnStarted turnId) =>
    match seg.current with
    | some segment =>
      if turnIdsAreCompatible segment.turnId (some turnId) then
        ⟨seg.closed ++ [{ segment with rolledBackTurns := seg.markers }], none, 0⟩
      else seg
    | none => seg
  | item =>
    if seg.current.isSome || item.opensTurn then
      { seg with current := some ((seg.current.getD {}).join deps item newer) }
    else seg

/-- The turns of a rollout, read from its newest item. -/
def segmentation (deps : Externals) : List RolloutItem → Segmentation
  | [] => ⟨[], none, 0⟩
  | item :: newer => (segmentation deps newer).read deps item newer

/-- All turns, the oldest of them closed by the beginning of the rollout. -/
def Segmentation.segments (seg : Segmentation) : List TurnSegment :=
  seg.closed ++ (seg.current.map ({ · with rolledBackTurns := seg.markers })).toList

/-- The replacement histories of the turns, newest first. -/
def Segmentation.checkpoints (seg : Segmentation) : List Checkpoint :=
  seg.segments.filterMap TurnSegment.checkpoint

/-- How many turns are still to be dropped at a turn. -/
def TurnSegment.pendingAt (pending : ℕ) (segment : TurnSegment) : ℕ :=
  saturatingAdd pending segment.rolledBackTurns

/-- How many turns are still to be dropped after a turn. -/
def TurnSegment.pendingAfter (pending : ℕ) (segment : TurnSegment) : ℕ :=
  segment.pendingAt pending - segment.countsAsUserTurn.toNat

/-- The turns that the rollback markers leave, when `pending` turns are to be dropped. -/
def survivors : ℕ → List TurnSegment → List TurnSegment
  | _, [] => []
  | pending, segment :: older =>
    if segment.pendingAt pending = 0 then
      segment :: survivors (segment.pendingAfter pending) older
    else survivors (segment.pendingAfter pending) older

/-- The turns of a rollout that its rollback markers leave. -/
def survivingSegments (deps : Externals) (items : List RolloutItem) : List TurnSegment :=
  survivors 0 (segmentation deps items).segments

/-- The replacement histories of the turns of a rollout, newest first. -/
def checkpoints (deps : Externals) (items : List RolloutItem) : List Checkpoint :=
  (segmentation deps items).checkpoints

/-- The history after items are replayed over a given one. -/
def replayOver (deps : Externals) (policy : TruncationPolicy) (history : List ResponseItem)
    (items : List RolloutItem) : List ResponseItem :=
  (Replay.run deps policy (ContextManager.new.replace history) items).history.items

/-! ## The replay reads its history through the items -/

section Replay

variable {deps : Externals} {policy : TruncationPolicy}

lemma items_dropLastNUserTurns {cm cm' : ContextManager} (h : cm.items = cm'.items)
    (numTurns : ℕ) :
    (cm.dropLastNUserTurns deps numTurns).items = (cm'.dropLastNUserTurns deps numTurns).items := by
  rw [cm.items_dropLastNUserTurns, cm'.items_dropLastNUserTurns, h]

lemma items_recordItems {cm cm' : ContextManager} (h : cm.items = cm'.items)
    (item : ResponseItem) :
    (cm.recordItems deps policy [item]).items = (cm'.recordItems deps policy [item]).items := by
  simp only [ContextManager.recordItems, List.foldl_cons, List.foldl_nil]
  split
  · exact h
  · rw [h]

lemma items_step {r r' : Replay} (h : r.history.items = r'.history.items) (item : RolloutItem) :
    (r.step deps policy item).history.items = (r'.step deps policy item).history.items := by
  unfold Replay.step
  split
  · exact items_recordItems h _
  · rfl
  · simp only [ContextManager.items_replace, h]
  · exact items_dropLastNUserTurns h _
  · exact h
  · exact h
  · exact h

lemma items_foldl_step {r r' : Replay} (h : r.history.items = r'.history.items)
    (items : List RolloutItem) :
    (items.foldl (Replay.step deps policy) r).history.items =
      (items.foldl (Replay.step deps policy) r').history.items := by
  induction items generalizing r r' with
  | nil => exact h
  | cons item items ih => exact ih (items_step h item)

lemma items_run (cm : ContextManager) (items : List RolloutItem) :
    (Replay.run deps policy cm items).history.items = replayOver deps policy cm.items items := by
  have hstart : cm.items = (ContextManager.new.replace cm.items).items := rfl
  exact items_foldl_step hstart items

lemma forwardReplay_eq (items : List RolloutItem) :
    forwardReplay deps policy items = replayOver deps policy [] items := items_run _ items

/-- Does the checkpoint stand in the items? -/
def Checkpoint.IsIn (c : Checkpoint) (items : List RolloutItem) : Prop :=
  ∃ older message, items = older ++ .compacted ⟨message, some c.history⟩ :: c.newer

lemma replayOver_of_isIn {c : Checkpoint} {items : List RolloutItem} (h : c.IsIn items)
    (history : List ResponseItem) :
    replayOver deps policy history items = replayOver deps policy c.history c.newer := by
  obtain ⟨older, message, rfl⟩ := h
  unfold replayOver Replay.run
  rw [List.foldl_append, List.foldl_cons]
  apply items_foldl_step
  rfl

lemma Checkpoint.IsIn.cons {c : Checkpoint} {items : List RolloutItem} (h : c.IsIn items)
    (item : RolloutItem) : c.IsIn (item :: items) := by
  obtain ⟨older, message, rfl⟩ := h
  exact ⟨item :: older, message, rfl⟩

end Replay

/-! ## Survivors and checkpoints of longer rollouts -/

section Segments

variable (deps : Externals)

/-- How many turns are still to be dropped after a list of turns. -/
def pendingAfterAll (pending : ℕ) (segments : List TurnSegment) : ℕ :=
  segments.foldl TurnSegment.pendingAfter pending

lemma survivors_append (pending : ℕ) (newer older : List TurnSegment) :
    survivors pending (newer ++ older) =
      survivors pending newer ++ survivors (pendingAfterAll pending newer) older := by
  induction newer generalizing pending with
  | nil => rfl
  | cons segment newer ih =>
    rw [List.cons_append, survivors, survivors, ih]
    split
    · rfl
    · rfl

lemma saturatingAdd_assoc (a b c : ℕ) :
    saturatingAdd (saturatingAdd a b) c = saturatingAdd a (saturatingAdd b c) := by
  unfold saturatingAdd
  omega

lemma closed_read (seg : Segmentation) (item : RolloutItem) (newer : List RolloutItem) :
    ∃ more, (seg.read deps item newer).closed = seg.closed ++ more := by
  unfold Segmentation.read
  split
  · exact ⟨[], by simp⟩
  · split
    · split
      · exact ⟨_, rfl⟩
      · exact ⟨[], by simp⟩
    · exact ⟨[], by simp⟩
  · split
    · exact ⟨[], by simp⟩
    · exact ⟨[], by simp⟩

lemma closed_segmentation_append (older newer : List RolloutItem) :
    ∃ more, (segmentation deps (older ++ newer)).closed =
      (segmentation deps newer).closed ++ more := by
  induction older with
  | nil => exact ⟨[], by simp⟩
  | cons item older ih =>
    obtain ⟨more, hmore⟩ := ih
    obtain ⟨last, hlast⟩ := closed_read deps (segmentation deps (older ++ newer)) item
      (older ++ newer)
    refine ⟨more ++ last, ?_⟩
    rw [List.cons_append, segmentation, hlast, hmore, List.append_assoc]

lemma checkpoints_eq (seg : Segmentation) :
    seg.checkpoints = seg.closed.filterMap TurnSegment.checkpoint ++
      (seg.current.bind TurnSegment.checkpoint).toList := by
  unfold Segmentation.checkpoints Segmentation.segments
  rw [List.filterMap_append]
  congr 1
  cases seg.current with
  | none => rfl
  | some segment =>
    cases h : segment.checkpoint with
    | none | some c => simp [h]

lemma checkpoint_join (segment : TurnSegment) (item : RolloutItem) (newer : List RolloutItem) :
    (segment.join deps item newer).checkpoint = segment.checkpoint ∨
    ∃ message history, item = .compacted ⟨message, some history⟩ ∧ segment.checkpoint = none ∧
      (segment.join deps item newer).checkpoint = some ⟨history, newer⟩ := by
  unfold TurnSegment.join
  split
  · rename_i compacted
    obtain ⟨message, replacementHistory⟩ := compacted
    cases hc : segment.checkpoint with
    | some c => exact .inl rfl
    | none =>
      cases replacementHistory with
      | none => exact .inl rfl
      | some history => exact .inr ⟨message, history, rfl, rfl, rfl⟩
  all_goals exact .inl rfl

/-- What reading an item does to the checkpoints: a replacement history in a turn that has none
yet is one more checkpoint, older than the others. -/
lemma checkpoints_read (seg : Segmentation) (item : RolloutItem) (newer : List RolloutItem) :
    (seg.read deps item newer).checkpoints = seg.checkpoints ∨
    ∃ message history, item = .compacted ⟨message, some history⟩ ∧
      (seg.read deps item newer).checkpoints = seg.checkpoints ++ [⟨history, newer⟩] := by
  rw [checkpoints_eq, checkpoints_eq]
  unfold Segmentation.read
  split
  · exact .inl rfl
  · -- closing a turn moves its checkpoint to those of the closed turns
    split
    · rename_i segment hcurrent
      split
      · left
        cases hc : segment.checkpoint with
        | none | some c => simp [hcurrent, hc]
      · exact .inl rfl
    · exact .inl rfl
  · split
    · have hbind : (seg.current.getD {}).checkpoint = seg.current.bind TurnSegment.checkpoint := by
        cases seg.current with
        | none | some segment => rfl
      obtain hj | ⟨message, history, hitem, hnone, hj⟩ :=
        checkpoint_join deps (seg.current.getD {}) item newer
      · left
        rw [Option.bind_some, hj, hbind]
      right
      refine ⟨message, history, hitem, ?_⟩
      rw [Option.bind_some, hj, ← hbind, hnone]
      simp
    · exact .inl rfl

/-- Checkpoints in a rollout, newest first. -/
structure Ordered (items : List RolloutItem) (cs : List Checkpoint) : Prop where
  isIn : ∀ c ∈ cs, c.IsIn items
  pairwise : cs.Pairwise fun newer older => newer.IsIn older.newer

lemma ordered_checkpoints (items : List RolloutItem) :
    Ordered items (checkpoints deps items) := by
  induction items with
  | nil => exact ⟨by simp [checkpoints, segmentation, checkpoints_eq],
      by simp [checkpoints, segmentation, checkpoints_eq]⟩
  | cons item items ih =>
    obtain h | ⟨message, history, rfl, h⟩ := checkpoints_read deps (segmentation deps items)
      item items
    · unfold checkpoints segmentation
      rw [h]
      exact ⟨fun c hc => (ih.isIn c hc).cons item, ih.pairwise⟩
    · unfold checkpoints segmentation
      rw [h]
      refine ⟨?_, List.pairwise_append.mpr ⟨ih.pairwise, List.pairwise_singleton _ _, ?_⟩⟩
      · intro c hc
        rcases List.mem_append.mp hc with hc | hc
        · exact (ih.isIn c hc).cons _
        · rw [List.mem_singleton.mp hc]
          exact ⟨[], message, rfl⟩
      · intro c hc last hlast
        rw [List.mem_singleton.mp hlast]
        exact ih.isIn c hc

end Segments

/-! ## The scan computes the turns -/

section Scan

variable {deps : Externals} {rolloutItems : List RolloutItem} {scan : ReplayScan}
  {seg : Segmentation}

/-- The segment of the scan and the turn agree on what decides the history. -/
structure Outlines (a : ActiveReplaySegment) (s : TurnSegment) : Prop where
  turnId : a.turnId = s.turnId
  countsAsUserTurn : a.countsAsUserTurn = s.countsAsUserTurn
  base : a.baseReplacementHistory = s.checkpoint.map Checkpoint.history

/-- The open segment of the scan is the current turn. -/
inductive SameCurrent : Option ActiveReplaySegment → Option TurnSegment → Prop
  | none : SameCurrent none none
  | some {a s} : Outlines a s → SameCurrent (some a) (some s)

/-- The checkpoint of the newest turn that has one. -/
def newestCheckpoint (segments : List TurnSegment) : Option Checkpoint :=
  segments.findSome? TurnSegment.checkpoint

/-- The scan has read the turns of `seg`. -/
structure Simulates (rolloutItems : List RolloutItem) (scan : ReplayScan) (seg : Segmentation) :
    Prop where
  active : SameCurrent scan.activeSegment seg.current
  pending : scan.pendingRollbackTurns =
    saturatingAdd (pendingAfterAll 0 seg.closed) seg.markers
  base : scan.baseReplacementHistory =
    (newestCheckpoint (survivors 0 seg.closed)).map Checkpoint.history
  suffix : scan.rolloutSuffix = (seg.checkpoints.getLast?.map Checkpoint.newer).getD rolloutItems

lemma SameCurrent.getD {a : Option ActiveReplaySegment} {s : Option TurnSegment}
    (h : SameCurrent a s) : Outlines (a.getD {}) (s.getD {}) := by
  cases h with
  | none => exact ⟨rfl, rfl, rfl⟩
  | some h => exact h

lemma bind_checkpoint_getD (current : Option TurnSegment) :
    (current.getD {}).checkpoint = current.bind TurnSegment.checkpoint := by
  cases current with
  | none | some segment => rfl

variable {a : ActiveReplaySegment}

section

variable (h : Simulates rolloutItems scan seg)
include h

lemma Simulates.exists_current (ha : scan.activeSegment = some a)
    : ∃ s, seg.current = some s ∧ Outlines a s := by
  have hactive := h.active
  rw [ha] at hactive
  cases hs : seg.current with
  | none =>
    rw [hs] at hactive
    cases hactive
  | some s =>
    rw [hs] at hactive
    cases hactive with
    | some hout => exact ⟨s, rfl, hout⟩

lemma Simulates.current_eq_none (ha : scan.activeSegment = none) : seg.current = none := by
  have hactive := h.active
  rw [ha] at hactive
  cases hs : seg.current with
  | none => rfl
  | some s =>
    rw [hs] at hactive
    cases hactive

variable {s : TurnSegment}

lemma Simulates.joined (hout : Outlines a s) (hc : s.checkpoint = (seg.current.getD {}).checkpoint)
    :
    Simulates rolloutItems { scan with activeSegment := some a } { seg with current := some s } := by
  refine ⟨.some hout, h.pending, h.base, ?_⟩
  have hcheck : Segmentation.checkpoints { seg with current := some s } = seg.checkpoints := by
    rw [checkpoints_eq, checkpoints_eq, Option.bind_some, hc, bind_checkpoint_getD]
  rw [hcheck]
  exact h.suffix

variable {c : Checkpoint}

lemma Simulates.checkpointed (hout : Outlines a s) (hc : s.checkpoint = some c)
    (hnone : (seg.current.getD {}).checkpoint = none) :
    Simulates rolloutItems { scan with activeSegment := some a, rolloutSuffix := c.newer }
      { seg with current := some s } := by
  refine ⟨.some hout, h.pending, h.base, ?_⟩
  rw [bind_checkpoint_getD] at hnone
  have hcheck : Segmentation.checkpoints { seg with current := some s } =
      seg.checkpoints ++ [c] := by
    rw [checkpoints_eq, checkpoints_eq, hnone, Option.bind_some, hc]
    simp
  rw [hcheck]
  simp

end

lemma survivors_singleton (pending : ℕ) (segment : TurnSegment) :
    survivors pending [segment] = if segment.pendingAt pending = 0 then [segment] else [] := rfl

lemma newestCheckpoint_append (newer older : List TurnSegment) :
    newestCheckpoint (newer ++ older) = (newestCheckpoint newer).or (newestCheckpoint older) := by
  unfold newestCheckpoint
  rw [List.findSome?_append]

lemma saturatingAdd_zero {n : ℕ} (h : n ≤ usizeMax) : saturatingAdd n 0 = n := by
  unfold saturatingAdd
  omega

lemma newestCheckpoint_singleton (segment : TurnSegment) :
    newestCheckpoint [segment] = segment.checkpoint := by
  unfold newestCheckpoint
  cases h : segment.checkpoint with
  | none | some c => simp [h]

section Finalize

variable (scan) (segment : ActiveReplaySegment)

lemma activeSegment_finalize :
    (scan.finalizeActiveSegment segment).activeSegment = scan.activeSegment := by
  unfold finalizeActiveSegment
  split
  · split
    · rfl
    · rfl
  · rfl

lemma suffix_finalize :
    (scan.finalizeActiveSegment segment).rolloutSuffix = scan.rolloutSuffix := by
  unfold finalizeActiveSegment
  split
  · split
    · rfl
    · rfl
  · rfl

lemma pending_finalize :
    (scan.finalizeActiveSegment segment).pendingRollbackTurns =
      scan.pendingRollbackTurns - segment.countsAsUserTurn.toNat := by
  unfold finalizeActiveSegment
  split
  · split
    · rename_i hcounts
      rw [hcounts]
      rfl
    · rename_i hcounts
      rw [Bool.not_eq_true] at hcounts
      rw [hcounts]
      rfl
  · show scan.pendingRollbackTurns = _
    omega

lemma base_finalize :
    (scan.finalizeActiveSegment segment).baseReplacementHistory =
      if scan.pendingRollbackTurns = 0 then
        scan.baseReplacementHistory.or segment.baseReplacementHistory
      else scan.baseReplacementHistory := by
  unfold finalizeActiveSegment
  split
  · rename_i hpos
    have hne : scan.pendingRollbackTurns ≠ 0 := by omega
    rw [if_neg hne]
    split
    · rfl
    · rfl
  · rename_i hpos
    have hzero : scan.pendingRollbackTurns = 0 := by omega
    rw [if_pos hzero]

end Finalize

lemma checkpoints_close (hs : seg.current = some s) :
    Segmentation.checkpoints ⟨seg.closed ++ [{ s with rolledBackTurns := seg.markers }], none, 0⟩ =
      seg.checkpoints := by
  simp [Segmentation.checkpoints, Segmentation.segments, hs]

/-- Closing the current turn. -/
lemma Simulates.closed (h : Simulates rolloutItems scan seg)
    (ha : scan.activeSegment = some a) (hs : seg.current = some s)
    (hout : Outlines a s) :
    Simulates rolloutItems scan.takeActiveSegment
      ⟨seg.closed ++ [{ s with rolledBackTurns := seg.markers }], none, 0⟩ := by
  have hpending : (TurnSegment.pendingAt (pendingAfterAll 0 seg.closed)
      { s with rolledBackTurns := seg.markers }) = scan.pendingRollbackTurns := h.pending.symm
  have htake : scan.takeActiveSegment =
      { scan with activeSegment := none }.finalizeActiveSegment a := by
    unfold takeActiveSegment
    rw [ha]
  rw [htake]
  refine ⟨?_, ?_, ?_, ?_⟩
  · rw [activeSegment_finalize]
    exact .none
  · rw [pending_finalize, hout.countsAsUserTurn]
    show scan.pendingRollbackTurns - _ = saturatingAdd (pendingAfterAll 0 (seg.closed ++ _)) 0
    rw [pendingAfterAll, List.foldl_append, List.foldl_cons, List.foldl_nil, ← pendingAfterAll,
      TurnSegment.pendingAfter, hpending, saturatingAdd_zero]
    rw [h.pending]
    exact (Nat.sub_le _ _).trans (Nat.min_le_right _ _)
  · rw [base_finalize]
    show (if scan.pendingRollbackTurns = 0 then _ else scan.baseReplacementHistory) = _
    rw [survivors_append, newestCheckpoint_append, survivors_singleton, hpending, h.base, hout.base]
    split
    · rw [Option.map_or, newestCheckpoint_singleton]
    · simp [newestCheckpoint]
  · rw [suffix_finalize]
    show scan.rolloutSuffix = _
    rw [checkpoints_close hs]
    exact h.suffix

lemma read_of_opensTurn {item : RolloutItem} (hopens : item.opensTurn = true)
    (newer : List RolloutItem) :
    seg.read deps item newer =
      { seg with current := some ((seg.current.getD {}).join deps item newer) } := by
  unfold Segmentation.read
  split
  · cases hopens
  · cases hopens
  · rw [hopens, Bool.or_true, if_pos rfl]

lemma read_of_inert {item : RolloutItem} {newer : List RolloutItem}
    (hopens : item.opensTurn = false) (hjoin : ∀ segment, TurnSegment.join deps segment item newer = segment)
    (hrolled : ∀ numTurns, item ≠ .eventMsg (.threadRolledBack numTurns))
    (hstarted : ∀ turnId, item ≠ .eventMsg (.turnStarted turnId)) :
    seg.read deps item newer = seg := by
  unfold Segmentation.read
  split
  · exact absurd rfl (hrolled _)
  · exact absurd rfl (hstarted _)
  rw [hopens, Bool.or_false, hjoin]
  cases hs : seg.current with
  | none => rfl
  | some segment =>
    rw [Option.isSome_some, if_pos rfl, Option.getD_some, ← hs]

lemma Simulates.step_compacted (h : Simulates rolloutItems scan seg) (compacted : CompactedItem)
    (newer : List RolloutItem) :
    Simulates rolloutItems (scan.step deps (.compacted compacted) newer)
      (seg.read deps (.compacted compacted) newer) := by
  obtain ⟨message, replacementHistory⟩ := compacted
  have hout := h.active.getD
  rw [read_of_opensTurn rfl]
  unfold step
  dsimp only
  -- clearing the baseline is no part of the outline
  generalize hcleared : (if (scan.activeSegment.getD {}).referenceContextItem = .neverSet then
    { scan.activeSegment.getD {} with referenceContextItem := .cleared }
    else scan.activeSegment.getD {} : ActiveReplaySegment) = cleared
  have hout : Outlines cleared (seg.current.getD {}) := by
    rw [← hcleared]
    split
    · exact ⟨hout.turnId, hout.countsAsUserTurn, hout.base⟩
    · exact hout
  cases hc : (seg.current.getD {}).checkpoint with
  | some c =>
    have hbase : cleared.baseReplacementHistory = some c.history := by rw [hout.base, hc]; rfl
    rw [hbase]
    refine h.joined ⟨hout.turnId, hout.countsAsUserTurn, ?_⟩ ?_
    · simp [TurnSegment.join, hc, hbase]
    · simp [TurnSegment.join, hc]
  | none =>
    have hbase : cleared.baseReplacementHistory = none := by rw [hout.base, hc]; rfl
    rw [hbase]
    cases replacementHistory with
    | none =>
      refine h.joined ⟨hout.turnId, hout.countsAsUserTurn, ?_⟩ ?_
      · simp [TurnSegment.join, hc, hbase]
      · simp [TurnSegment.join, hc]
    | some history =>
      have hjoin : ((seg.current.getD {}).join deps (.compacted ⟨message, some history⟩)
          newer).checkpoint = some ⟨history, newer⟩ := by
        simp [TurnSegment.join, hc]
      refine h.checkpointed (c := ⟨history, newer⟩) ⟨hout.turnId, hout.countsAsUserTurn, ?_⟩ hjoin hc
      rw [hjoin]
      rfl

/-- One item of the loop. -/
lemma Simulates.step (h : Simulates rolloutItems scan seg) (item : RolloutItem)
    (newer : List RolloutItem) :
    Simulates rolloutItems (scan.step deps item newer) (seg.read deps item newer) := by
  have hout := h.active.getD
  cases item with
  | sessionMeta =>
    rw [read_of_inert rfl (fun _ => rfl) (by simp) (by simp)]
    exact h
  | compacted compacted => exact h.step_compacted compacted newer
  | responseItem item =>
    rw [read_of_opensTurn rfl]
    refine h.joined ⟨hout.turnId, ?_, hout.base⟩ rfl
    simp only [TurnSegment.join, hout.countsAsUserTurn]
  | turnContext ctx =>
    rw [read_of_opensTurn rfl]
    unfold ReplayScan.step
    dsimp only
    have hid : (scan.activeSegment.getD {}).turnId.or ctx.turnId =
        (seg.current.getD {}).turnId.or ctx.turnId := by rw [hout.turnId]
    split
    · exact h.joined ⟨hid, hout.countsAsUserTurn, hout.base⟩ rfl
    · exact h.joined ⟨hid, hout.countsAsUserTurn, hout.base⟩ rfl
  | eventMsg event =>
    cases event with
    | threadRolledBack numTurns =>
      refine ⟨h.active, ?_, h.base, ?_⟩
      · show saturatingAdd scan.pendingRollbackTurns numTurns = _
        rw [h.pending, saturatingAdd_assoc]
        rfl
      · have hsuffix := h.suffix
        rw [checkpoints_eq] at hsuffix ⊢
        exact hsuffix
    | turnStarted turnId =>
      unfold ReplayScan.step Segmentation.read
      dsimp only
      cases ha : scan.activeSegment with
      | none =>
        have hs := h.current_eq_none ha
        rw [hs, Option.any_none, if_neg Bool.false_ne_true]
        exact h
      | some a =>
        obtain ⟨s, hs, hout⟩ := h.exists_current ha
        rw [hs, Option.any_some, hout.turnId]
        dsimp only
        split
        · exact h.closed ha hs hout
        · exact h
    | turnComplete turnId =>
      rw [read_of_opensTurn rfl]
      refine h.joined ⟨?_, hout.countsAsUserTurn, hout.base⟩ rfl
      simp only [TurnSegment.join, hout.turnId]
    | turnAborted turnId =>
      unfold ReplayScan.step
      cases ha : scan.activeSegment with
      | some a =>
        obtain ⟨s, hs, hout⟩ := h.exists_current ha
        have hread : seg.read deps (.eventMsg (.turnAborted turnId)) newer =
            { seg with current := some { s with turnId := s.turnId.or turnId } } := by
          simp [Segmentation.read, hs, TurnSegment.join]
        rw [hread]
        refine h.joined ⟨?_, hout.countsAsUserTurn, hout.base⟩ ?_
        · simp [hout.turnId]
        · simp [hs]
      | none =>
        have hs := h.current_eq_none ha
        cases turnId with
        | none =>
          have hread : seg.read deps (.eventMsg (.turnAborted none)) newer = seg := by
            simp [Segmentation.read, hs, RolloutItem.opensTurn]
          rw [hread]
          exact h
        | some turnId =>
          rw [read_of_opensTurn rfl, hs]
          refine h.joined ⟨rfl, rfl, rfl⟩ ?_
          rw [hs]
          rfl
    | userMessage =>
      rw [read_of_opensTurn rfl]
      exact h.joined ⟨hout.turnId, rfl, hout.base⟩ rfl
    | other =>
      rw [read_of_inert rfl (fun _ => rfl) (by simp) (by simp)]
      exact h

lemma simulates_start (deps : Externals) (rolloutItems : List RolloutItem) :
    Simulates rolloutItems (start rolloutItems) (segmentation deps []) :=
  ⟨.none, rfl, rfl, rfl⟩

/-- What the loop has read when it ends: all items, or newer ones that hold a surviving
replacement history. -/
inductive Scanned (deps : Externals) (rolloutItems : List RolloutItem) :
    List RolloutItem → Except ReplayScan ReplayScan → Prop
  | all {items scan} : Simulates rolloutItems scan (segmentation deps items) →
      Scanned deps rolloutItems items (.ok scan)
  | newer {items older newer scan} : items = older ++ newer →
      Simulates rolloutItems scan (segmentation deps newer) →
      scan.baseReplacementHistory.isSome → Scanned deps rolloutItems items (.error scan)

lemma scanned_run (items : List RolloutItem) :
    Scanned deps rolloutItems items ((start rolloutItems).run deps items) := by
  induction items with
  | nil => exact .all (simulates_start deps rolloutItems)
  | cons item items ih =>
    unfold run
    generalize (start rolloutItems).run deps items = result at ih
    cases ih with
    | @newer older newer scan hitems h hbase =>
      have hitems : item :: items = (item :: older) ++ newer := by rw [hitems]; rfl
      exact .newer hitems h hbase
    | @all scan h =>
      show Scanned deps rolloutItems (item :: items)
        (if (scan.step deps item items).isComplete then .error _ else .ok _)
      have hstep : Simulates rolloutItems (scan.step deps item items)
          (segmentation deps (item :: items)) := h.step item items
      split
      · rename_i hcomplete
        have hbase : (scan.step deps item items).baseReplacementHistory.isSome := by
          simp only [isComplete, Bool.and_eq_true] at hcomplete
          exact hcomplete.1.1
        exact .newer (List.nil_append _).symm hstep hbase
      · exact .all hstep

lemma Simulates.takeActiveSegment (h : Simulates rolloutItems scan seg) :
    scan.takeActiveSegment.baseReplacementHistory =
      (newestCheckpoint (survivors 0 seg.segments)).map Checkpoint.history ∧
    scan.takeActiveSegment.rolloutSuffix =
      (seg.checkpoints.getLast?.map Checkpoint.newer).getD rolloutItems := by
  cases ha : scan.activeSegment with
  | none =>
    have hs := h.current_eq_none ha
    have htake : scan.takeActiveSegment = scan := by
      unfold ReplayScan.takeActiveSegment
      rw [ha]
    rw [htake, Segmentation.segments, hs, Option.map_none, Option.toList_none, List.append_nil]
    exact ⟨h.base, h.suffix⟩
  | some a =>
    obtain ⟨s, hs, hout⟩ := h.exists_current ha
    have hclosed := h.closed ha hs hout
    refine ⟨?_, ?_⟩
    · rw [hclosed.base, Segmentation.segments, hs]
      rfl
    · rw [hclosed.suffix, checkpoints_close hs]

variable {segments : List TurnSegment}

lemma mem_of_mem_survivors {pending : ℕ} (h : s ∈ survivors pending segments) : s ∈ segments := by
  induction segments generalizing pending with
  | nil => exact h
  | cons segment older ih =>
    rw [survivors] at h
    split at h
    · rcases List.mem_cons.mp h with rfl | h
      · exact List.mem_cons_self
      · exact List.mem_cons_of_mem _ (ih h)
    · exact List.mem_cons_of_mem _ (ih h)

lemma exists_of_newestCheckpoint (h : newestCheckpoint segments = some c)
    : ∃ s ∈ segments, s.checkpoint = some c :=
  List.exists_of_findSome?_eq_some h

lemma newestCheckpoint_eq_none_iff :
    newestCheckpoint segments = none ↔ ∀ s ∈ segments, s.checkpoint = none :=
  List.findSome?_eq_none_iff

lemma Ordered.eq_or_isIn_last {items : List RolloutItem} {cs : List Checkpoint}
    (h : Ordered items cs) {c last : Checkpoint} (hc : c ∈ cs) (hlast : cs.getLast? = some last) :
    c = last ∨ c.IsIn last.newer := by
  obtain ⟨init, rfl⟩ := List.getLast?_eq_some_iff.mp hlast
  rcases List.mem_append.mp hc with hc | hc
  · right
    exact (List.pairwise_append.mp h.pairwise).2.2 c hc last (List.mem_singleton_self last)
  · left
    exact List.mem_singleton.mp hc

/-- The scan has found a surviving replacement history, and the items left for the replay begin
right after it or hold it. -/
structure FoundBase (deps : Externals) (rolloutItems : List RolloutItem) (scan : ReplayScan)
    (c : Checkpoint) : Prop where
  survives : ∃ s ∈ survivingSegments deps rolloutItems, s.checkpoint = some c
  base : scan.baseReplacementHistory = some c.history
  isIn : c.IsIn rolloutItems
  suffix : scan.rolloutSuffix = c.newer ∨ c.IsIn scan.rolloutSuffix

lemma Simulates.foundBase {older newer : List RolloutItem}
    (h : Simulates (older ++ newer) scan (segmentation deps newer))
    (hc : newestCheckpoint (survivingSegments deps newer) = some c)
    (hsurvives : ∃ s ∈ survivingSegments deps (older ++ newer), s.checkpoint = some c) :
    FoundBase deps (older ++ newer) scan.takeActiveSegment c := by
  obtain ⟨hbase, hsuffix⟩ := h.takeActiveSegment
  have hordered := ordered_checkpoints deps newer
  have hmem : c ∈ checkpoints deps newer := by
    obtain ⟨s, hs, hsc⟩ := exists_of_newestCheckpoint hc
    exact List.mem_filterMap.mpr ⟨s, mem_of_mem_survivors hs, hsc⟩
  have hisIn : c.IsIn (older ++ newer) := by
    obtain ⟨before, message, hnewer⟩ := hordered.isIn c hmem
    refine ⟨older ++ before, message, ?_⟩
    rw [List.append_assoc, ← hnewer]
  refine ⟨hsurvives, ?_, hisIn, ?_⟩
  · rw [hbase, ← survivingSegments, hc]
    rfl
  · cases hlast : (checkpoints deps newer).getLast? with
    | none =>
      rw [List.getLast?_eq_none_iff] at hlast
      rw [hlast] at hmem
      cases hmem
    | some last =>
      rw [hsuffix, ← checkpoints, hlast]
      rcases hordered.eq_or_isIn_last hmem hlast with rfl | hin
      · exact .inl rfl
      · exact .inr hin

/-- What the scan leaves for the replay. -/
lemma final_cases (deps : Externals) (rolloutItems : List RolloutItem) :
    (∃ c, FoundBase deps rolloutItems (final deps rolloutItems) c) ∨
    ((∀ s ∈ survivingSegments deps rolloutItems, s.checkpoint = none) ∧
      (final deps rolloutItems).baseReplacementHistory = none ∧
      (final deps rolloutItems).rolloutSuffix =
        ((checkpoints deps rolloutItems).getLast?.map Checkpoint.newer).getD rolloutItems) := by
  have hscanned : Scanned deps rolloutItems rolloutItems
      ((start rolloutItems).run deps rolloutItems) := scanned_run rolloutItems
  unfold final
  generalize (start rolloutItems).run deps rolloutItems = result at hscanned
  cases hscanned with
  | @all scan h =>
    obtain ⟨hbase, hsuffix⟩ := h.takeActiveSegment
    cases hc : newestCheckpoint (survivingSegments deps rolloutItems) with
    | some c =>
      have hall : Simulates ([] ++ rolloutItems) scan (segmentation deps rolloutItems) := h
      exact .inl ⟨c, hall.foundBase hc (exists_of_newestCheckpoint hc)⟩
    | none =>
      right
      refine ⟨newestCheckpoint_eq_none_iff.mp hc, ?_, hsuffix⟩
      show scan.takeActiveSegment.baseReplacementHistory = none
      rw [hbase, ← survivingSegments, hc]
      rfl
  | @newer older newer scan hitems h hbase =>
    subst hitems
    left
    -- the surviving replacement history is in a closed turn, which older items do not change
    obtain ⟨c, hc⟩ : ∃ c, newestCheckpoint (survivors 0 (segmentation deps newer).closed) = some c := by
      rw [h.base, Option.isSome_map] at hbase
      exact Option.isSome_iff_exists.mp hbase
    have hnewer : newestCheckpoint (survivingSegments deps newer) = some c := by
      rw [survivingSegments, Segmentation.segments, survivors_append, newestCheckpoint_append, hc]
      rfl
    refine ⟨c, h.foundBase hnewer ?_⟩
    obtain ⟨s, hs, hsc⟩ := exists_of_newestCheckpoint hc
    obtain ⟨more, hmore⟩ := closed_segmentation_append deps older newer
    refine ⟨s, ?_, hsc⟩
    rw [survivingSegments, Segmentation.segments, hmore, survivors_append, survivors_append]
    exact List.mem_append_left _ (List.mem_append_left _ hs)

end Scan

/-! ## The reconstructed history -/

section Reconstruction

variable (deps : Externals) (policy : TruncationPolicy) (rolloutItems : List RolloutItem)

lemma history_reconstruct :
    (reconstructHistoryFromRollout deps policy rolloutItems).history =
      replayOver deps policy ((final deps rolloutItems).baseReplacementHistory.getD [])
        (final deps rolloutItems).rolloutSuffix := by
  unfold reconstructHistoryFromRollout
  dsimp only
  rw [items_run]
  cases (final deps rolloutItems).baseReplacementHistory with
  | none | some base => rfl

lemma history_of_foundBase {c : Checkpoint}
    (h : FoundBase deps rolloutItems (final deps rolloutItems) c) :
    (reconstructHistoryFromRollout deps policy rolloutItems).history =
      forwardReplay deps policy rolloutItems := by
  rw [history_reconstruct, forwardReplay_eq, replayOver_of_isIn h.isIn, h.base, Option.getD_some]
  rcases h.suffix with hsuffix | hin
  · rw [hsuffix]
  · exact replayOver_of_isIn hin c.history

/-- The reconstructed history is that of a plain replay of the whole rollout exactly when the
rollback markers do not drop the only turn with a replacement history, or when that history does
not show in what is replayed after it. -/
theorem reconstructHistory_eq_forwardReplay_iff :
    (reconstructHistoryFromRollout deps policy rolloutItems).history =
      forwardReplay deps policy rolloutItems ↔
    ∀ c, checkpoints deps rolloutItems = [c] →
      (∀ s ∈ survivingSegments deps rolloutItems, s.checkpoint = none) →
      replayOver deps policy [] c.newer = replayOver deps policy c.history c.newer := by
  rcases final_cases deps rolloutItems with ⟨c, hc⟩ | ⟨hnone, hbase, hsuffix⟩
  · constructor
    · intro _ c' _ hnone
      obtain ⟨s, hs, hsc⟩ := hc.survives
      rw [hnone s hs] at hsc
      cases hsc
    · intro _
      exact history_of_foundBase deps policy rolloutItems hc
  · have hordered := ordered_checkpoints deps rolloutItems
    rw [history_reconstruct, forwardReplay_eq, hbase, Option.getD_none, hsuffix]
    rcases List.eq_nil_or_concat (checkpoints deps rolloutItems) with hnil | ⟨init, last, hlast⟩
    · -- no replacement history at all: the whole rollout is replayed
      rw [hnil]
      simp
    · rw [List.concat_eq_append] at hlast
      rw [hlast, List.getLast?_append, List.getLast?_singleton, Option.some_or, Option.map_some,
        Option.getD_some]
      cases init with
      | nil =>
        have hin : last.IsIn rolloutItems := hordered.isIn last (by simp [hlast])
        rw [replayOver_of_isIn hin]
        constructor
        · intro heq c hc _
          rw [List.nil_append, List.singleton_inj] at hc
          rw [← hc]
          exact heq
        · intro h
          exact h last rfl hnone
      | cons c init =>
        -- a second turn with a replacement history lies after the oldest one
        have hc : c.IsIn rolloutItems := hordered.isIn c (by simp [hlast])
        have hafter : c.IsIn last.newer := by
          have hpairwise := hordered.pairwise
          rw [hlast] at hpairwise
          exact (List.pairwise_append.mp hpairwise).2.2 c List.mem_cons_self last
            (List.mem_singleton_self last)
        rw [replayOver_of_isIn hc, replayOver_of_isIn hafter]
        simp

end Reconstruction

/-- Two turns of the user. The second one ends with a compaction and is rolled back. -/
def rolledBackCompaction : List RolloutItem :=
  [ .eventMsg (.turnStarted "1".toList), .eventMsg .userMessage,
    .responseItem (.user "a".toList), .eventMsg (.turnComplete "1".toList),
    .eventMsg (.turnStarted "2".toList), .eventMsg .userMessage,
    .responseItem (.user "b".toList),
    .compacted ⟨[], some [.user "a".toList, .user "b".toList, .user "summary".toList]⟩,
    .eventMsg (.turnComplete "2".toList), .eventMsg (.threadRolledBack 1) ]

/-- No hook prompts, no messages between agents and no allowance for serialization. -/
def plainExternals : Externals := ⟨fun _ => none, fun _ => false, id⟩

/-- The items before the dropped turn are lost together with its replacement history. -/
theorem reconstructHistory_loses_history :
    (reconstructHistoryFromRollout plainExternals (.bytes 100) rolledBackCompaction).history = [] ∧
    forwardReplay plainExternals (.bytes 100) rolledBackCompaction =
      [.user "a".toList, .user "b".toList] ∧
    (reconstructHistoryFromRollout plainExternals (.bytes 100) rolledBackCompaction).history ≠
      forwardReplay plainExternals (.bytes 100) rolledBackCompaction := by
  have hscan : (reconstructHistoryFromRollout plainExternals (.bytes 100)
      rolledBackCompaction).history = [] := by decide
  have hforward : forwardReplay plainExternals (.bytes 100) rolledBackCompaction =
      [.user "a".toList, .user "b".toList] := by decide
  refine ⟨hscan, hforward, ?_⟩
  rw [hscan, hforward]
  simp

end Supercodex.Session
