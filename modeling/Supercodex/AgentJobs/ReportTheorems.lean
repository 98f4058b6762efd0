import Supercodex.AgentJobs.SpawnTheorems

/-!
# Reports of workers

An item that was assigned to a thread stays with it until the thread reports, comes to a final status
or runs for too long. A report is accepted where its item is assigned to the thread that reports, so
that it is lost exactly when it comes before the assignment is recorded.
-/

namespace Supercodex.AgentJobs

open Runs StateRuntime JobRun Table AgentJobItemStatus

/-! ## Workers and their items -/

/-- Has a worker run for as long as it may? -/
def Elapsed (s : JobRun) (worker : Worker) : Prop :=
  ∃ startedAt, worker.startedAt = some startedAt ∧ startedAt + s.runtimeTimeout ≤ s.now

/-- A worker that has reported, has come to a final status, or has run for too long. -/
def Spent (s : JobRun) (worker : Worker) : Prop :=
  worker.reported ∨ worker.finished ∨ Elapsed s worker

/-- The item was assigned to the thread. -/
def Tracked (s : JobRun) (threadId : ThreadId) (itemId : Text) : Prop :=
  ∃ worker, s.workers threadId = some worker ∧ worker.itemId = itemId ∧ worker.assigned

/-- No thread that the item was assigned to may still report. -/
def GivenUp (s : JobRun) (itemId : Text) : Prop :=
  ∀ threadId worker, s.workers threadId = some worker → worker.itemId = itemId → worker.assigned →
    Spent s worker

/-- What holds of the rows and the workers of a job. -/
structure Consistent (s : JobRun) : Prop where
  known : ∀ threadId worker, s.workers threadId = some worker →
    ∃ item, s.db.items.get? worker.itemId = some item
  busy : ∀ threadId worker item, s.workers threadId = some worker → worker.assigned →
    s.db.items.get? worker.itemId = some item → item.status ≠ .pending
  alone : ∀ threadId worker threadId' worker', s.workers threadId = some worker →
    s.workers threadId' = some worker' → worker.assigned → worker'.assigned →
    worker.itemId = worker'.itemId → threadId = threadId'
  held : ∀ threadId worker, s.workers threadId = some worker → worker.assigned → ¬ Spent s worker →
    ∃ item, s.db.items.get? worker.itemId = some item ∧ item.status = .running ∧
      item.assignedThreadId = some threadId
  owner : ∀ itemId item threadId, s.db.items.get? itemId = some item → item.status = .running →
    item.assignedThreadId = some threadId → Tracked s threadId itemId
  active : ∀ threadId entry, s.activeItems.lookup threadId = some entry →
    ∃ worker, s.workers threadId = some worker ∧ worker.itemId = entry.itemId ∧ worker.assigned ∧
      worker.startedAt = some entry.startedAt
  settled : ∀ threadId worker, s.workers threadId = some worker → worker.assigned →
    isFinal worker.status → Spent s worker
  noResult : ∀ itemId item, s.db.items.get? itemId = some item →
    item.status = .pending ∨ item.status = .running → item.resultJson = none

section

variable {s s' : JobRun}

lemma workers_updateWorker (threadId : ThreadId) (f : Worker → Worker) :
    (s.updateWorker threadId f).workers =
      Function.update s.workers threadId ((s.workers threadId).map f) := rfl

/-- Whatever is assigned was assigned before, to the same item, and nothing is taken back of what is known
about the workers. -/
structure Grows (s s' : JobRun) : Prop where
  before : ∀ threadId worker', s'.workers threadId = some worker' → worker'.assigned →
    ∃ worker, s.workers threadId = some worker ∧ worker.assigned ∧ worker'.itemId = worker.itemId ∧
      (Spent s worker → Spent s' worker')
  tracked : ∀ threadId itemId, Tracked s threadId itemId → Tracked s' threadId itemId

lemma Grows.given (h : Grows s s') {itemId : Text} (hgiven : GivenUp s itemId) : GivenUp s' itemId := by
  intro threadId worker' hworker' hitem hassigned'
  obtain ⟨worker, hworker, hassigned, hkey, hspent⟩ := h.before threadId worker' hworker' hassigned'
  exact hspent (hgiven threadId worker hworker (hkey.symm.trans hitem) hassigned)

/-- The rows stay, and the workers come further. -/
lemma Consistent.of_grows (h : Consistent s) (hg : Grows s s') (hitems : s'.db.items = s.db.items)
    (hknown : ∀ threadId worker, s'.workers threadId = some worker →
      ∃ item, s.db.items.get? worker.itemId = some item)
    (hactive : ∀ threadId entry, s'.activeItems.lookup threadId = some entry →
      ∃ worker, s'.workers threadId = some worker ∧ worker.itemId = entry.itemId ∧ worker.assigned ∧
        worker.startedAt = some entry.startedAt)
    (hsettled : ∀ threadId worker, s'.workers threadId = some worker → worker.assigned →
      isFinal worker.status → Spent s' worker) : Consistent s' where
  known := by rwa [hitems]
  busy := by
    rw [hitems]
    intro threadId worker' item hworker' hassigned' hitem
    obtain ⟨worker, hworker, hassigned, hkey, -⟩ := hg.before threadId worker' hworker' hassigned'
    exact h.busy threadId worker item hworker hassigned (hkey ▸ hitem)
  alone := by
    intro a worker' b workerB' ha' hb' hassigned' hassignedB' heq
    obtain ⟨worker, ha, hassigned, hkey, -⟩ := hg.before a worker' ha' hassigned'
    obtain ⟨workerB, hb, hassignedB, hkeyB, -⟩ := hg.before b workerB' hb' hassignedB'
    exact h.alone a worker b workerB ha hb hassigned hassignedB (hkey.symm.trans (heq.trans hkeyB))
  held := by
    rw [hitems]
    intro threadId worker' hworker' hassigned' hspent'
    obtain ⟨worker, hworker, hassigned, hkey, hspent⟩ := hg.before threadId worker' hworker' hassigned'
    rw [hkey]
    exact h.held threadId worker hworker hassigned fun hbefore => hspent' (hspent hbefore)
  owner := by
    rw [hitems]
    intro itemId item threadId hitem hrunning howner
    exact hg.tracked threadId itemId (h.owner itemId item threadId hitem hrunning howner)
  active := hactive
  settled := hsettled
  noResult := by
    rw [hitems]
    exact h.noResult

variable {f : Worker → Worker} {threadId threadId' : ThreadId} {worker' : Worker}

lemma of_updateWorker (h : (s.updateWorker threadId f).workers threadId' = some worker') :
    ∃ worker, s.workers threadId' = some worker ∧
      worker' = if threadId' = threadId then f worker else worker := by
  by_cases heq : threadId' = threadId
  · rw [workers_updateWorker, heq, Function.update_self, Option.map_eq_some_iff] at h
    obtain ⟨worker, hworker, rfl⟩ := h
    exact ⟨worker, heq ▸ hworker, by rw [if_pos heq]⟩
  · rw [workers_updateWorker, Function.update_of_ne heq] at h
    exact ⟨worker', h, by rw [if_neg heq]⟩

variable {worker : Worker}

lemma updateWorker_of (f : Worker → Worker) (h : s.workers threadId' = some worker) :
    (s.updateWorker threadId f).workers threadId' =
      some (if threadId' = threadId then f worker else worker) := by
  by_cases heq : threadId' = threadId
  · rw [workers_updateWorker, heq, Function.update_self, ← heq, h, Option.map_some, if_pos rfl]
  · rw [workers_updateWorker, Function.update_of_ne heq, h, if_neg heq]

/-! ## Changes of a worker -/

/-- A change of a worker that keeps its item and takes nothing back. -/
structure Harmless (s : JobRun) (f : Worker → Worker) : Prop where
  itemId : ∀ worker, (f worker).itemId = worker.itemId
  assigned : ∀ worker, (f worker).assigned = worker.assigned
  startedAt : ∀ worker startedAt, worker.startedAt = some startedAt →
    (f worker).startedAt = some startedAt
  reported : ∀ worker, worker.reported → (f worker).reported
  finished : ∀ worker, worker.finished → (f worker).finished

lemma Harmless.spent (hf : Harmless s f) (h : Spent s worker) :
    Spent s (f worker) := by
  obtain h | h | ⟨startedAt, hstarted, helapsed⟩ := h
  · exact .inl (hf.reported worker h)
  · exact .inr (.inl (hf.finished worker h))
  · exact .inr (.inr ⟨startedAt, hf.startedAt worker startedAt hstarted, helapsed⟩)

lemma Harmless.ite (hf : Harmless s f) (p : Prop) [Decidable p] :
    Harmless s fun worker => if p then f worker else worker := by
  by_cases hp : p
  · simpa only [if_pos hp] using hf
  · simp only [if_neg hp]
    exact ⟨fun _ => rfl, fun _ => rfl, fun _ _ h => h, fun _ h => h, fun _ h => h⟩

variable {itemId : Text}

lemma Grows.updateWorker (hf : Harmless s f) (threadId : ThreadId) :
    Grows s (s.updateWorker threadId f) where
  before := by
    intro threadId' worker' hworker' hassigned
    obtain ⟨worker, hworker, rfl⟩ := of_updateWorker hworker'
    have hite := hf.ite (threadId' = threadId)
    rw [hite.assigned] at hassigned
    exact ⟨worker, hworker, hassigned, hite.itemId worker, hite.spent⟩
  tracked := by
    rintro threadId' itemId ⟨worker, hworker, hitem, hassigned⟩
    have hite := hf.ite (threadId' = threadId)
    exact ⟨_, updateWorker_of f hworker, (hite.itemId worker).trans hitem,
      (hite.assigned worker).trans hassigned⟩

lemma Consistent.updateWorker (h : Consistent s) (hf : Harmless s f)
    (hsettled : ∀ worker, s.workers threadId = some worker → worker.assigned →
      isFinal (f worker).status → Spent s (f worker)) :
    Consistent (s.updateWorker threadId f) := by
  refine h.of_grows (.updateWorker hf threadId) rfl ?_ ?_ ?_
  · intro threadId' worker' hworker'
    obtain ⟨worker, hworker, rfl⟩ := of_updateWorker hworker'
    rw [(hf.ite (threadId' = threadId)).itemId]
    exact h.known threadId' worker hworker
  · intro threadId' entry hentry
    obtain ⟨worker, hworker, hitem, hassigned, hstarted⟩ := h.active threadId' entry hentry
    have hite := hf.ite (threadId' = threadId)
    exact ⟨_, updateWorker_of f hworker, (hite.itemId worker).trans hitem,
      (hite.assigned worker).trans hassigned, hite.startedAt worker entry.startedAt hstarted⟩
  · intro threadId' worker' hworker' hassigned hfinal
    obtain ⟨worker, hworker, rfl⟩ := of_updateWorker hworker'
    rw [(hf.ite (threadId' = threadId)).assigned] at hassigned
    split_ifs at hfinal ⊢ with heq
    · exact hsettled worker (heq ▸ hworker) hassigned hfinal
    · exact h.settled threadId' worker hworker hassigned hfinal

lemma updateWorker_congr {f g : Worker → Worker}
    (h : ∀ worker, s.workers threadId = some worker → f worker = g worker) :
    s.updateWorker threadId f = s.updateWorker threadId g := by
  rw [updateWorker, Option.map_congr h]
  rfl

/-! ## Changes of a row -/

/-- A running item is completed or failed, which no thread still works on. -/
lemma Consistent.updateItem {guard : AgentJobItem → Bool}
    {set : AgentJobItem → AgentJobItem} {hset : ∀ item, (set item).itemId = item.itemId}
    (h : Consistent s)
    (hclosed : ∀ item, (set item).status = .completed ∨ (set item).status = .failed)
    (hgiven : ∀ item, s.db.items.get? itemId = some item → guard item → GivenUp s itemId) :
    Consistent { s with db := s.db.updateItem itemId guard set hset } where
  known := by
    intro threadId worker hworker
    obtain ⟨item, hitem⟩ := h.known threadId worker hworker
    exact ⟨_, get?_updateItem hitem⟩
  busy := by
    intro threadId worker item' hworker hassigned hitem'
    obtain ⟨item, hitem, rfl⟩ := of_get?_updateItem hitem'
    split
    · obtain hstatus | hstatus := hclosed item <;> (rw [hstatus]; decide)
    · exact h.busy threadId worker item hworker hassigned hitem
  alone := h.alone
  held := by
    intro threadId worker hworker hassigned hspent
    obtain ⟨item, hitem, hrunning, howner⟩ := h.held threadId worker hworker hassigned hspent
    refine ⟨_, get?_updateItem hitem, ?_⟩
    rw [if_neg]
    · exact ⟨hrunning, howner⟩
    · rintro ⟨hkey, hguard⟩
      have hsame : worker.itemId = itemId := (key_of_get? hitem).symm.trans hkey
      rw [hsame] at hitem
      exact hspent (hgiven item hitem hguard threadId worker hworker hsame hassigned)
  owner := by
    intro itemId' item' threadId hitem' hrunning howner
    obtain ⟨item, hitem, rfl⟩ := of_get?_updateItem hitem'
    split at hrunning
    · obtain hstatus | hstatus := hclosed item <;> (rw [hstatus] at hrunning; cases hrunning)
    · rename_i hguard
      rw [if_neg hguard] at howner
      exact h.owner itemId' item threadId hitem hrunning howner
  active := h.active
  settled := h.settled
  noResult := by
    intro itemId' item' hitem' hopen
    obtain ⟨item, hitem, rfl⟩ := of_get?_updateItem hitem'
    split at hopen
    · obtain hstatus | hstatus := hclosed item <;> (rw [hstatus] at hopen; simp at hopen)
    · rename_i hguard
      rw [if_neg hguard]
      exact h.noResult itemId' item hitem hopen

variable {phase : RunnerPhase}

/-! ## The assignment of an item -/

/-- The state in which a pending item is assigned to the worker that was spawned for it. -/
def JobRun.handOut (s : JobRun) (itemId : Text) (threadId : ThreadId) (phase : RunnerPhase) : JobRun :=
  { s with
    db := s.db.markAgentJobItemRunningWithThread s.timestamp itemId threadId
    phase := phase }.updateWorker threadId fun worker => { worker with assigned := true }

section Assignment

variable {itemId : Text} {threadId : ThreadId} {item : AgentJobItem}
  (h : Consistent s) (hworker : s.workers threadId = some worker) (hitemId : worker.itemId = itemId)
  (hunassigned : worker.assigned = false) (hitem : s.db.items.get? itemId = some item)
  (hpending : item.status = .pending)

include hworker in
/-- An assigned worker is the new one, or was one before. -/
lemma of_handOut (hworker' : (s.handOut itemId threadId phase).workers threadId' = some worker')
    (hassigned : worker'.assigned) :
    (threadId' = threadId ∧ worker' = { worker with assigned := true }) ∨
      (s.workers threadId' = some worker' ∧ worker'.assigned) := by
  obtain ⟨worker₀, hworker₀, rfl⟩ := of_updateWorker hworker'
  replace hworker₀ : s.workers threadId' = some worker₀ := hworker₀
  by_cases heq : threadId' = threadId
  · subst heq
    rw [hworker] at hworker₀
    cases hworker₀
    exact .inl ⟨rfl, if_pos rfl⟩
  · rw [if_neg heq] at hassigned ⊢
    exact .inr ⟨hworker₀, hassigned⟩

include hworker hunassigned in
/-- The workers that were assigned an item before keep it. -/
lemma workers_handOut (hworker' : s.workers threadId' = some worker') (hassigned : worker'.assigned)
    :
    (s.handOut itemId threadId phase).workers threadId' = some worker' := by
  refine (updateWorker_of _ hworker').trans (congrArg some (if_neg ?_))
  rintro rfl
  rw [hworker] at hworker'
  cases hworker'
  rw [hunassigned] at hassigned
  cases hassigned

include h hitem hpending

/-- Nobody was assigned the item before. -/
lemma nobody_of_pending (hworker' : s.workers threadId' = some worker')
    (hassigned : worker'.assigned) :
    worker'.itemId ≠ itemId := by
  intro heq
  exact h.busy threadId' worker' item hworker' hassigned (heq ▸ hitem) hpending

include hworker hitemId

lemma busy_handOut {item' : AgentJobItem}
    (hworker' : (s.handOut itemId threadId phase).workers threadId' = some worker')
    (hassigned : worker'.assigned)
    (hitem' : (s.handOut itemId threadId phase).db.items.get? worker'.itemId = some item') :
    item'.status ≠ .pending := by
  obtain ⟨item₀, hitem₀, rfl⟩ := of_get?_updateItem hitem'
  obtain ⟨rfl, rfl⟩ | ⟨hworker', hassigned⟩ := of_handOut hworker hworker' hassigned
  · have hsame : item₀ = item := by
      rw [show s.db.items.get? worker.itemId = some item from hitemId ▸ hitem] at hitem₀
      exact (Option.some.inj hitem₀).symm
    rw [hsame, if_pos ⟨key_of_get? hitem, decide_eq_true hpending⟩]
    exact noConfusion
  · split
    · exact noConfusion
    · exact h.busy threadId' worker' item₀ hworker' hassigned hitem₀

lemma alone_handOut {a b : ThreadId} {workerA workerB : Worker}
    (ha : (s.handOut itemId threadId phase).workers a = some workerA)
    (hb : (s.handOut itemId threadId phase).workers b = some workerB)
    (hassignedA : workerA.assigned) (hassignedB : workerB.assigned)
    (heq : workerA.itemId = workerB.itemId) : a = b := by
  obtain ⟨rfl, rfl⟩ | ⟨hbeforeA, hheldA⟩ := of_handOut hworker ha hassignedA
  · obtain ⟨rfl, rfl⟩ | ⟨hbeforeB, hheldB⟩ := of_handOut hworker hb hassignedB
    · rfl
    · exact absurd (heq.symm.trans hitemId) (nobody_of_pending h hitem hpending hbeforeB hheldB)
  · obtain ⟨rfl, rfl⟩ | ⟨hbeforeB, hheldB⟩ := of_handOut hworker hb hassignedB
    · exact absurd (heq.trans hitemId) (nobody_of_pending h hitem hpending hbeforeA hheldA)
    · exact h.alone a workerA b workerB hbeforeA hbeforeB hheldA hheldB heq

lemma held_handOut (hworker' : (s.handOut itemId threadId phase).workers threadId' = some worker')
    (hassigned : worker'.assigned) (hspent : ¬ Spent s worker') :
    ∃ item, (s.handOut itemId threadId phase).db.items.get? worker'.itemId = some item ∧
      item.status = .running ∧ item.assignedThreadId = some threadId' := by
  obtain ⟨rfl, rfl⟩ | ⟨hworker', hassigned⟩ := of_handOut hworker hworker' hassigned
  · refine ⟨_, get?_updateItem (hitemId ▸ hitem), ?_⟩
    rw [if_pos ⟨key_of_get? hitem, decide_eq_true hpending⟩]
    exact ⟨rfl, rfl⟩
  · obtain ⟨item₀, hitem₀, hrunning, howner⟩ := h.held threadId' worker' hworker' hassigned hspent
    refine ⟨_, get?_updateItem hitem₀, ?_⟩
    rw [if_neg]
    · exact ⟨hrunning, howner⟩
    · rintro ⟨-, hpending₀⟩
      rw [isPending, decide_eq_true_eq, hrunning] at hpending₀
      cases hpending₀

include hunassigned

omit hitem hpending in
lemma owner_handOut {itemId' : Text} {item' : AgentJobItem}
    (hitem' : (s.handOut itemId threadId phase).db.items.get? itemId' = some item')
    (hrunning : item'.status = .running) (howner : item'.assignedThreadId = some threadId') :
    Tracked (s.handOut itemId threadId phase) threadId' itemId' := by
  obtain ⟨item₀, hitem₀, rfl⟩ := of_get?_updateItem hitem'
  split at howner
  · rename_i hguard
    cases howner
    refine ⟨_, updateWorker_of _ hworker, ?_, ?_⟩
    · rw [if_pos rfl]
      exact hitemId.trans (hguard.1.symm.trans (key_of_get? hitem₀))
    · rw [if_pos rfl]
  · rename_i hguard
    rw [if_neg hguard] at hrunning
    obtain ⟨worker₀, hworker₀, hitem₀, hassigned₀⟩ :=
      h.owner itemId' item₀ threadId' hitem₀ hrunning howner
    exact ⟨worker₀, workers_handOut hworker hunassigned hworker₀ hassigned₀, hitem₀, hassigned₀⟩

/-- A pending item is assigned to the worker that was spawned for it. -/
lemma Consistent.handOut (hfinal : isFinal worker.status → worker.finished) :
    Consistent (s.handOut itemId threadId phase) where
  known := by
    intro threadId' worker' hworker'
    obtain ⟨worker₀, hworker₀, rfl⟩ := of_updateWorker hworker'
    obtain ⟨item₀, hitem₀⟩ := h.known threadId' worker₀ hworker₀
    refine ⟨_, @get?_updateItem s.db _ _ _ _ _ item₀ ?_⟩
    split <;> exact hitem₀
  busy := fun _ _ _ => busy_handOut h hworker hitemId hitem hpending
  alone := fun _ _ _ _ => alone_handOut h hworker hitemId hitem hpending
  held := fun _ _ => held_handOut h hworker hitemId hitem hpending
  owner := fun _ _ _ => owner_handOut h hworker hitemId hunassigned
  active := by
    intro threadId' entry hentry
    obtain ⟨worker₀, hworker₀, hitem₀, hassigned₀, hstarted₀⟩ := h.active threadId' entry hentry
    exact ⟨worker₀, workers_handOut hworker hunassigned hworker₀ hassigned₀, hitem₀, hassigned₀, hstarted₀⟩
  settled := by
    intro threadId' worker' hworker' hassigned hstatus
    obtain ⟨rfl, rfl⟩ | ⟨hworker', hassigned⟩ := of_handOut hworker hworker' hassigned
    · exact .inr (.inl (hfinal hstatus))
    · exact h.settled threadId' worker' hworker' hassigned hstatus
  noResult := by
    intro itemId' item' hitem' hopen
    obtain ⟨item₀, hitem₀, rfl⟩ := of_get?_updateItem hitem'
    split
    · rename_i hguard
      exact h.noResult itemId' item₀ hitem₀ (.inl (of_decide_eq_true hguard.2))
    · rename_i hguard
      rw [if_neg hguard] at hopen
      exact h.noResult itemId' item₀ hitem₀ hopen

end Assignment

/-! ## Other changes -/

/-- The items, the clock and the workers are the same, and no active item is new. -/
structure SameWork (s s' : JobRun) : Prop where
  items : s'.db.items = s.db.items
  timeout : s'.runtimeTimeout = s.runtimeTimeout
  now : s'.now = s.now
  workers : s'.workers = s.workers
  active : ∀ threadId entry, s'.activeItems.lookup threadId = some entry →
    s.activeItems.lookup threadId = some entry

namespace SameWork

lemma spent (h : SameWork s s') (worker : Worker) : Spent s' worker ↔ Spent s worker := by
  rw [Spent, Spent, Elapsed, Elapsed, h.timeout, h.now]

lemma grows (h : SameWork s s') : Grows s s' where
  before := by
    intro threadId worker hworker hassigned
    rw [h.workers] at hworker
    exact ⟨worker, hworker, hassigned, rfl, (h.spent worker).mpr⟩
  tracked := by
    rintro threadId itemId ⟨worker, hworker, hrest⟩
    exact ⟨worker, h.workers ▸ hworker, hrest⟩

lemma consistent (h : SameWork s s') (hs : Consistent s) : Consistent s' := by
  refine hs.of_grows h.grows h.items ?_ ?_ ?_ <;> rw [h.workers]
  · exact hs.known
  · exact fun threadId entry hentry => hs.active threadId entry (h.active threadId entry hentry)
  · exact fun threadId worker hworker hassigned hfinal =>
      (h.spent worker).mpr (hs.settled threadId worker hworker hassigned hfinal)

end SameWork

lemma Consistent.insertActive (h : Consistent s) {entry : ActiveJobItem}
    (hworker : ∃ worker, s.workers threadId = some worker ∧ worker.itemId = entry.itemId ∧
      worker.assigned ∧ worker.startedAt = some entry.startedAt) :
    Consistent { s with activeItems := s.activeItems.insert threadId entry } := by
  refine h.of_grows ⟨fun _ worker hworker hassigned => ⟨worker, hworker, hassigned, rfl, id⟩, fun _ _ => id⟩ rfl
    h.known ?_ h.settled
  intro threadId' entry' hentry
  by_cases heq : threadId' = threadId
  · subst heq
    rw [AList.lookup_insert] at hentry
    cases hentry
    exact hworker
  · rw [AList.lookup_insert_ne heq] at hentry
    exact h.active threadId' entry' hentry

lemma sameWork_eraseActive (s : JobRun) (threadId : ThreadId) :
    SameWork s { s with activeItems := s.activeItems.erase threadId } := by
  refine ⟨rfl, rfl, rfl, rfl, fun threadId' entry hentry => ?_⟩
  by_cases heq : threadId' = threadId
  · rw [heq, AList.lookup_erase] at hentry
    cases hentry
  · rwa [AList.lookup_erase_ne heq] at hentry

/-- A worker that was spawned for an item has not been assigned it yet. -/
lemma Consistent.spawn (h : Consistent s)
    (hnew : s.workers threadId = none) (hitem : ∃ item, s.db.items.get? itemId = some item) :
    Consistent { s with workers := Function.update s.workers threadId (some (.spawned itemId)) } := by
  have hworkers : ∀ threadId' worker, Function.update s.workers threadId (some (.spawned itemId)) threadId' =
      some worker → worker = .spawned itemId ∨ s.workers threadId' = some worker := by
    intro threadId' worker hworker
    by_cases heq : threadId' = threadId
    · rw [heq, Function.update_self] at hworker
      exact .inl (Option.some.inj hworker).symm
    · rw [Function.update_of_ne heq] at hworker
      exact .inr hworker
  have hassigned : ∀ threadId' worker, Function.update s.workers threadId (some (.spawned itemId)) threadId' =
      some worker → worker.assigned → s.workers threadId' = some worker := by
    intro threadId' worker hworker hassigned
    obtain rfl | hbefore := hworkers threadId' worker hworker
    · cases hassigned
    · exact hbefore
  have hkept : ∀ threadId' worker, s.workers threadId' = some worker →
      Function.update s.workers threadId (some (.spawned itemId)) threadId' = some worker := by
    intro threadId' worker hworker
    rw [Function.update_of_ne]
    · exact hworker
    · rintro rfl
      rw [hnew] at hworker
      cases hworker
  refine h.of_grows ⟨?_, ?_⟩ rfl ?_ ?_ ?_
  · intro threadId' worker hworker hheld
    exact ⟨worker, hassigned threadId' worker hworker hheld, hheld, rfl, id⟩
  · rintro threadId' itemId' ⟨worker, hworker, hrest⟩
    exact ⟨worker, hkept threadId' worker hworker, hrest⟩
  · intro threadId' worker hworker
    obtain rfl | hbefore := hworkers threadId' worker hworker
    · exact hitem
    · exact h.known threadId' worker hbefore
  · intro threadId' entry hentry
    obtain ⟨worker, hworker, hrest⟩ := h.active threadId' entry hentry
    exact ⟨worker, hkept threadId' worker hworker, hrest⟩
  · intro threadId' worker hworker hheld
    exact h.settled threadId' worker (hassigned threadId' worker hworker hheld) hheld

lemma Spent.elapse (h : Spent s worker) (milliseconds : ℕ) :
    Spent { s with now := s.now + milliseconds } worker := by
  obtain h | h | ⟨startedAt, hstarted, helapsed⟩ := h
  · exact .inl h
  · exact .inr (.inl h)
  · refine .inr (.inr ⟨startedAt, hstarted, ?_⟩)
    show startedAt + s.runtimeTimeout ≤ s.now + milliseconds
    omega

lemma Grows.elapse (s : JobRun) (milliseconds : ℕ) :
    Grows s { s with now := s.now + milliseconds } where
  before := fun _ worker hworker hassigned => ⟨worker, hworker, hassigned, rfl, (·.elapse milliseconds)⟩
  tracked := fun _ _ => id

lemma Consistent.elapse (h : Consistent s) (milliseconds : ℕ) :
    Consistent { s with now := s.now + milliseconds } :=
  h.of_grows (.elapse s milliseconds) rfl h.known h.active fun threadId worker hworker hassigned hfinal =>
    (h.settled threadId worker hworker hassigned hfinal).elapse milliseconds

/-! ## The invariant -/

/-- An item that the runner closes, with the thread that it was assigned to. -/
def Closing (s : JobRun) (entry : ThreadId × Text) : Prop :=
  GivenUp s entry.2 ∧ Tracked s entry.1 entry.2

/-- Whatever was assigned to the thread, it may not report any more. -/
def ThreadSpent (s : JobRun) (threadId : ThreadId) : Prop :=
  ∀ worker, s.workers threadId = some worker → worker.assigned → Spent s worker

lemma Closing.threadSpent (h : Closing s (threadId, itemId)) :
    ThreadSpent s threadId := by
  obtain ⟨hgiven, worker, hworker, hitem, -⟩ := h
  intro worker' hworker' hassigned
  rw [hworker] at hworker'
  cases hworker'
  exact hgiven threadId worker hworker hitem hassigned

/-- What holds of the loop that the runner is in. -/
def Resume.Justified (s : JobRun) : Resume → Prop
  | recovering items => items = []
  | spawning _ => True
  | reaping stale => ∀ entry ∈ stale, Closing s entry
  | finishing finished => ∀ entry ∈ finished, Closing s entry

/-- What holds of the next step of the runner. -/
def RunnerPhase.Justified (s : JobRun) : RunnerPhase → Prop
  | buildingOptions | markingRunning | listingRunning =>
    ∀ itemId item, s.db.items.get? itemId = some item → item.status = .pending
  | resuming rest => rest.Justified s
  | assigning itemId threadId _ => ∃ worker, s.workers threadId = some worker ∧
      worker.itemId = itemId ∧ worker.assigned = false ∧ worker.startedAt = none ∧
      (isFinal worker.status → worker.finished)
  | activating itemId threadId _ => ∃ worker, s.workers threadId = some worker ∧
      worker.itemId = itemId ∧ worker.assigned ∧ worker.startedAt = none
  | failingItem itemId _ threadId rest => GivenUp s itemId ∧ rest.Justified s ∧
      ∀ thread, threadId = some thread → ThreadSpent s thread
  | completingItem _ threadId rest => rest.Justified s ∧ ThreadSpent s threadId
  | shuttingDown threadId rest => rest.Justified s ∧ ThreadSpent s threadId
  | finalizing itemId threadId rest => Closing s (threadId, itemId) ∧ rest.Justified s
  | readingStatus left found => (∀ entry ∈ left, Tracked s entry.1 entry.2) ∧
      ∀ entry ∈ found, Closing s entry
  | _ => True

/-- The invariant of a job that runs. -/
structure Inv (s : JobRun) : Prop where
  consistent : Consistent s
  justified : s.phase.Justified s
  queued : Queued s

lemma Grows.spent (h : Grows s s') (hspent : ThreadSpent s threadId) :
    ThreadSpent s' threadId := by
  intro worker' hworker' hassigned'
  obtain ⟨worker, hworker, hassigned, -, hback⟩ := h.before threadId worker' hworker' hassigned'
  exact hback (hspent worker hworker hassigned)

variable {entry : ThreadId × Text}

lemma Grows.closing (h : Grows s s') (hentry : Closing s entry) :
    Closing s' entry :=
  ⟨h.given hentry.1, h.tracked _ _ hentry.2⟩

variable {rest : Resume}

lemma Grows.resume (h : Grows s s') (hrest : rest.Justified s) : rest.Justified s' := by
  cases rest with
  | recovering items => exact hrest
  | spawning items => trivial
  | reaping stale | finishing finished => exact fun entry hentry => h.closing (hrest entry hentry)

/-- The next step of the runner stays justified while others move. -/
lemma Grows.justified (h : Grows s s')
    (hrows : (∀ itemId item, s.db.items.get? itemId = some item → item.status = .pending) →
      ∀ itemId item, s'.db.items.get? itemId = some item → item.status = .pending)
    (hworkers : ∀ threadId worker, s.workers threadId = some worker →
      ∃ worker', s'.workers threadId = some worker' ∧ worker'.itemId = worker.itemId ∧
        worker'.assigned = worker.assigned ∧ worker'.startedAt = worker.startedAt ∧
        ((isFinal worker.status → worker.finished) → isFinal worker'.status → worker'.finished))
    (hjustified : phase.Justified s) : phase.Justified s' := by
  cases phase with
  | buildingOptions | markingRunning | listingRunning => exact hrows hjustified
  | resuming rest => exact h.resume hjustified
  | assigning itemId threadId items =>
    obtain ⟨worker, hworker, hitem, hassigned, hstarted, hfinal⟩ := hjustified
    obtain ⟨worker', hworker', hitem', hassigned', hstarted', hfinal'⟩ :=
      hworkers threadId worker hworker
    exact ⟨worker', hworker', hitem'.trans hitem, hassigned'.trans hassigned,
      hstarted'.trans hstarted, hfinal' hfinal⟩
  | activating itemId threadId items =>
    obtain ⟨worker, hworker, hitem, hassigned, hstarted⟩ := hjustified
    obtain ⟨worker', hworker', hitem', hassigned', hstarted', -⟩ := hworkers threadId worker hworker
    exact ⟨worker', hworker', hitem'.trans hitem, hassigned'.trans hassigned,
      hstarted'.trans hstarted⟩
  | failingItem itemId errorMessage threadId rest =>
    exact ⟨h.given hjustified.1, h.resume hjustified.2.1,
      fun thread hthread => h.spent (hjustified.2.2 thread hthread)⟩
  | completingItem itemId threadId rest =>
    exact ⟨h.resume hjustified.1, h.spent hjustified.2⟩
  | shuttingDown threadId rest => exact ⟨h.resume hjustified.1, h.spent hjustified.2⟩
  | finalizing itemId threadId rest => exact ⟨h.closing hjustified.1, h.resume hjustified.2⟩
  | readingStatus left found =>
    exact ⟨fun entry hentry => h.tracked _ _ (hjustified.1 entry hentry),
      fun entry hentry => h.closing (hjustified.2 entry hentry)⟩
  | _ => trivial

lemma SameWork.justified (h : SameWork s s') (hphase : phase.Justified s) :
    phase.Justified s' := by
  refine h.grows.justified ?_ ?_ hphase
  · rw [h.items]
    exact id
  · intro threadId worker hworker
    exact ⟨worker, h.workers ▸ hworker, rfl, rfl, rfl, id⟩

/-! ## The steps of the runner -/

section

variable (h : Consistent s)
include h

lemma Consistent.tracked_of_mem {entry : Sigma fun _ : ThreadId => ActiveJobItem}
    (hentry : entry ∈ s.activeItems.entries) :
    ∃ worker, s.workers entry.1 = some worker ∧ worker.itemId = entry.2.itemId ∧ worker.assigned ∧
      worker.startedAt = some entry.2.startedAt :=
  h.active entry.1 entry.2 (AList.mem_lookup_iff.mpr hentry)

lemma Consistent.givenUp_of_spent (hworker : s.workers threadId = some worker)
    (hassigned : worker.assigned) (hspent : Spent s worker) :
    GivenUp s worker.itemId := by
  intro threadId' worker' hworker' hitem hassigned'
  have hsame := h.alone threadId' worker' threadId worker hworker' hworker hassigned' hassigned hitem
  rw [hsame, hworker] at hworker'
  cases hworker'
  exact hspent

lemma Consistent.givenUp_of_pending {item : AgentJobItem}
    (hitem : s.db.items.get? itemId = some item) (hpending : item.status = .pending) :
    GivenUp s itemId := by
  intro threadId worker hworker hkey hassigned
  exact absurd hpending (h.busy threadId worker item hworker hassigned (hkey ▸ hitem))

lemma Consistent.closing_of_mem_stale (hentry : entry ∈ s.staleItems) : Closing s entry := by
  rw [staleItems, List.mem_map] at hentry
  obtain ⟨active, hactive, rfl⟩ := hentry
  rw [List.mem_filter, decide_eq_true_eq] at hactive
  obtain ⟨worker, hworker, hitem, hassigned, hstarted⟩ := h.tracked_of_mem hactive.1
  have hspent : Spent s worker := .inr (.inr ⟨_, hstarted, hactive.2⟩)
  exact ⟨hitem ▸ h.givenUp_of_spent hworker hassigned hspent, worker, hworker, hitem, hassigned⟩

lemma Consistent.tracked_of_mem_trackedItems (hentry : entry ∈ s.trackedItems)
    : Tracked s entry.1 entry.2 := by
  rw [trackedItems, List.mem_map] at hentry
  obtain ⟨active, hactive, rfl⟩ := hentry
  obtain ⟨worker, hworker, hitem, hassigned, -⟩ := h.tracked_of_mem hactive
  exact ⟨worker, hworker, hitem, hassigned⟩

lemma Consistent.closing_of_isFinal (htracked : Tracked s threadId itemId)
    (hfinal : isFinal (s.getStatus threadId)) :
    Closing s (threadId, itemId) := by
  obtain ⟨worker, hworker, hitem, hassigned⟩ := htracked
  rw [getStatus, hworker] at hfinal
  have hspent := h.settled threadId worker hworker hassigned hfinal
  exact ⟨hitem ▸ h.givenUp_of_spent hworker hassigned hspent, worker, hworker, hitem, hassigned⟩

lemma Consistent.move (hphase : s'.phase.Justified s)
    (hsame : SameWork s s' := by exact ⟨rfl, rfl, rfl, rfl, fun _ _ => id⟩) :
    Consistent s' ∧ s'.phase.Justified s' :=
  ⟨hsame.consistent h, hsame.justified hphase⟩

/-- An item that is given up may be closed. -/
lemma Consistent.closeItem {guard : AgentJobItem → Bool}
    {set : AgentJobItem → AgentJobItem} {hset : ∀ item, (set item).itemId = item.itemId}
    (hclosed : ∀ item, (set item).status = .completed ∨ (set item).status = .failed)
    (hgiven : ∀ item, s.db.items.get? itemId = some item → guard item → GivenUp s itemId)
    (hphase : phase.Justified { s with db := s.db.updateItem itemId guard set hset }) :
    Consistent { s with db := s.db.updateItem itemId guard set hset, phase := phase } ∧
      phase.Justified { s with db := s.db.updateItem itemId guard set hset, phase := phase } := by
  have hsame : SameWork { s with db := s.db.updateItem itemId guard set hset }
      { s with db := s.db.updateItem itemId guard set hset, phase := phase } :=
    ⟨rfl, rfl, rfl, rfl, fun _ _ => id⟩
  exact ⟨hsame.consistent (h.updateItem hclosed hgiven), hsame.justified hphase⟩

end

lemma Inv.resume (h : Inv s) (hrest : rest.Justified s) (hnext : s.resume rest = some s') :
    Consistent s' ∧ s'.phase.Justified s' := by
  revert hnext
  fun_cases s.resume rest with
  | case1 =>
    intro hnext
    cases hnext
    exact h.consistent.move trivial
  | case2 item items => cases hrest
  | case3 =>
    intro hnext
    cases hnext
    exact h.consistent.move trivial
  | case4 => simp
  | case5 =>
    intro hnext
    cases hnext
    exact h.consistent.move trivial
  | case6 threadId itemId stale =>
    intro hnext
    cases hnext
    have hhead : Closing s (threadId, itemId) := hrest _ List.mem_cons_self
    refine h.consistent.move ⟨hhead.1, ?_, ?_⟩
    · exact fun entry hentry => hrest entry (List.mem_cons_of_mem _ hentry)
    · rintro thread ⟨⟩
      exact hhead.threadSpent
  | case7 =>
    intro hnext
    cases hnext
    exact h.consistent.move trivial
  | case8 threadId itemId finished =>
    intro hnext
    cases hnext
    refine h.consistent.move ⟨hrest _ List.mem_cons_self, ?_⟩
    exact fun entry hentry => hrest entry (List.mem_cons_of_mem _ hentry)

lemma Inv.assign (h : Inv s) {items : List AgentJobItem}
    (hphase : s.phase = .assigning itemId threadId items) :
    Consistent (s.assign itemId threadId items) ∧
      (s.assign itemId threadId items).phase.Justified (s.assign itemId threadId items) := by
  have hjustified := h.justified
  rw [hphase] at hjustified
  obtain ⟨worker, hworker, hitemId, hunassigned, hstarted, hfinal⟩ := hjustified
  obtain ⟨item, hitem, hpending⟩ := h.queued.pending itemId (by
    rw [hphase]
    exact List.mem_cons_self)
  have haffects : s.db.items.affects itemId isPending := by
    rw [affects_eq, hitem]
    exact decide_eq_true hpending
  rw [JobRun.assign, if_pos haffects]
  refine ⟨h.consistent.handOut hworker hitemId hunassigned hitem hpending hfinal, _,
    updateWorker_of _ hworker, ?_⟩
  rw [if_pos rfl]
  exact ⟨hitemId, rfl, hstarted⟩

lemma Inv.activate (h : Inv s) {items : List AgentJobItem}
    (hphase : s.phase = .activating itemId threadId items) :
    Consistent { s.activate threadId itemId s.now with phase := .resuming (.spawning items) } := by
  have hjustified := h.justified
  rw [hphase] at hjustified
  obtain ⟨worker, hworker, hitemId, hassigned, hstarted⟩ := hjustified
  -- only a worker without a start gets one
  let start (worker : Worker) : Worker :=
    if worker.startedAt = none then { worker with startedAt := some s.now } else worker
  have hstart : Harmless s start := by
    refine ⟨?_, ?_, ?_, ?_, ?_⟩
    · intro worker
      simp only [start]
      split <;> rfl
    · intro worker
      simp only [start]
      split <;> rfl
    · intro worker startedAt hstartedAt
      simp only [start]
      rw [if_neg (by rw [hstartedAt]; exact Option.some_ne_none _), hstartedAt]
    · intro worker hreported
      simp only [start]
      split <;> exact hreported
    · intro worker hfinished
      simp only [start]
      split <;> exact hfinished
  have hworkers : s.updateWorker threadId start =
      s.updateWorker threadId fun worker => { worker with startedAt := some s.now } := by
    refine updateWorker_congr fun worker' hworker' => ?_
    rw [hworker] at hworker'
    cases hworker'
    exact if_pos hstarted
  have hupdated : Consistent (s.updateWorker threadId start) := by
    refine h.consistent.updateWorker hstart fun worker' hworker' hassigned' hfinal => ?_
    apply hstart.spent
    refine h.consistent.settled threadId worker' hworker' hassigned' ?_
    simp only [start] at hfinal
    split at hfinal <;> exact hfinal
  rw [hworkers] at hupdated
  have hinserted := @Consistent.insertActive _ threadId hupdated ⟨itemId, s.now⟩ (by
    refine ⟨_, updateWorker_of _ hworker, ?_⟩
    rw [if_pos rfl]
    exact ⟨hitemId, hassigned, rfl⟩)
  refine SameWork.consistent ?_ hinserted
  exact ⟨rfl, rfl, rfl, rfl, fun _ _ => id⟩

lemma Inv.shutDown (h : Inv s)
    (hrest : rest.Justified s) (hspent : ThreadSpent s threadId) :
    Consistent (s.shutDown threadId rest) ∧ rest.Justified (s.shutDown threadId rest) := by
  have hstop : Harmless s fun worker => { worker with status := .notFound } :=
    ⟨fun _ => rfl, fun _ => rfl, fun _ _ h => h, fun _ h => h, fun _ h => h⟩
  have hstopped : Consistent (s.updateWorker threadId fun worker => { worker with status := .notFound }) :=
    h.consistent.updateWorker hstop fun worker hworker hassigned _ =>
      hstop.spent (hspent worker hworker hassigned)
  have hjustified := (Grows.updateWorker hstop threadId).resume hrest
  constructor
  · rw [JobRun.shutDown]
    split
    · refine SameWork.consistent ?_ ((sameWork_eraseActive _ threadId).consistent hstopped)
      exact ⟨rfl, rfl, rfl, rfl, fun _ _ => id⟩
    · refine SameWork.consistent ?_ hstopped
      exact ⟨rfl, rfl, rfl, rfl, fun _ _ => id⟩
  · cases rest with
    | recovering items => exact hjustified
    | spawning items => trivial
    | reaping stale | finishing finished => exact hjustified

lemma Inv.finalize (h : Inv s)
    (hclosing : Closing s (threadId, itemId)) (hrest : rest.Justified s) :
    Consistent (s.finalize itemId threadId rest) ∧
      (s.finalize itemId threadId rest).phase.Justified (s.finalize itemId threadId rest) := by
  rw [JobRun.finalize]
  split
  · exact h.consistent.move trivial
  split
  · split
    · exact h.consistent.move ⟨hrest, hclosing.threadSpent⟩
    · refine h.consistent.move ⟨hclosing.1, hrest, ?_⟩
      rintro thread ⟨⟩
      exact hclosing.threadSpent
  · exact h.consistent.move ⟨hrest, hclosing.threadSpent⟩

/-- As long as all items are pending, none is running. -/
lemma listAgentJobItems_running_eq_nil
    (h : ∀ itemId item, s.db.items.get? itemId = some item → item.status = .pending) :
    s.db.listAgentJobItems .running none = [] := by
  rw [List.eq_nil_iff_forall_not_mem]
  intro item hitem
  obtain ⟨hget, hrunning⟩ := mem_listAgentJobItems hitem
  rw [h _ item hget] at hrunning
  cases hrunning

lemma Inv.release (h : Inv s) (hphase : s.phase = .releasing itemId) :
    Consistent { s with db := s.db.markAgentJobItemPending s.timestamp itemId none, phase := .reaping } := by
  -- the item is pending already
  obtain ⟨item, hitem, hpending⟩ := h.queued.pending itemId (by
    rw [hphase]
    exact List.mem_singleton_self _)
  have hunaffected : s.db.items.affects itemId isRunning = false := by
    rw [affects_eq, hitem, Option.any_some, isRunning, hpending]
    rfl
  have hitems : (s.db.markAgentJobItemPending s.timestamp itemId none).items = s.db.items := by
    rw [markAgentJobItemPending, updateItem,
      update_of_not_affects hunaffected]
  have hsame : SameWork s
      { s with db := s.db.markAgentJobItemPending s.timestamp itemId none, phase := .reaping } :=
    ⟨hitems, rfl, rfl, rfl, fun _ _ => id⟩
  exact hsame.consistent h.consistent

/-- The threads whose status is final are found. -/
lemma Inv.readStatus (h : Inv s) {left found : List (ThreadId × Text)}
    (hphase : s.phase = .readingStatus ((threadId, itemId) :: left) found) :
    (∀ entry ∈ left, Tracked s entry.1 entry.2) ∧
      ∀ entry ∈ if isFinal (s.getStatus threadId) then found ++ [(threadId, itemId)] else found,
        Closing s entry := by
  have hjustified := h.justified
  rw [hphase] at hjustified
  refine ⟨fun entry hentry => hjustified.1 entry (List.mem_cons_of_mem _ hentry), ?_⟩
  split
  · rename_i hfinal
    intro entry hentry
    obtain hentry | hentry := List.mem_append.mp hentry
    · exact hjustified.2 entry hentry
    · rw [List.mem_singleton.mp hentry]
      exact h.consistent.closing_of_isFinal (hjustified.1 _ List.mem_cons_self) hfinal
  · exact hjustified.2

/-- The steps of the runner, phase by phase. -/
lemma Inv.proceed (h : Inv s) (hnext : s.proceed = some s') : Consistent s' ∧ s'.phase.Justified s' := by
  have hjustified := h.justified
  rw [JobRun.proceed] at hnext
  split at hnext
  case h_1 hphase | h_2 hphase =>
    rw [hphase] at hjustified
    cases hnext
    exact h.consistent.move hjustified
  case h_3 hphase =>
    rw [hphase] at hjustified
    cases hnext
    exact h.consistent.move (listAgentJobItems_running_eq_nil hjustified)
  case h_4 rest hphase =>
    rw [hphase] at hjustified
    exact h.resume hjustified hnext
  case h_7 hphase =>
    split at hnext <;> (cases hnext; exact h.consistent.move trivial)
  case h_8 itemId threadId items hphase =>
    cases hnext
    exact h.assign hphase
  case h_9 itemId threadId items hphase =>
    cases hnext
    exact ⟨h.activate hphase, trivial⟩
  case h_10 itemId hphase =>
    cases hnext
    exact ⟨h.release hphase, trivial⟩
  case h_11 itemId errorMessage threadId rest hphase =>
    rw [hphase] at hjustified
    cases hnext
    refine h.consistent.closeItem (fun _ => .inr rfl) (fun _ _ _ => hjustified.1) ?_
    cases threadId with
    | none => exact hjustified.2.1
    | some thread => exact ⟨hjustified.2.1, hjustified.2.2 thread rfl⟩
  case h_12 itemId threadId rest hphase =>
    rw [hphase] at hjustified
    cases hnext
    refine h.consistent.closeItem (fun _ => .inl rfl) (fun item hitem hguard => ?_) hjustified
    -- a running item has no result yet
    simp only [isRunningWithResult, Bool.and_eq_true, decide_eq_true_eq] at hguard
    rw [h.consistent.noResult itemId item hitem (.inr hguard.1)] at hguard
    cases hguard.2
  case h_13 threadId rest hphase =>
    rw [hphase] at hjustified
    cases hnext
    exact h.shutDown hjustified.1 hjustified.2
  case h_14 itemId threadId rest hphase =>
    rw [hphase] at hjustified
    cases hnext
    exact h.finalize hjustified.1 hjustified.2
  case h_17 found hphase =>
    rw [hphase] at hjustified
    cases hnext
    split
    · exact h.consistent.move trivial
    · exact h.consistent.move hjustified.2
  case h_18 threadId itemId left found hphase =>
    cases hnext
    exact h.consistent.move (h.readStatus hphase)
  case h_19 hphase | h_23 hphase =>
    cases hnext
    split <;> exact h.consistent.move trivial
  all_goals first
    | (cases hnext; done)
    | (cases hnext; exact h.consistent.move trivial)

/-! ## The steps of the others -/

lemma harmless_comeTo (status : ThreadHistory.AgentStatus) : Harmless s (.comeTo status) := by
  refine ⟨fun _ => rfl, fun _ => rfl, fun _ _ h => h, fun _ h => h, fun worker hfinished => ?_⟩
  show (worker.finished || isFinal status) = true
  rw [hfinished, Bool.true_or]

lemma finished_comeTo {status : ThreadHistory.AgentStatus} (worker : Worker)
    (hfinal : isFinal (worker.comeTo status).status) : (worker.comeTo status).finished := by
  show (worker.finished || isFinal status) = true
  rw [show isFinal status = true from hfinal, Bool.or_true]

lemma Inv.setStatus (h : Inv s) (threadId : ThreadId) (status : ThreadHistory.AgentStatus) :
    Consistent (s.setStatus threadId status) ∧ s.phase.Justified (s.setStatus threadId status) := by
  constructor
  · exact h.consistent.updateWorker (harmless_comeTo status) fun worker _ _ hfinal =>
      .inr (.inl (finished_comeTo worker hfinal))
  · refine (Grows.updateWorker (harmless_comeTo status) threadId).justified id ?_ h.justified
    intro threadId' worker hworker
    refine ⟨_, updateWorker_of _ hworker, ?_⟩
    split
    · exact ⟨rfl, rfl, rfl, fun _ => finished_comeTo worker⟩
    · exact ⟨rfl, rfl, rfl, id⟩

lemma harmless_reportOn (itemId : Text) : Harmless s (.reportOn itemId) := by
  refine ⟨fun _ => rfl, fun _ => rfl, fun _ _ h => h, fun worker hreported => ?_, fun _ h => h⟩
  show (worker.reported || decide (worker.itemId = itemId)) = true
  rw [hreported, Bool.true_or]

lemma Consistent.givenUp_of_reportOn (h : Consistent s)
    (htracked : Tracked s threadId itemId) : GivenUp (s.updateWorker threadId (.reportOn itemId)) itemId := by
  obtain ⟨worker, hworker, hkey, hassigned⟩ := htracked
  intro threadId' worker' hworker' hkey' hassigned'
  obtain ⟨worker₀, hworker₀, rfl⟩ := of_updateWorker hworker'
  have hite := (@harmless_reportOn s itemId).ite (threadId' = threadId)
  rw [hite.itemId] at hkey'
  rw [hite.assigned] at hassigned'
  have hsame := h.alone threadId' worker₀ threadId worker hworker₀ hworker hassigned' hassigned
    (hkey'.trans hkey.symm)
  rw [if_pos hsame]
  left
  show (worker₀.reported || decide (worker₀.itemId = itemId)) = true
  rw [decide_eq_true hkey', Bool.or_true]

lemma Inv.report (h : Inv s) (threadId : ThreadId) (itemId result : Text) (stop : Bool) :
    Consistent (s.report threadId itemId result stop) ∧
      s.phase.Justified (s.report threadId itemId result stop) := by
  have hcalled : Consistent (s.updateWorker threadId (.reportOn itemId)) :=
    h.consistent.updateWorker (harmless_reportOn itemId) fun worker hworker hassigned hfinal =>
      (harmless_reportOn itemId).spent
        (h.consistent.settled threadId worker hworker hassigned hfinal)
  have hgrows : Grows s (s.updateWorker threadId (.reportOn itemId)) :=
    .updateWorker (harmless_reportOn itemId) threadId
  constructor
  · refine SameWork.consistent ?_ (@Consistent.updateItem _ itemId (isAssignedTo threadId)
      (fun item =>
        { item with
          status := .completed
          resultJson := some result
          reportedAt := some s.timestamp
          completedAt := some s.timestamp
          updatedAt := s.timestamp
          lastError := none
          assignedThreadId := none }) (fun _ => rfl) hcalled (fun _ => .inl rfl) ?_)
    · exact ⟨rfl, rfl, rfl, rfl, fun _ _ => id⟩
    · intro item hitem hguard
      simp only [isAssignedTo, Bool.and_eq_true, decide_eq_true_eq] at hguard
      exact h.consistent.givenUp_of_reportOn
        (h.consistent.owner itemId item threadId hitem hguard.1 hguard.2)
  · have hboth : Grows s (s.report threadId itemId result stop) := ⟨hgrows.before, hgrows.tracked⟩
    refine hboth.justified ?_ ?_ h.justified
    · intro hpending itemId' item' hitem'
      obtain ⟨item, hitem, rfl⟩ := of_get?_updateItem hitem'
      rw [if_neg]
      · exact hpending itemId' item hitem
      · rintro ⟨-, hguard⟩
        simp only [isAssignedTo, Bool.and_eq_true, decide_eq_true_eq] at hguard
        rw [hpending itemId' item hitem] at hguard
        cases hguard.1
    · intro threadId' worker hworker
      refine ⟨_, updateWorker_of _ hworker, ?_⟩
      split <;> exact ⟨rfl, rfl, rfl, id⟩

/-- Each step keeps the invariant. -/
theorem Inv.step {action : Action} (h : Inv s) (hstep : Step s action s') : Inv s' := by
  have hqueued := h.queued.step hstep
  suffices hmoved : Consistent s' ∧ s'.phase.Justified s' from ⟨hmoved.1, hmoved.2, hqueued⟩
  cases action with
  | proceed => exact h.proceed hstep
  | fail error =>
    obtain ⟨phase, hending, rfl | ⟨threadId, finished, hphase, rfl⟩⟩ := fail_cases hstep
    · refine h.consistent.move ?_
      show phase.Justified s
      cases phase <;> trivial
    · have hjustified := h.justified
      rw [hphase] at hjustified
      obtain ⟨hstopped, -⟩ := h.shutDown hjustified.1 hjustified.2
      refine hstopped.move ?_
      show phase.Justified _
      cases phase <;> trivial
  | spawned threadId =>
    obtain ⟨item, items, hphase, hnew, rfl⟩ := spawned_cases hstep
    obtain ⟨row, hrow, -⟩ := h.queued.pending item.itemId (by
      rw [hphase]
      exact List.mem_cons_self)
    have hspawned := h.consistent.spawn hnew ⟨row, hrow⟩
    refine hspawned.move ⟨.spawned item.itemId, ?_, rfl, rfl, rfl, ?_⟩
    · exact Function.update_self _ _ _
    · intro hfinal
      cases hfinal
  | agentLimitReached =>
    obtain ⟨item, items, hphase, rfl⟩ := agentLimitReached_cases hstep
    exact h.consistent.move trivial
  | spawnFailed error =>
    obtain ⟨item, items, hphase, rfl⟩ := spawnFailed_cases hstep
    obtain ⟨row, hrow, hpending⟩ := h.queued.pending item.itemId (by
      rw [hphase]
      exact List.mem_cons_self)
    refine h.consistent.move ⟨h.consistent.givenUp_of_pending hrow hpending, trivial, ?_⟩
    rintro thread ⟨⟩
  | visit order =>
    obtain ⟨hphase, hperm, rfl⟩ | ⟨hphase, hperm, rfl⟩ := visit_cases hstep
    · refine h.consistent.move ?_
      intro entry hentry
      exact h.consistent.closing_of_mem_stale (hperm.subset hentry)
    · refine h.consistent.move ⟨?_, by simp⟩
      intro entry hentry
      exact h.consistent.tracked_of_mem_trackedItems (hperm.subset hentry)
  | report threadId itemId result stop =>
    cases hstep
    exact h.report threadId itemId result stop
  | cancel threadId =>
    obtain ⟨_, rfl⟩ := cancel_cases hstep
    have hsame : SameWork s { s with
        db := s.db.markAgentJobCancelled s.timestamp "cancelled by worker request".toList
        stopping := s.stopping.erase threadId } := by
      refine ⟨?_, ?_, rfl, rfl, fun _ _ => id⟩
      · show (s.db.markAgentJobCancelled _ _).items = s.db.items
        rw [markAgentJobCancelled]
        split <;> rfl
      · show jobRuntimeTimeout (s.db.markAgentJobCancelled _ _).job * 1000 = s.runtimeTimeout
        rw [markAgentJobCancelled]
        split <;> rfl
    exact h.consistent.move h.justified hsame
  | setStatus threadId status =>
    cases hstep
    exact h.setStatus threadId status
  | elapse milliseconds =>
    cases hstep
    refine ⟨h.consistent.elapse milliseconds, (Grows.elapse s milliseconds).justified id ?_ h.justified⟩
    intro threadId worker hworker
    exact ⟨worker, hworker, rfl, rfl, rfl, id⟩

lemma inv_created (now : ℕ) (id : Text) (maxRuntimeSeconds requested maxThreads : Option ℕ)
    (itemIds : { ids : List Text // ids.Nodup }) :
    Inv (.created now id maxRuntimeSeconds requested maxThreads itemIds) := by
  have hrows : ∀ itemId item,
      (createAgentJob (now / 1000) id maxRuntimeSeconds itemIds).items.get? itemId = some item →
        item.status = .pending ∧ item.resultJson = none ∧ item.assignedThreadId = none := by
    intro itemId item hitem
    have hmem := (get?_eq_some_iff.mp hitem).1
    obtain ⟨itemId', -, rfl⟩ := List.mem_map.mp hmem
    exact ⟨rfl, rfl, rfl⟩
  refine ⟨?_, fun itemId item hitem => (hrows itemId item hitem).1, queued_created _ _ _ _ _ _⟩
  constructor
  case owner =>
    intro itemId item threadId hitem _ howner
    rw [(hrows itemId item hitem).2.2] at howner
    cases howner
  case noResult => exact fun itemId item hitem _ => (hrows itemId item hitem).2.1
  case known | held | settled => exact fun threadId worker hworker => nomatch hworker
  case busy => exact fun threadId worker item hworker => nomatch hworker
  case alone => exact fun threadId worker threadId' worker' hworker => nomatch hworker
  case active => exact fun threadId entry hentry => nomatch hentry

end

/-! ## Reports -/

section

variable {init s s' : JobRun} {ts : List (Transition JobRun Action)}

/-- In every state that a job reaches the invariant holds, and before each of its steps. -/
theorem inv_of_run (run : IsRun init ts s) :
    Inv s ∧ ∀ t ∈ ts, Inv t.before ∧ Step t.before t.label t.after := by
  obtain ⟨⟨now, id, maxRuntimeSeconds, requested, maxThreads, itemIds, rfl⟩, run⟩ := run
  exact run.invariant (fun _ _ => True) (by simp) (inv_created _ _ _ _ _ _)
    fun _ _ _ hinv _ h => hinv.step h

/-- The thread was spawned for the item, and calls for the first time before it finishes, runs for too
long or the job is cancelled. -/
def Due (s : JobRun) (threadId : ThreadId) (itemId : Text) : Prop :=
  ∃ worker, s.workers threadId = some worker ∧ worker.itemId = itemId ∧ ¬ Spent s worker ∧
    s.db.job.status ≠ .cancelled

/-- Has the runner recorded that the item of the thread is assigned to it? -/
def Recorded (s : JobRun) (threadId : ThreadId) : Prop :=
  ∃ worker, s.workers threadId = some worker ∧ worker.assigned

/-- The item is completed with the result. -/
def CompletedWith (s : JobRun) (itemId result : Text) : Prop :=
  ∃ item, s.db.items.get? itemId = some item ∧ item.status = .completed ∧ item.resultJson = some result

/-- Has the item been completed or failed? -/
def AgentJobItem.isClosed (item : AgentJobItem) : Prop := item.status = .completed ∨ item.status = .failed

/-- What is asked of a run: a report in time is accepted and its item ends completed with the result, an
item is completed only by a report of the thread that it is assigned to, and one that is completed or
failed does not change any more. -/
structure ReportsKept (ts : List (Transition JobRun Action)) (s : JobRun) : Prop where
  accepted : ∀ t ∈ ts, ∀ threadId itemId result stop, t.label = .report threadId itemId result stop →
    Due t.before threadId itemId →
      t.before.db.items.affects itemId (StateRuntime.isAssignedTo threadId) ∧ CompletedWith s itemId result
  owned : ∀ t ∈ ts, ∀ itemId item item', t.before.db.items.get? itemId = some item →
    t.after.db.items.get? itemId = some item' → item.status ≠ .completed → item'.status = .completed →
      ∃ threadId result stop, t.label = .report threadId itemId result stop ∧
        item.assignedThreadId = some threadId ∧ item'.resultJson = some result
  final : ∀ t ∈ ts, ∀ itemId item, t.before.db.items.get? itemId = some item → item.isClosed →
    t.after.db.items.get? itemId = some item

/-- Does every report in time come after the assignment was recorded? -/
def ReportsRecorded (ts : List (Transition JobRun Action)) : Prop :=
  ∀ t ∈ ts, ∀ threadId itemId result stop, t.label = .report threadId itemId result stop →
    Due t.before threadId itemId → Recorded t.before threadId

variable {item : AgentJobItem}

lemma not_pending_of_isClosed (h : item.isClosed) : item.status ≠ .pending := by
  obtain h | h := h <;> (rw [h]; exact noConfusion)

lemma not_running_of_isClosed (h : item.isClosed) : item.status ≠ .running := by
  obtain h | h := h <;> (rw [h]; exact noConfusion)

variable {itemId : Text}

lemma closed_step {action : Action} (h : Step s action s')
    (hitem : s.db.items.get? itemId = some item) (hclosed : item.isClosed) :
    s'.db.items.get? itemId = some item := by
  obtain ⟨item', hitem', hchange⟩ := itemChange_of_step h hitem
  cases hchange with
  | same => exact hitem'
  | assigned _ _ _ hstatus => exact absurd hstatus (not_pending_of_isClosed hclosed)
  | released _ hstatus | failed _ _ _ _ hstatus => exact absurd hstatus (not_running_of_isClosed hclosed)
  | completed _ _ _ hstatus | reported _ _ _ hstatus => exact absurd hstatus (not_running_of_isClosed hclosed)

lemma closed_run (run : Run Step s ts s')
    (hitem : s.db.items.get? itemId = some item) (hclosed : item.isClosed) :
    s'.db.items.get? itemId = some item :=
  (@Run.invariant _ _ _ _ _ _ (fun s => s.db.items.get? itemId = some item) (fun _ _ => True) run
    (by simp) hitem fun _ _ _ hitem _ h => closed_step h hitem hclosed).1

/-- An item is completed by the report of the worker it is assigned to, and by nothing else. -/
lemma owned_step {action : Action} (hinv : Inv s) (h : Step s action s')
    {item item' : AgentJobItem} (hitem : s.db.items.get? itemId = some item)
    (hitem' : s'.db.items.get? itemId = some item') (hopen : item.status ≠ .completed)
    (hcompleted : item'.status = .completed) :
    ∃ threadId result stop, action = .report threadId itemId result stop ∧
      item.assignedThreadId = some threadId ∧ item'.resultJson = some result := by
  obtain ⟨item₁, hitem₁, hchange⟩ := itemChange_of_step h hitem
  rw [hitem'] at hitem₁
  cases hitem₁
  cases hchange with
  | same => exact absurd hcompleted hopen
  | assigned | released | failed => cases hcompleted
  | completed threadId rest hphase hstatus hresult =>
    rw [hinv.consistent.noResult itemId item hitem (.inr hstatus)] at hresult
    cases hresult
  | reported threadId result stop hstatus hassigned =>
    rw [key_of_get? hitem]
    exact ⟨threadId, result, stop, rfl, hassigned, rfl⟩

lemma assigned_of_due (hinv : Inv s) {threadId : ThreadId} (hdue : Due s threadId itemId)
    (hrecorded : Recorded s threadId) :
    ∃ item, s.db.items.get? itemId = some item ∧ item.status = .running ∧
      item.assignedThreadId = some threadId := by
  obtain ⟨worker, hworker, rfl, hspent, -⟩ := hdue
  obtain ⟨worker', hworker', hassigned⟩ := hrecorded
  rw [hworker] at hworker'
  cases hworker'
  exact hinv.consistent.held threadId worker hworker hassigned hspent

lemma completed_of_report {db : StateRuntime} {itemId result : Text} {threadId : ThreadId} {now : ℕ}
    (hitem : db.items.get? itemId = some item)
    (hguard : isAssignedTo threadId item) :
    ∃ item', (db.reportAgentJobItemResult now itemId threadId result).items.get? itemId = some item' ∧
      item'.status = .completed ∧ item'.resultJson = some result := by
  refine ⟨_, get?_updateItem hitem, ?_⟩
  rw [if_pos ⟨key_of_get? hitem, hguard⟩]
  exact ⟨rfl, rfl⟩

/-- Reports are kept exactly when those in time come after their assignment was recorded. -/
theorem reportsKept_iff (init s : JobRun) (ts : List (Transition JobRun Action)) (run : IsRun init ts s) :
    ReportsKept ts s ↔ ReportsRecorded ts := by
  obtain ⟨-, hall⟩ := inv_of_run run
  constructor
  · intro hkept t ht threadId itemId result stop hlabel hdue
    obtain ⟨haffects, -⟩ := hkept.accepted t ht threadId itemId result stop hlabel hdue
    rw [affects_eq, Option.any_eq_true] at haffects
    obtain ⟨item, hitem, hguard⟩ := haffects
    simp only [isAssignedTo, Bool.and_eq_true, decide_eq_true_eq] at hguard
    obtain ⟨worker, hworker, -, hassigned⟩ :=
      (hall t ht).1.consistent.owner itemId item threadId hitem hguard.1 hguard.2
    exact ⟨worker, hworker, hassigned⟩
  · intro hrecorded
    refine ⟨?_, ?_, ?_⟩
    · intro t ht threadId itemId result stop hlabel hdue
      obtain ⟨hinv, hstep⟩ := hall t ht
      obtain ⟨item, hitem, hrunning, hassigned⟩ :=
        assigned_of_due hinv hdue (hrecorded t ht threadId itemId result stop hlabel hdue)
      have hguard : isAssignedTo threadId item := by
        simp only [isAssignedTo, Bool.and_eq_true, decide_eq_true_eq]
        exact ⟨hrunning, hassigned⟩
      constructor
      · rw [affects_eq, hitem]
        exact hguard
      · obtain ⟨pre, post, rfl⟩ := List.append_of_mem ht
        rw [hlabel] at hstep
        have hafter : t.after.db = t.before.db.reportAgentJobItemResult t.before.timestamp itemId threadId
            result := by
          rw [← Option.some.inj hstep]
          rfl
        obtain ⟨item', hitem', hcompleted, hresult⟩ := completed_of_report hitem hguard
        rw [← hafter] at hitem'
        exact ⟨item', closed_run (run_after run.2) hitem' (.inl hcompleted), hcompleted, hresult⟩
    · intro t ht itemId item item' hitem hitem' hopen hcompleted
      exact owned_step (hall t ht).1 (hall t ht).2 hitem hitem' hopen hcompleted
    · intro t ht itemId item hitem hclosed
      exact closed_step (hall t ht).2 hitem hclosed

/-! ## Sample runs -/

/-- Is it a report? -/
def Action.isReport : Action → Bool
  | report .. => true
  | _ => false

/-- What the samples look at: the reports so far, the worker, its row and the job. -/
def view (taken : List (Transition JobRun Action) × JobRun) :
    ℕ × Option (Bool × Bool × Bool × Option ℕ) × Option Bool × AgentJobStatus :=
  (taken.1.countP fun t => t.label.isReport,
    (taken.2.workers 1).map fun worker =>
      (worker.itemId = "row-1".toList, worker.assigned, worker.reported || worker.finished,
        worker.startedAt),
    (taken.2.db.items.get? "row-1".toList).map (StateRuntime.isAssignedTo 1), taken.2.db.job.status)

lemma view_spawned : (take next sampleJob (startActions ++ [.spawned 1])).map view =
    some (0, some (true, false, false, none), some false, .running) := by
  rfl

lemma view_assigned : (take next sampleJob (startActions ++ [.spawned 1, .proceed])).map view =
    some (0, some (true, true, false, none), some true, .running) := by
  rfl

lemma due_of_view {assigned : Bool} {row : Option Bool}
    (hview : view (ts, s) = (0, some (true, assigned, false, none), row, .running)) :
    Due s 1 "row-1".toList ∧ ∃ worker, s.workers 1 = some worker ∧ worker.assigned = assigned := by
  simp only [view, Prod.mk.injEq, Option.map_eq_some_iff, decide_eq_true_eq, Bool.or_eq_false_iff] at hview
  obtain ⟨-, ⟨worker, hworker, hitem, hassigned, ⟨hreported, hfinished⟩, hstarted⟩, -, hstatus⟩ := hview
  refine ⟨⟨worker, hworker, hitem, ?_, ?_⟩, worker, hworker, hassigned⟩
  · rintro (h | h | ⟨startedAt, h, -⟩)
    · rw [hreported] at h
      cases h
    · rw [hfinished] at h
      cases h
    · rw [hstarted] at h
      cases h
  · rw [hstatus]
    exact AgentJobStatus.noConfusion

/-- A report after the assignment is kept. -/
theorem reportsKept_assigned : ∃ ts s, IsRun sampleJob ts s ∧ ReportsKept ts s ∧
    ∃ t ∈ ts, t.label = .report 1 "row-1".toList "{}".toList false ∧ Due t.before 1 "row-1".toList := by
  obtain ⟨⟨ts, s⟩, htake, hview⟩ := Option.map_eq_some_iff.mp view_assigned
  obtain ⟨hdue, worker, hworker, hassigned⟩ := due_of_view hview
  have hbefore := isRun_sampleJob htake
  have run := hbefore.2.next (.report 1 "row-1".toList "{}".toList false) rfl
  have hnone : ∀ t ∈ ts, ¬ t.label.isReport := by
    rw [← List.countP_eq_zero]
    exact congrArg Prod.fst hview
  refine ⟨_, _, ⟨hbefore.1, run⟩, (reportsKept_iff sampleJob _ _ ⟨hbefore.1, run⟩).mpr ?_, _,
    List.mem_append_right _ (List.mem_singleton_self _), rfl, hdue⟩
  intro t ht threadId itemId result stop hlabel _
  obtain ht | ht := List.mem_append.mp ht
  · have hno := hnone t ht
    rw [hlabel] at hno
    exact absurd rfl hno
  · rw [List.mem_singleton.mp ht] at hlabel ⊢
    cases hlabel
    exact ⟨worker, hworker, hassigned⟩

/-- A report that comes before the assignment is lost. -/
theorem report_before_assignment_lost : ∃ ts s, IsRun sampleJob ts s ∧ ¬ ReportsKept ts s := by
  obtain ⟨⟨ts, s⟩, htake, hview⟩ := Option.map_eq_some_iff.mp view_spawned
  obtain ⟨hdue, -⟩ := due_of_view hview
  have hbefore := isRun_sampleJob htake
  have run := hbefore.2.next (.report 1 "row-1".toList "{}".toList false) rfl
  refine ⟨_, _, ⟨hbefore.1, run⟩, fun hkept => ?_⟩
  obtain ⟨haffects, -⟩ := hkept.accepted _ (List.mem_append_right _ (List.mem_singleton_self _)) 1
    "row-1".toList "{}".toList false rfl hdue
  simp only [view, Prod.mk.injEq, Option.map_eq_some_iff] at hview
  obtain ⟨-, -, ⟨item, hitem, hguard⟩, -⟩ := hview
  rw [affects_eq, hitem, Option.any_some, hguard] at haffects
  cases haffects

end

end Supercodex.AgentJobs
