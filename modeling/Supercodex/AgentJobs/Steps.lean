import Supercodex.AgentJobs.Runner

/-!
# What a step does to the rows of a job

A step leaves the database alone or makes one of the statements below, at the phase that the statement
belongs to. What the theorems say about the rows follows from this list.
-/

namespace Supercodex.AgentJobs

open StateRuntime

namespace JobRun

variable {s s' : JobRun}

@[simp] lemma recoverItem_db (s : JobRun) (item : AgentJobItem) (items : List AgentJobItem) :
    (s.recoverItem item items).db = s.db := by
  rw [recoverItem]
  split
  · rfl
  · split
    · rfl
    · split <;> rfl

@[simp] lemma finalize_db (s : JobRun) (itemId : Text) (threadId : ThreadId) (rest : Resume) :
    (s.finalize itemId threadId rest).db = s.db := by
  rw [finalize]
  split
  · rfl
  · split
    · split <;> rfl
    · rfl

lemma resume_db {rest : Resume} (h : s.resume rest = some s') : s'.db = s.db := by
  revert h
  fun_cases s.resume rest with
  | case4 => simp
  | _ =>
    intro h
    cases h
    simp


/-! ## The steps with a choice -/

lemma spawned_cases {threadId : ThreadId} (h : s.spawned threadId = some s') :
    ∃ item items, s.phase = .resuming (.spawning (item :: items)) ∧ s.workers threadId = none ∧
      s' = { s with
        workers := Function.update s.workers threadId (some (.spawned item.itemId))
        phase := .assigning item.itemId threadId items } := by
  rw [spawned] at h
  split at h
  case h_1 item items hphase =>
    split_ifs at h with hnone
    rw [Option.isNone_iff_eq_none] at hnone
    exact ⟨item, items, hphase, hnone, (Option.some.inj h).symm⟩
  case h_2 => cases h

lemma agentLimitReached_cases (h : s.agentLimitReached = some s') :
    ∃ item items, s.phase = .resuming (.spawning (item :: items)) ∧
      s' = { s with phase := .releasing item.itemId } := by
  rw [agentLimitReached] at h
  split at h
  case h_1 item items hphase => exact ⟨item, items, hphase, (Option.some.inj h).symm⟩
  case h_2 => cases h

lemma spawnFailed_cases {error : Text} (h : s.spawnFailed error = some s') :
    ∃ item items, s.phase = .resuming (.spawning (item :: items)) ∧
      s' = { s with phase := .failingItem item.itemId ("failed to spawn worker: ".toList ++ error) none
                      (.spawning items) } := by
  rw [spawnFailed] at h
  split at h
  case h_1 item items hphase => exact ⟨item, items, hphase, (Option.some.inj h).symm⟩
  case h_2 => cases h

lemma visit_cases {order : List (ThreadId × Text)} (h : s.visit order = some s') :
    (s.phase = .reaping ∧ order.Perm s.staleItems ∧
        s' = { s with phase := .resuming (.reaping order) }) ∨
      (s.phase = .searching ∧ order.Perm s.trackedItems ∧
        s' = { s with phase := .readingStatus order [] }) := by
  rw [visit] at h
  split at h
  case h_1 hphase =>
    split_ifs at h with hperm
    exact .inl ⟨hphase, hperm, (Option.some.inj h).symm⟩
  case h_2 hphase =>
    split_ifs at h with hperm
    exact .inr ⟨hphase, hperm, (Option.some.inj h).symm⟩
  case h_3 => cases h

lemma cancel_cases {threadId : ThreadId} (h : s.cancel threadId = some s') :
    threadId ∈ s.stopping ∧ s' = { s with
      db := s.db.markAgentJobCancelled s.timestamp "cancelled by worker request".toList
      stopping := s.stopping.erase threadId } := by
  rw [cancel] at h
  split_ifs at h with hasked
  exact ⟨hasked, (Option.some.inj h).symm⟩

end JobRun

/-- Has the runner stopped working on items? -/
def RunnerPhase.isEnding : RunnerPhase → Bool
  | measuringLast | exporting | recordingExportFailure _ | checkingLast | markingCompleted
  | measuringCompleted | markingFailed _ | returned => true
  | _ => false

variable {s s' : JobRun}

lemma JobRun.fail_cases {error : Text} (h : s.fail error = some s') :
    ∃ phase : RunnerPhase, phase.isEnding ∧
      (s' = { s with phase := phase } ∨ ∃ threadId finished,
        s.phase = .shuttingDown threadId (.finishing finished) ∧
          s' = { s.shutDown threadId (.finishing finished) with phase := phase }) := by
  rw [JobRun.fail] at h
  split at h
  case h_20 threadId finished hphase =>
    exact ⟨_, rfl, .inr ⟨threadId, finished, hphase, (Option.some.inj h).symm⟩⟩
  all_goals first
    | (cases h; done)
    | exact ⟨_, rfl, .inl (Option.some.inj h).symm⟩

open JobRun

/-! ## Statements -/

/-- The statements that a step can make. -/
inductive Statement (s : JobRun) : Action → StateRuntime → Prop where
  | nothing (action : Action) : Statement s action s.db
  | markRunning (phase : s.phase = .markingRunning) :
      Statement s .proceed (s.db.markAgentJobRunning s.timestamp)
  | markCompleted (phase : s.phase = .markingCompleted) :
      Statement s .proceed (s.db.markAgentJobCompleted s.timestamp)
  | markFailed (errorMessage : Text)
      (phase : s.phase = .markingFailed errorMessage ∨ s.phase = .recordingExportFailure errorMessage) :
      Statement s .proceed (s.db.markAgentJobFailed s.timestamp errorMessage)
  | assign (itemId : Text) (threadId : ThreadId) (items : List AgentJobItem)
      (phase : s.phase = .assigning itemId threadId items) :
      Statement s .proceed (s.db.markAgentJobItemRunningWithThread s.timestamp itemId threadId)
  | release (itemId : Text) (phase : s.phase = .releasing itemId) :
      Statement s .proceed (s.db.markAgentJobItemPending s.timestamp itemId none)
  | failItem (itemId errorMessage : Text) (threadId : Option ThreadId) (rest : Resume)
      (phase : s.phase = .failingItem itemId errorMessage threadId rest) :
      Statement s .proceed (s.db.markAgentJobItemFailed s.timestamp itemId errorMessage)
  | completeItem (itemId : Text) (threadId : ThreadId) (rest : Resume)
      (phase : s.phase = .completingItem itemId threadId rest) :
      Statement s .proceed (s.db.markAgentJobItemCompleted s.timestamp itemId)
  | report (threadId : ThreadId) (itemId result : Text) (stop : Bool) :
      Statement s (.report threadId itemId result stop)
        (s.db.reportAgentJobItemResult s.timestamp itemId threadId result)
  | cancel (threadId : ThreadId) (asked : threadId ∈ s.stopping) :
      Statement s (.cancel threadId)
        (s.db.markAgentJobCancelled s.timestamp "cancelled by worker request".toList)

lemma statement_of_proceed (h : s.proceed = some s') : Statement s .proceed s'.db := by
  rw [proceed] at h
  split at h
  case h_2 hphase => cases h; exact .markRunning hphase
  case h_4 hphase => rw [resume_db h]; exact .nothing _
  case h_7 hphase =>
    split at h <;> (cases h; exact .nothing _)
  case h_8 hphase =>
    cases h
    rw [JobRun.assign]
    split
    · exact .assign _ _ _ hphase
    · exact .nothing _
  case h_10 hphase => cases h; exact .release _ hphase
  case h_11 hphase => cases h; exact .failItem _ _ _ _ hphase
  case h_12 hphase => cases h; exact .completeItem _ _ _ hphase
  case h_14 hphase => cases h; rw [finalize_db]; exact .nothing _
  case h_22 hphase => cases h; exact .markFailed _ (.inr hphase)
  case h_24 hphase => cases h; exact .markCompleted hphase
  case h_26 hphase => cases h; exact .markFailed _ (.inl hphase)
  all_goals first
    | (cases h; done)
    | (cases h; exact .nothing _)

/-- A step makes at most one statement. -/
theorem statement_of_step {action : Action} (h : Step s action s') :
    Statement s action s'.db := by
  cases action with
  | proceed => exact statement_of_proceed h
  | fail error =>
    obtain ⟨_, _, rfl | ⟨_, _, _, rfl⟩⟩ := fail_cases h <;> exact .nothing _
  | spawned threadId =>
    obtain ⟨_, _, _, _, rfl⟩ := spawned_cases h
    exact .nothing _
  | agentLimitReached =>
    obtain ⟨_, _, _, rfl⟩ := agentLimitReached_cases h
    exact .nothing _
  | spawnFailed error =>
    obtain ⟨_, _, _, rfl⟩ := spawnFailed_cases h
    exact .nothing _
  | visit order =>
    obtain ⟨_, _, rfl⟩ | ⟨_, _, rfl⟩ := visit_cases h <;> exact .nothing _
  | report threadId itemId result stop =>
    cases h
    exact .report threadId itemId result stop
  | cancel threadId =>
    obtain ⟨hasked, rfl⟩ := cancel_cases h
    exact .cancel threadId hasked
  | setStatus threadId status | elapse milliseconds =>
    cases h
    exact .nothing _

/-! ## The row of an item -/

/-- What a step can do to the row of an item. -/
inductive ItemChange (s : JobRun) (item : AgentJobItem) : Action → AgentJobItem → Prop where
  | same (action : Action) : ItemChange s item action item
  | assigned (threadId : ThreadId) (items : List AgentJobItem)
      (phase : s.phase = .assigning item.itemId threadId items) (status : item.status = .pending) :
      ItemChange s item .proceed
        { item with
          status := .running
          assignedThreadId := some threadId
          attemptCount := item.attemptCount + 1
          updatedAt := s.timestamp
          lastError := none }
  | released (phase : s.phase = .releasing item.itemId) (status : item.status = .running) :
      ItemChange s item .proceed
        { item with
          status := .pending
          assignedThreadId := none
          updatedAt := s.timestamp
          lastError := none }
  | failed (errorMessage : Text) (threadId : Option ThreadId) (rest : Resume)
      (phase : s.phase = .failingItem item.itemId errorMessage threadId rest)
      (status : item.status = .running) :
      ItemChange s item .proceed
        { item with
          status := .failed
          completedAt := some s.timestamp
          updatedAt := s.timestamp
          lastError := some errorMessage
          assignedThreadId := none }
  | completed (threadId : ThreadId) (rest : Resume)
      (phase : s.phase = .completingItem item.itemId threadId rest) (status : item.status = .running)
      (result : item.resultJson.isSome) :
      ItemChange s item .proceed
        { item with
          status := .completed
          completedAt := some s.timestamp
          updatedAt := s.timestamp
          assignedThreadId := none }
  | reported (threadId : ThreadId) (result : Text) (stop : Bool) (status : item.status = .running)
      (assigned : item.assignedThreadId = some threadId) :
      ItemChange s item (.report threadId item.itemId result stop)
        { item with
          status := .completed
          resultJson := some result
          reportedAt := some s.timestamp
          completedAt := some s.timestamp
          updatedAt := s.timestamp
          lastError := none
          assignedThreadId := none }

lemma get?_updateItem {db : StateRuntime} {itemId j : Text} {guard : AgentJobItem → Bool}
    {set : AgentJobItem → AgentJobItem} {hset : ∀ item, (set item).itemId = item.itemId}
    {item : AgentJobItem} (hitem : db.items.get? itemId = some item) :
    (db.updateItem j guard set hset).items.get? itemId =
      some (if item.itemId = j ∧ guard item then set item else item) := by
  rw [updateItem, Table.get?_update]
  have hkey := Table.key_of_get? hitem
  by_cases h : itemId = j
  · rw [if_pos h, ← h, hitem, Option.map_some]
    simp [hkey]
  · rw [if_neg h, hitem, if_neg]
    rintro ⟨h', -⟩
    exact h (hkey ▸ h')

lemma of_get?_updateItem {db : StateRuntime} {itemId j : Text} {guard : AgentJobItem → Bool}
    {set : AgentJobItem → AgentJobItem} {hset : ∀ item, (set item).itemId = item.itemId}
    {item' : AgentJobItem} (h : (db.updateItem j guard set hset).items.get? itemId = some item') :
    ∃ item, db.items.get? itemId = some item ∧
      item' = if item.itemId = j ∧ guard item then set item else item := by
  cases hitem : db.items.get? itemId with
  | none =>
    rw [updateItem, Table.get?_update] at h
    split at h
    · rename_i hkey
      rw [← hkey, hitem] at h
      cases h
    · rw [hitem] at h
      cases h
  | some item =>
    rw [get?_updateItem hitem] at h
    exact ⟨item, rfl, (Option.some.inj h).symm⟩

/-- A step changes the row of an item in one of these ways. -/
theorem itemChange_of_step {action : Action} (h : Step s action s') {itemId : Text}
    {item : AgentJobItem} (hitem : s.db.items.get? itemId = some item) :
    ∃ item', s'.db.items.get? itemId = some item' ∧ ItemChange s item action item' := by
  have hstatement := statement_of_step h
  generalize s'.db = db at hstatement
  cases hstatement with
  | nothing | markRunning | markCompleted | markFailed => exact ⟨item, hitem, .same _⟩
  | cancel threadId =>
    rw [markAgentJobCancelled]
    split <;> exact ⟨item, hitem, .same _⟩
  | assign j threadId items hphase =>
    refine ⟨_, get?_updateItem hitem, ?_⟩
    split
    · rename_i hguard
      obtain ⟨rfl, hguard⟩ := hguard
      exact .assigned threadId items hphase (of_decide_eq_true hguard)
    · exact .same _
  | release j hphase =>
    refine ⟨_, get?_updateItem hitem, ?_⟩
    split
    · rename_i hguard
      obtain ⟨rfl, hguard⟩ := hguard
      exact .released hphase (of_decide_eq_true hguard)
    · exact .same _
  | failItem j errorMessage threadId rest hphase =>
    refine ⟨_, get?_updateItem hitem, ?_⟩
    split
    · rename_i hguard
      obtain ⟨rfl, hguard⟩ := hguard
      exact .failed errorMessage threadId rest hphase (of_decide_eq_true hguard)
    · exact .same _
  | completeItem j threadId rest hphase =>
    refine ⟨_, get?_updateItem hitem, ?_⟩
    split
    · rename_i hguard
      obtain ⟨rfl, hguard⟩ := hguard
      simp only [isRunningWithResult, Bool.and_eq_true, decide_eq_true_eq] at hguard
      exact .completed threadId rest hphase hguard.1 hguard.2
    · exact .same _
  | report threadId j result stop =>
    refine ⟨_, get?_updateItem hitem, ?_⟩
    split
    · rename_i hguard
      obtain ⟨rfl, hguard⟩ := hguard
      simp only [isAssignedTo, Bool.and_eq_true, decide_eq_true_eq] at hguard
      exact .reported threadId result stop hguard.1 hguard.2
    · exact .same _

end Supercodex.AgentJobs
