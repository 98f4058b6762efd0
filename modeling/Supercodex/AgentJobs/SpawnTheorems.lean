import Supercodex.AgentJobs.Steps

/-!
# Items whose worker cannot be spawned

The items that the runner is about to spawn a worker for are pending. An item is marked as failed only
where it is running, so that one whose worker could not be spawned stays pending, and the runner tries
it again on its next turn.
-/

namespace Supercodex.AgentJobs

open Runs JobRun AgentJobItem

/-! ## The items that workers are to be spawned for -/

/-- The items that a loop is yet to spawn workers for. -/
def Resume.toSpawn : Resume → List Text
  | spawning items => items.map AgentJobItem.itemId
  | _ => []

/-- The items that the runner spawns, assigns or gives up, and those that it is yet to spawn workers
for. -/
def RunnerPhase.toSpawn : RunnerPhase → List Text
  | resuming rest => rest.toSpawn
  | assigning itemId _ items => itemId :: items.map AgentJobItem.itemId
  | activating _ _ items => items.map AgentJobItem.itemId
  | releasing itemId => [itemId]
  | failingItem itemId _ none (.spawning items) => itemId :: items.map AgentJobItem.itemId
  | failingItem _ _ (some _) rest => rest.toSpawn
  | completingItem _ _ rest => rest.toSpawn
  | shuttingDown _ rest => rest.toSpawn
  | finalizing _ _ rest => rest.toSpawn
  | _ => []

/-- The items to spawn workers for are distinct and pending. -/
structure Queued (s : JobRun) : Prop where
  distinct : s.phase.toSpawn.Nodup
  pending : ∀ itemId ∈ s.phase.toSpawn,
    ∃ item, s.db.items.get? itemId = some item ∧ item.status = .pending

section

variable {s s' : JobRun}

lemma toSpawn_recoverItem (s : JobRun) (item : AgentJobItem) (items : List AgentJobItem) :
    (s.recoverItem item items).phase.toSpawn = [] := by
  rw [recoverItem]
  split
  · cases item.assignedThreadId <;> rfl
  · split
    · rfl
    · split <;> rfl

lemma toSpawn_resume {rest : Resume} (h : s.resume rest = some s') :
    s'.phase.toSpawn.Sublist rest.toSpawn := by
  revert h
  fun_cases s.resume rest with
  | case2 item items =>
    intro h
    cases h
    rw [toSpawn_recoverItem]
    exact List.nil_sublist _
  | case4 => simp
  | _ =>
    intro h
    cases h
    exact List.nil_sublist _

lemma toSpawn_finalize (s : JobRun) (itemId : Text) (threadId : ThreadId) (rest : Resume) :
    (s.finalize itemId threadId rest).phase.toSpawn.Sublist rest.toSpawn := by
  rw [finalize]
  split
  · exact List.nil_sublist _
  split
  · split
    · exact List.Sublist.refl _
    · exact List.Sublist.refl _
  · exact List.Sublist.refl _

/-- The items of a new list are pending, those of an old one are left over from it. -/
lemma toSpawn_proceed (h : s.proceed = some s') :
    s'.phase.toSpawn.Sublist s.phase.toSpawn ∨
      (s'.db = s.db ∧ ∃ limit,
        s'.phase.toSpawn = (s.db.listAgentJobItems .pending (some limit)).map itemId) := by
  rw [proceed] at h
  split at h
  case h_4 rest hphase =>
    rw [hphase]
    exact .inl (toSpawn_resume h)
  case h_7 hphase =>
    split at h
    · cases h
      exact .inr ⟨rfl, _, rfl⟩
    · cases h
      exact .inl (List.nil_sublist _)
  case h_8 itemId threadId items hphase =>
    cases h
    rw [hphase, assign]
    split
    · exact .inl (List.sublist_cons_self _ _)
    · exact .inl (List.sublist_cons_self _ _)
  case h_9 hphase =>
    cases h
    rw [hphase]
    exact .inl (List.Sublist.refl _)
  case h_11 itemId errorMessage threadId rest hphase =>
    cases h
    rw [hphase]
    cases threadId with
    | none =>
      cases rest with
      | spawning items => exact .inl (List.sublist_cons_self _ _)
      | _ => exact .inl (List.Sublist.refl _)
    | some threadId => exact .inl (List.Sublist.refl _)
  case h_12 hphase =>
    cases h
    rw [hphase]
    exact .inl (List.Sublist.refl _)
  case h_13 hphase =>
    cases h
    rw [hphase]
    exact .inl (List.Sublist.refl _)
  case h_14 hphase =>
    cases h
    rw [hphase]
    exact .inl (toSpawn_finalize _ _ _ _)
  case h_17 found hphase =>
    cases h
    split <;> exact .inl (List.nil_sublist _)
  case h_19 hphase =>
    cases h
    split <;> exact .inl (List.nil_sublist _)
  case h_23 hphase =>
    cases h
    split <;> exact .inl (List.nil_sublist _)
  all_goals first
    | (cases h; done)
    | (cases h; exact .inl (List.nil_sublist _))

lemma toSpawn_of_isEnding {phase : RunnerPhase} (h : phase.isEnding) : phase.toSpawn = [] := by
  cases phase <;> first | rfl | cases h

lemma toSpawn_step {action : Action} (h : Step s action s') :
    s'.phase.toSpawn.Sublist s.phase.toSpawn ∨
      (s'.db = s.db ∧ ∃ limit,
        s'.phase.toSpawn = (s.db.listAgentJobItems .pending (some limit)).map itemId) := by
  cases action with
  | proceed => exact toSpawn_proceed h
  | fail error =>
    obtain ⟨phase, hending, rfl | ⟨_, _, _, rfl⟩⟩ := fail_cases h <;>
      exact .inl ((toSpawn_of_isEnding hending).symm ▸ List.nil_sublist _)
  | spawned threadId =>
    obtain ⟨item, items, hphase, _, rfl⟩ := spawned_cases h
    rw [hphase]
    exact .inl (List.Sublist.refl _)
  | agentLimitReached =>
    obtain ⟨item, items, hphase, rfl⟩ := agentLimitReached_cases h
    rw [hphase]
    exact .inl (List.singleton_sublist.mpr List.mem_cons_self)
  | spawnFailed error =>
    obtain ⟨item, items, hphase, rfl⟩ := spawnFailed_cases h
    rw [hphase]
    exact .inl (List.Sublist.refl _)
  | visit order =>
    obtain ⟨_, _, rfl⟩ | ⟨_, _, rfl⟩ := visit_cases h <;> exact .inl (List.nil_sublist _)
  | cancel threadId =>
    obtain ⟨_, rfl⟩ := cancel_cases h
    exact .inl (List.Sublist.refl _)
  | report | setStatus | elapse => cases h; exact .inl (List.Sublist.refl _)

lemma notMem_toSpawn_of_assigning {itemId : Text} {threadId : ThreadId} {items : List AgentJobItem}
    (hphase : s.phase = .assigning itemId threadId items) (hqueued : Queued s)
    (h : s.proceed = some s') : itemId ∉ s'.phase.toSpawn := by
  have hdistinct := hqueued.distinct
  rw [hphase, RunnerPhase.toSpawn, List.nodup_cons] at hdistinct
  rw [proceed, hphase] at h
  cases h
  rw [assign]
  split <;> exact hdistinct.1

lemma mem_listAgentJobItems {db : StateRuntime} {status : AgentJobItemStatus} {limit : Option ℕ}
    {item : AgentJobItem} (h : item ∈ db.listAgentJobItems status limit) :
    db.items.get? item.itemId = some item ∧ item.status = status := by
  have hmem : item ∈ db.items.rows.filter fun item => item.status = status := by
    cases limit with
    | none => exact h
    | some limit => exact List.mem_of_mem_take h
  rw [List.mem_filter, decide_eq_true_eq] at hmem
  exact ⟨Table.get?_key hmem.1, hmem.2⟩

lemma nodup_listAgentJobItems (db : StateRuntime) (status : AgentJobItemStatus) (limit : ℕ) :
    ((db.listAgentJobItems status (some limit)).map itemId).Nodup :=
  db.items.unique.sublist (((List.take_sublist _ _).trans List.filter_sublist).map _)

theorem Queued.step {action : Action} (hqueued : Queued s) (h : Step s action s') : Queued s' := by
  obtain hsub | ⟨hdb, limit, hlist⟩ := toSpawn_step h
  · refine ⟨hqueued.distinct.sublist hsub, fun itemId hitemId => ?_⟩
    obtain ⟨item, hitem, hpending⟩ := hqueued.pending itemId (hsub.subset hitemId)
    obtain ⟨item', hitem', hchange⟩ := itemChange_of_step h hitem
    refine ⟨item', hitem', ?_⟩
    have hkey := Table.key_of_get? hitem
    cases hchange with
    | same => exact hpending
    | assigned threadId items hphase =>
      rw [hkey] at hphase
      exact absurd hitemId (notMem_toSpawn_of_assigning hphase hqueued h)
    | released => rfl
    | failed _ _ _ _ hstatus | completed _ _ _ hstatus => rw [hpending] at hstatus; cases hstatus
    | reported _ _ _ hstatus => rw [hpending] at hstatus; cases hstatus
  · rw [← hdb] at hlist
    refine ⟨hlist ▸ nodup_listAgentJobItems _ _ _, fun itemId hitemId => ?_⟩
    rw [hlist, List.mem_map] at hitemId
    obtain ⟨item, hitem, rfl⟩ := hitemId
    exact ⟨item, mem_listAgentJobItems hitem⟩

lemma queued_created (now : ℕ) (id : Text) (maxRuntimeSeconds requested maxThreads : Option ℕ)
    (itemIds : { ids : List Text // ids.Nodup }) :
    Queued (.created now id maxRuntimeSeconds requested maxThreads itemIds) :=
  ⟨List.nodup_nil, by simp [created, RunnerPhase.toSpawn]⟩

end

section

variable {init s s' : JobRun} {ts : List (Transition JobRun Action)}

/-- In every state that a job reaches, and before each of its steps, the items to spawn workers for are
pending. -/
theorem queued_of_run (run : IsRun init ts s) :
    Queued s ∧ ∀ t ∈ ts, Queued t.before ∧ Step t.before t.label t.after := by
  obtain ⟨⟨now, id, maxRuntimeSeconds, requested, maxThreads, itemIds, rfl⟩, run⟩ := run
  exact run.invariant (fun _ _ => True) (by simp) (queued_created _ _ _ _ _ _)
    fun _ _ _ hqueued _ h => hqueued.step h

/-! ## Attempts -/

/-- Is it an attempt to spawn a worker? -/
def Action.isSpawn : Action → Bool
  | spawned _ | agentLimitReached | spawnFailed _ => true
  | _ => false

/-- Did spawning a worker fail with an error other than the agent limit? -/
def Action.isSpawnFailure : Action → Bool
  | spawnFailed _ => true
  | _ => false

/-- Is the runner about to spawn a worker for an item? -/
def SpawnsFor (s : JobRun) (itemId : Text) : Prop :=
  ∃ item items, s.phase = .resuming (.spawning (item :: items)) ∧ item.itemId = itemId

/-- Is an item about to be assigned? -/
def RunnerPhase.isAssigning : RunnerPhase → Bool
  | assigning .. => true
  | _ => false

/-- Does the runner neither begin, nor assign an item, nor mark the job as ended? -/
def RunnerPhase.isOrdinary : RunnerPhase → Bool
  | buildingOptions | markingRunning | assigning .. | markingCompleted | markingFailed _
  | recordingExportFailure _ => false
  | _ => true

lemma isOrdinary_resume {rest : Resume} (h : s.resume rest = some s') : s'.phase.isOrdinary = true := by
  revert h
  fun_cases s.resume rest with
  | case2 item items =>
    intro h
    cases h
    rw [recoverItem]
    split
    · rfl
    · split
      · rfl
      · split <;> rfl
  | case4 => simp
  | _ =>
    intro h
    cases h
    rfl

/-- Where a step of the runner that does not fail leads to. -/
lemma phase_of_proceed (h : s.proceed = some s') :
    s'.phase.isOrdinary = true ∨
      (s.phase = .buildingOptions ∧ s' = { s with phase := .markingRunning }) ∨
      (s'.phase = .markingCompleted ∧ s'.db = s.db ∧ s.db.job.status ≠ .cancelled) ∨
      ∃ itemId threadId rest error, s'.phase = .markingFailed error ∧
        s.phase = .finalizing itemId threadId rest ∧ s.db.items.get? itemId = none := by
  rw [proceed] at h
  split at h
  case h_1 hphase => exact .inr (.inl ⟨hphase, (Option.some.inj h).symm⟩)
  case h_4 => exact .inl (isOrdinary_resume h)
  case h_7 => split at h <;> (cases h; exact .inl rfl)
  case h_8 =>
    cases h
    rw [assign]
    split <;> exact .inl rfl
  case h_11 threadId rest hphase => cases h; cases threadId <;> exact .inl rfl
  case h_14 itemId threadId rest hphase =>
    cases h
    rw [finalize]
    split
    · rename_i hnone
      exact .inr (.inr (.inr ⟨itemId, threadId, rest, _, rfl, hphase, hnone⟩))
    · split
      · split <;> exact .inl rfl
      · exact .inl rfl
  case h_17 => cases h; split <;> exact .inl rfl
  case h_19 => cases h; split <;> exact .inl rfl
  case h_23 hphase =>
    cases h
    split
    · exact .inl rfl
    rename_i hnot
    refine .inr (.inr (.inl ⟨rfl, rfl, fun hcancelled => hnot ?_⟩))
    rw [StateRuntime.isAgentJobCancelled, hcancelled]
    simp
  all_goals first
    | (cases h; done)
    | (cases h; exact .inl rfl)

lemma isAssigning_proceed (h : s.proceed = some s') : s'.phase.isAssigning = false := by
  rcases phase_of_proceed h with hordinary | ⟨-, rfl⟩ | ⟨hphase, -⟩ | ⟨_, _, _, _, hphase, -⟩
  · cases hphase : s'.phase <;> rw [hphase] at hordinary <;> first | rfl | cases hordinary
  · rfl
  · rw [hphase]
    rfl
  · rw [hphase]
    rfl

variable {itemId : Text} {action : Action}

lemma spawnsFor_of_assigning (h : Step s action s')
    {threadId : ThreadId} {items : List AgentJobItem} (hphase : s'.phase = .assigning itemId threadId items) :
    s.phase = .assigning itemId threadId items ∨ (action.isSpawn ∧ SpawnsFor s itemId) := by
  cases action with
  | proceed =>
    have hnot := isAssigning_proceed h
    rw [hphase] at hnot
    cases hnot
  | fail error =>
    obtain ⟨phase, hending, rfl | ⟨_, _, _, rfl⟩⟩ := fail_cases h <;>
      (cases hphase; cases hending)
  | spawned threadId =>
    obtain ⟨item, items, hbefore, _, rfl⟩ := spawned_cases h
    cases hphase
    exact .inr ⟨rfl, item, items, hbefore, rfl⟩
  | agentLimitReached =>
    obtain ⟨item, items, _, rfl⟩ := agentLimitReached_cases h
    cases hphase
  | spawnFailed error =>
    obtain ⟨item, items, _, rfl⟩ := spawnFailed_cases h
    cases hphase
  | visit order =>
    obtain ⟨_, _, rfl⟩ | ⟨_, _, rfl⟩ := visit_cases h <;> cases hphase
  | cancel threadId =>
    obtain ⟨_, rfl⟩ := cancel_cases h
    exact .inl hphase
  | report | setStatus | elapse => cases h; exact .inl hphase

/-! ## An item whose worker could not be spawned -/

lemma pending_of_run (run : Run Step s ts s')
    (hspawns : ∀ t ∈ ts, ¬ (t.label.isSpawn ∧ SpawnsFor t.before itemId))
    (hpending : ∃ item, s.db.items.get? itemId = some item ∧ item.status = .pending)
    (hphase : ∀ threadId items, s.phase ≠ .assigning itemId threadId items) :
    ∃ item, s'.db.items.get? itemId = some item ∧ item.status = .pending := by
  let Waits (s : JobRun) : Prop :=
    (∃ item, s.db.items.get? itemId = some item ∧ item.status = .pending) ∧
      ∀ threadId items, s.phase ≠ .assigning itemId threadId items
  have hwaits : Waits s' := by
    refine (@Run.invariant _ _ _ _ _ _ Waits (fun s action => ¬ (action.isSpawn ∧ SpawnsFor s itemId)) run
      hspawns ⟨hpending, hphase⟩ ?_).1
    intro s action s' ⟨⟨item, hitem, hstatus⟩, hphase⟩ hnot h
    constructor
    · obtain ⟨item', hitem', hchange⟩ := itemChange_of_step h hitem
      refine ⟨item', hitem', ?_⟩
      cases hchange with
      | same => exact hstatus
      | assigned threadId items hassigning =>
        rw [Table.key_of_get? hitem] at hassigning
        exact absurd hassigning (hphase threadId items)
      | released => rfl
      | failed _ _ _ _ hrunning | completed _ _ _ hrunning => rw [hstatus] at hrunning; cases hrunning
      | reported _ _ _ hrunning => rw [hstatus] at hrunning; cases hrunning
    · intro threadId items hassigning
      obtain hbefore | hspawn := spawnsFor_of_assigning h hassigning
      · exact hphase threadId items hbefore
      · exact hnot hspawn
  exact hwaits.1

lemma exists_item_of_run (run : Run Step s ts s')
    (hitem : ∃ item, s.db.items.get? itemId = some item) : ∃ item, s'.db.items.get? itemId = some item := by
  refine (@Run.invariant _ _ _ _ _ _ (fun s => ∃ item, s.db.items.get? itemId = some item)
    (fun _ _ => True) run (by simp) hitem ?_).1
  intro s action s' ⟨item, hitem⟩ _ h
  obtain ⟨item', hitem', _⟩ := itemChange_of_step h hitem
  exact ⟨item', hitem'⟩

/-- What is asked of a run: an item whose worker could not be spawned has failed, and no attempt is made
for it again, once the runner has gone on. So there are no more such failures than items. -/
structure SpawnFailuresSettle (ts : List (Transition JobRun Action)) (s : JobRun) : Prop where
  settled : ∀ pre t post itemId, ts = pre ++ t :: post → t.label.isSpawnFailure → SpawnsFor t.before itemId →
    (∃ t' ∈ post, t'.label.isRunner) →
      (∃ item, s.db.items.get? itemId = some item ∧ item.status = .failed) ∧
        ∀ t' ∈ post, ¬ (t'.label.isSpawn ∧ SpawnsFor t'.before itemId)
  bounded : (ts.countP fun t => t.label.isSpawnFailure) ≤ s.db.items.rows.length

/-- Does the runner take no step after a worker could not be spawned? -/
def StopsAtSpawnFailure (ts : List (Transition JobRun Action)) : Prop :=
  ∀ pre t post, ts = pre ++ t :: post → t.label.isSpawnFailure → ∀ t' ∈ post, t'.label.isRunner = false

lemma spawnsFor_of_isSpawnFailure (hfailure : action.isSpawnFailure) (h : Step s action s') :
    ∃ itemId error items, SpawnsFor s itemId ∧ s'.db = s.db ∧
      s'.phase = .failingItem itemId error none (.spawning items) := by
  cases action with
  | spawnFailed error =>
    obtain ⟨item, items, hphase, rfl⟩ := spawnFailed_cases h
    exact ⟨item.itemId, _, items, ⟨item, items, hphase, rfl⟩, rfl, rfl⟩
  | _ => cases hfailure

lemma isRunner_of_isSpawnFailure (h : action.isSpawnFailure) : action.isRunner := by
  cases action <;> first | rfl | cases h

lemma countP_isSpawnFailure (hstops : StopsAtSpawnFailure ts) :
    (ts.countP fun t => t.label.isSpawnFailure) ≤ 1 := by
  by_cases hnone : ∀ t ∈ ts, ¬ t.label.isSpawnFailure
  · rw [List.countP_eq_zero.mpr hnone]
    omega
  push Not at hnone
  obtain ⟨t, ht, hfailure⟩ := hnone
  obtain ⟨pre, post, rfl⟩ := List.append_of_mem ht
  have hpre : ∀ t' ∈ pre, ¬ t'.label.isSpawnFailure := by
    intro t' ht' hfailure'
    obtain ⟨first, between, rfl⟩ := List.append_of_mem ht'
    have hlate := hstops first t' (between ++ t :: post) (by simp) hfailure' t (by simp)
    rw [isRunner_of_isSpawnFailure hfailure] at hlate
    cases hlate
  have hpost : ∀ t' ∈ post, ¬ t'.label.isSpawnFailure := by
    intro t' ht' hfailure'
    have hlate := hstops pre t post rfl hfailure t' ht'
    rw [isRunner_of_isSpawnFailure hfailure'] at hlate
    cases hlate
  rw [List.countP_append, List.countP_cons, List.countP_eq_zero.mpr hpre,
    List.countP_eq_zero.mpr hpost]
  split <;> omega

lemma run_after {pre post : List (Transition JobRun Action)} {t : Transition JobRun Action}
    (run : Run Step init (pre ++ t :: post) s) : Run Step t.after post s := by
  rw [List.append_cons] at run
  obtain ⟨mid, hfirst, hsecond⟩ := run.split
  rwa [hfirst.last]

lemma pending_after_failure {t : Transition JobRun Action} (run : IsRun init ts s) (ht : t ∈ ts)
    (hfailure : t.label.isSpawnFailure) (hspawns : SpawnsFor t.before itemId) :
    (∃ item, t.after.db.items.get? itemId = some item ∧ item.status = .pending) ∧
      ∀ threadId items, t.after.phase ≠ .assigning itemId threadId items := by
  obtain ⟨hqueued, hstep⟩ := (queued_of_run run).2 t ht
  obtain ⟨_, _, _, _, hdb, hafter⟩ := spawnsFor_of_isSpawnFailure hfailure hstep
  obtain ⟨item, items, hphase, hitem⟩ := hspawns
  constructor
  · rw [hdb]
    apply hqueued.pending
    rw [hphase, ← hitem]
    exact List.mem_cons_self
  · intro threadId items' hassigning
    rw [hafter] at hassigning
    cases hassigning

/-- The items whose workers could not be spawned settle exactly when the runner takes no step after
such a failure. -/
theorem spawnFailuresSettle_iff (init s : JobRun) (ts : List (Transition JobRun Action))
    (run : IsRun init ts s) : SpawnFailuresSettle ts s ↔ StopsAtSpawnFailure ts := by
  constructor
  · intro hsettle pre t post hts hfailure t' ht'
    by_contra hrunner
    rw [Bool.not_eq_false] at hrunner
    have hmem : t ∈ ts := hts ▸ List.mem_append_right _ List.mem_cons_self
    obtain ⟨itemId, _, _, hspawns, _⟩ :=
      spawnsFor_of_isSpawnFailure hfailure ((queued_of_run run).2 t hmem).2
    obtain ⟨⟨item, hitem, hfailed⟩, hnone⟩ :=
      hsettle.settled pre t post itemId hts hfailure hspawns ⟨t', ht', hrunner⟩
    obtain ⟨hpending, hphase⟩ := pending_after_failure run hmem hfailure hspawns
    obtain ⟨item', hitem', hstatus⟩ :=
      pending_of_run (run_after (hts ▸ run.2)) hnone hpending hphase
    rw [hitem] at hitem'
    cases hitem'
    rw [hfailed] at hstatus
    cases hstatus
  · intro hstops
    refine ⟨?_, ?_⟩
    · intro pre t post itemId hts hfailure _ hgoes
      obtain ⟨t', ht', hrunner⟩ := hgoes
      rw [hstops pre t post hts hfailure t' ht'] at hrunner
      cases hrunner
    · by_cases hnone : ∀ t ∈ ts, ¬ t.label.isSpawnFailure
      · rw [List.countP_eq_zero.mpr hnone]
        exact Nat.zero_le _
      push Not at hnone
      obtain ⟨t, ht, hfailure⟩ := hnone
      obtain ⟨itemId, _, _, hspawns, _⟩ :=
        spawnsFor_of_isSpawnFailure hfailure ((queued_of_run run).2 t ht).2
      obtain ⟨⟨item, hitem, _⟩, _⟩ := pending_after_failure run ht hfailure hspawns
      obtain ⟨pre, post, rfl⟩ := List.append_of_mem ht
      obtain ⟨item', hitem'⟩ := exists_item_of_run (run_after run.2) ⟨item, hitem⟩
      have hpos : 0 < s.db.items.rows.length :=
        List.length_pos_of_mem (Table.get?_eq_some_iff.mp hitem').1
      have hcount := countP_isSpawnFailure hstops
      omega

/-! ## Sample runs -/

/-- A job with one item. -/
def sampleJob : JobRun := .created 0 "job-1".toList none none none ⟨["row-1".toList], by decide⟩

/-- The first steps of the runner, up to the first worker. -/
def startActions : List Action := List.replicate 7 .proceed

/-- The steps of the runner from an item whose worker could not be spawned to its next attempt. -/
def retryActions : List Action :=
  [.spawnFailed "no such model".toList, .proceed, .proceed, .visit [], .proceed, .visit [], .proceed,
    .proceed, .proceed, .proceed]

lemma isRun_sampleJob {actions : List Action} (h : take next sampleJob actions = some (ts, s)) :
    IsRun sampleJob ts s := by
  have run := Run.nil.take h
  rw [List.nil_append] at run
  exact ⟨⟨0, _, none, none, none, _, rfl⟩, run⟩

lemma sample_retries :
    (take next sampleJob (startActions ++ retryActions ++ [.spawnFailed "no such model".toList])).map
      (fun (ts, s) => ((ts.countP fun t => t.label.isSpawnFailure), s.db.items.rows.map status)) =
      some (2, [.pending]) := by
  decide +kernel

lemma sample_spawns :
    (take next sampleJob (startActions ++ [.spawned 1, .proceed, .proceed])).map
      (fun (ts, s) => ((ts.countP fun t => t.label.isSpawnFailure), s.db.items.rows.map status)) =
      some (0, [.running]) := by
  decide +kernel

/-- The runner goes on, and no worker failed to spawn. -/
theorem spawnFailuresSettle_spawned : ∃ ts s, IsRun sampleJob ts s ∧ SpawnFailuresSettle ts s := by
  obtain ⟨⟨ts, s⟩, htake, hsample⟩ := Option.map_eq_some_iff.mp sample_spawns
  rw [Prod.mk.injEq, List.countP_eq_zero] at hsample
  have run := isRun_sampleJob htake
  refine ⟨ts, s, run, (spawnFailuresSettle_iff sampleJob s ts run).mpr ?_⟩
  intro pre t post hts hfailure
  exact absurd hfailure (hsample.1 t (hts ▸ List.mem_append_right _ List.mem_cons_self))

/-- The only item is tried twice, each time in vain, and is pending. -/
theorem spawn_failure_unsettled : ∃ ts s, IsRun sampleJob ts s ∧ ¬ SpawnFailuresSettle ts s := by
  obtain ⟨⟨ts, s⟩, htake, hsample⟩ := Option.map_eq_some_iff.mp sample_retries
  rw [Prod.mk.injEq] at hsample
  refine ⟨ts, s, isRun_sampleJob htake, fun hsettle => ?_⟩
  have hbounded := hsettle.bounded
  have hlength := congrArg List.length hsample.2
  rw [List.length_map, List.length_singleton] at hlength
  omega

end

end Supercodex.AgentJobs
