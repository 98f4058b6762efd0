import Supercodex.AgentJobs.ReportTheorems

/-!
# Cancelling a job

The runner looks at the status of a job before it marks the job as completed, and does not look at it
before it marks the job as failed. Nothing keeps a cancellation from coming between the look and the
mark, and the mark then takes its place.
-/

namespace Supercodex.AgentJobs

open Runs JobRun StateRuntime

/-- Does the runner overwrite the status of the job next? -/
def RunnerPhase.isWriting : RunnerPhase → Bool
  | markingCompleted | markingFailed _ | recordingExportFailure _ => true
  | _ => false

/-- Has the runner not marked the job as running yet? -/
def RunnerPhase.isEarly : RunnerPhase → Bool
  | buildingOptions | markingRunning => true
  | _ => false

/-- No cancellation takes effect while the runner is about to mark the job, and nothing that the runner
asks for fails once the job is cancelled. -/
def Undisturbed (s : JobRun) : Action → Prop
  | .cancel _ => s.db.canCancel → s.phase.isWriting = false
  | .fail _ => s.db.job.status ≠ .cancelled
  | _ => True

/-- What holds of the status of a job whose steps are undisturbed. -/
structure Cancellable (s : JobRun) : Prop where
  inv : Inv s
  early : s.phase.isEarly → s.stopping = [] ∧ s.db.job.status = .pending
  writing : s.phase.isWriting → s.db.job.status ≠ .cancelled

section

variable {init s s' : JobRun} {ts : List (Transition JobRun Action)}

lemma isEarly_of_isEnding {phase : RunnerPhase} (h : phase.isEnding) : phase.isEarly = false := by
  cases phase <;> first | rfl | cases h

lemma not_of_isOrdinary {phase : RunnerPhase} (h : phase.isOrdinary) :
    phase.isWriting = false ∧ phase.isEarly = false := by
  cases phase <;> first | exact ⟨rfl, rfl⟩ | cases h

/-- The runner is about to mark the job only after it has looked at the status, or where an item is not
found. -/
lemma isWriting_proceed (h : s.proceed = some s') (hwriting : s'.phase.isWriting) :
    (s'.db = s.db ∧ s.db.job.status ≠ .cancelled) ∨
      ∃ itemId threadId rest, s.phase = .finalizing itemId threadId rest ∧
        s.db.items.get? itemId = none := by
  rcases phase_of_proceed h with hordinary | ⟨-, rfl⟩ | ⟨-, hlooked⟩ | ⟨itemId, threadId, rest, _, -, hnone⟩
  · rw [(not_of_isOrdinary hordinary).1] at hwriting
    cases hwriting
  · cases hwriting
  · exact .inl hlooked
  · exact .inr ⟨itemId, threadId, rest, hnone⟩

lemma isEarly_proceed (h : s.proceed = some s') (hearly : s'.phase.isEarly) :
    s.phase = .buildingOptions ∧ s' = { s with phase := .markingRunning } := by
  rcases phase_of_proceed h with hordinary | hfirst | ⟨hphase, -⟩ | ⟨_, _, _, _, hphase, -⟩
  · rw [(not_of_isOrdinary hordinary).2] at hearly
    cases hearly
  · exact hfirst
  · rw [hphase] at hearly
    cases hearly
  · rw [hphase] at hearly
    cases hearly

lemma not_accepted_of_isEarly (hinv : Inv s) (hearly : s.phase.isEarly) (threadId : ThreadId)
    (itemId : Text) : s.db.items.affects itemId (isAssignedTo threadId) = false := by
  have hpending : ∀ itemId item, s.db.items.get? itemId = some item → item.status = .pending := by
    have hjustified := hinv.justified
    cases hphase : s.phase <;> rw [hphase] at hearly hjustified <;>
      first | exact hjustified | cases hearly
  rw [Table.affects_eq]
  cases hitem : s.db.items.get? itemId with
  | none => rfl
  | some item =>
    rw [Option.any_some, isAssignedTo, hpending itemId item hitem]
    rfl

variable {action : Action}

lemma cancelled_step (hs : Cancellable s) (h : Step s action s')
    (hcancelled : s.db.job.status = .cancelled) : s'.db.job.status = .cancelled := by
  have hstatement := statement_of_step h
  generalize s'.db = db at hstatement
  cases hstatement with
  | nothing => exact hcancelled
  | markRunning hphase =>
    rw [(hs.early (by rw [hphase]; rfl)).2] at hcancelled
    cases hcancelled
  | markCompleted hphase => exact absurd hcancelled (hs.writing (by rw [hphase]; rfl))
  | markFailed _ hphase =>
    refine absurd hcancelled (hs.writing ?_)
    obtain hphase | hphase := hphase <;> (rw [hphase]; rfl)
  | assign | release | failItem | completeItem | report => exact hcancelled
  | cancel =>
    rw [markAgentJobCancelled]
    split
    · rfl
    · exact hcancelled

/-- A step of the others changes the status of a job only by a cancellation. -/
lemma Cancellable.step (hs : Cancellable s) (hok : Undisturbed s action)
    (h : Step s action s') : Cancellable s' := by
  refine ⟨hs.inv.step h, ?_, ?_⟩
  · intro hearly
    cases action with
    | proceed =>
      obtain ⟨hphase, rfl⟩ := isEarly_proceed h hearly
      exact hs.early (by rw [hphase]; rfl)
    | fail error =>
      obtain ⟨phase, hending, rfl | ⟨_, _, _, rfl⟩⟩ := fail_cases h <;>
        (rw [isEarly_of_isEnding hending] at hearly; cases hearly)
    | spawned threadId =>
      obtain ⟨_, _, _, _, rfl⟩ := spawned_cases h
      cases hearly
    | agentLimitReached =>
      obtain ⟨_, _, _, rfl⟩ := agentLimitReached_cases h
      cases hearly
    | spawnFailed error =>
      obtain ⟨_, _, _, rfl⟩ := spawnFailed_cases h
      cases hearly
    | visit order =>
      obtain ⟨_, _, rfl⟩ | ⟨_, _, rfl⟩ := visit_cases h <;> cases hearly
    | report threadId itemId result stop =>
      cases h
      obtain ⟨hstopping, hstatus⟩ := hs.early hearly
      refine ⟨?_, hstatus⟩
      show (if _ && stop then threadId :: s.stopping else s.stopping) = []
      rw [not_accepted_of_isEarly hs.inv hearly, Bool.false_and, if_neg Bool.false_ne_true]
      exact hstopping
    | cancel threadId =>
      obtain ⟨hasked, rfl⟩ := cancel_cases h
      rw [(hs.early hearly).1] at hasked
      cases hasked
    | setStatus | elapse => cases h; exact hs.early hearly
  · intro hwriting
    cases action with
    | proceed =>
      obtain ⟨hdb, hstatus⟩ | ⟨itemId, threadId, rest, hphase, hnone⟩ := isWriting_proceed h hwriting
      · rwa [hdb]
      -- the item of a thread is in the table
      have hjustified := hs.inv.justified
      rw [hphase] at hjustified
      obtain ⟨⟨_, worker, hworker, hkey, _⟩, _⟩ := hjustified
      obtain ⟨item, hitem⟩ := hs.inv.consistent.known threadId worker hworker
      rw [hkey, hnone] at hitem
      cases hitem
    | fail error =>
      obtain ⟨_, _, rfl | ⟨_, _, _, rfl⟩⟩ := fail_cases h <;> exact hok
    | spawned threadId =>
      obtain ⟨_, _, _, _, rfl⟩ := spawned_cases h
      cases hwriting
    | agentLimitReached =>
      obtain ⟨_, _, _, rfl⟩ := agentLimitReached_cases h
      cases hwriting
    | spawnFailed error =>
      obtain ⟨_, _, _, rfl⟩ := spawnFailed_cases h
      cases hwriting
    | visit order =>
      obtain ⟨_, _, rfl⟩ | ⟨_, _, rfl⟩ := visit_cases h <;> cases hwriting
    | report => cases h; exact hs.writing hwriting
    | cancel threadId =>
      obtain ⟨_, rfl⟩ := cancel_cases h
      show (s.db.markAgentJobCancelled _ _).job.status ≠ .cancelled
      rw [markAgentJobCancelled, if_neg]
      · exact hs.writing hwriting
      · intro hcan
        have hquiet : s.phase.isWriting = false := hok hcan
        rw [show s.phase.isWriting = true from hwriting] at hquiet
        cases hquiet
    | setStatus | elapse => cases h; exact hs.writing hwriting

/-- What is asked of a run: a cancellation that returned true is never overwritten. -/
def CancellationFinal (ts : List (Transition JobRun Action)) : Prop :=
  ∀ pre t post threadId, ts = pre ++ t :: post → t.label = .cancel threadId → t.before.db.canCancel →
    t.after.db.job.status = .cancelled ∧ ∀ t' ∈ post, t'.after.db.job.status = .cancelled

lemma cancelled_of_cancel {threadId : ThreadId} (h : Step s (.cancel threadId) s') (hcan : s.db.canCancel) :
    s'.db.job.status = .cancelled := by
  obtain ⟨_, rfl⟩ := cancel_cases h
  show (s.db.markAgentJobCancelled _ _).job.status = .cancelled
  rw [markAgentJobCancelled, if_pos hcan]

lemma overwritten_of_isWriting (hwriting : s.phase.isWriting) (h : s.proceed = some s') :
    s'.db.job.status ≠ .cancelled := by
  rw [proceed] at h
  cases hphase : s.phase <;> rw [hphase] at hwriting h <;> first
    | (cases h; exact AgentJobStatus.noConfusion)
    | cases hwriting

lemma cancelled_run (run : Run Step s ts s') (hok : ∀ t ∈ ts, Undisturbed t.before t.label)
    (hs : Cancellable s) (hcancelled : s.db.job.status = .cancelled) :
    ∀ t ∈ ts, t.after.db.job.status = .cancelled := by
  have hall := (@Run.invariant _ _ _ _ _ _ (fun s => Cancellable s ∧ s.db.job.status = .cancelled)
    Undisturbed run hok ⟨hs, hcancelled⟩ fun s action s' hboth hok h =>
      ⟨hboth.1.step hok h, cancelled_step hboth.1 h hboth.2⟩).2
  intro t ht
  obtain ⟨⟨hbefore, hstatus⟩, hstep⟩ := hall t ht
  exact cancelled_step hbefore hstep hstatus

/-- In a run whose steps are undisturbed every cancellation is final. -/
theorem cancellationFinal_of_undisturbed (init s : JobRun) (ts : List (Transition JobRun Action))
    (run : IsRun init ts s) (hok : ∀ t ∈ ts, Undisturbed t.before t.label) : CancellationFinal ts := by
  obtain ⟨⟨now, id, maxRuntimeSeconds, requested, maxThreads, itemIds, rfl⟩, run⟩ := run
  have hinit : Cancellable (.created now id maxRuntimeSeconds requested maxThreads itemIds) :=
    ⟨inv_created _ _ _ _ _ _, fun _ => ⟨rfl, rfl⟩, fun hwriting => nomatch hwriting⟩
  have hall := (run.invariant Undisturbed hok hinit fun _ _ _ hs hok h => hs.step hok h).2
  intro pre t post threadId hts hlabel hcan
  have hmem : t ∈ ts := hts ▸ List.mem_append_right _ List.mem_cons_self
  obtain ⟨hbefore, hstep⟩ := hall t hmem
  have hafter := hbefore.step (hok t hmem) hstep
  rw [hlabel] at hstep
  have hcancelled := cancelled_of_cancel hstep hcan
  refine ⟨hcancelled, cancelled_run (run_after (hts ▸ run)) ?_ hafter hcancelled⟩
  intro t' ht'
  exact hok t' (hts ▸ List.mem_append_right _ (List.mem_cons_of_mem _ ht'))

/-! ## Sample runs -/

/-- Is it a cancellation or a failure? -/
def Action.isCancelOrFail : Action → Bool
  | cancel _ | fail _ => true
  | _ => false

lemma undisturbed_of_not (h : ¬ action.isCancelOrFail) : Undisturbed s action := by
  cases action <;> trivial

/-- The only worker reports and asks to stop the job. -/
def reportActions : List Action :=
  startActions ++ [.spawned 1, .proceed, .proceed, .report 1 "row-1".toList "{}".toList true]

/-- The worker finishes, the runner sees that the job is cancelled, and the export fails. -/
def exportActions : List Action :=
  [.proceed, .visit [], .proceed, .setStatus 1 (.completed none), .visit [(1, "row-1".toList)], .proceed,
    .proceed, .proceed, .proceed, .proceed, .proceed, .proceed, .proceed, .visit [], .proceed, .visit [],
    .proceed, .proceed, .proceed, .fail "No space left on device".toList]

lemma sample_reports : (take next sampleJob reportActions).map
    (fun taken => (taken.1.countP fun t => t.label.isCancelOrFail, taken.2.phase.isWriting,
      taken.2.db.canCancel, taken.2.stopping)) = some (0, false, true, [1]) := by
  rfl

lemma sample_fails : ((take next sampleJob reportActions).bind fun taken =>
    (taken.2.next (.cancel 1)).bind fun cancelled =>
      (take next cancelled exportActions).map fun taken' => taken'.2.phase.isWriting) =
        some true := by
  rfl

/-- A cancellation that nothing disturbs is final. -/
theorem cancellationFinal_stop : ∃ ts s, IsRun sampleJob ts s ∧ CancellationFinal ts ∧
    s.db.job.status = .cancelled := by
  obtain ⟨⟨ts, s⟩, htake, hview⟩ := Option.map_eq_some_iff.mp sample_reports
  simp only [Prod.mk.injEq] at hview
  obtain ⟨hcount, hwriting, hcan, hstopping⟩ := hview
  have hbefore := isRun_sampleJob htake
  have hstep : Step s (.cancel 1) _ := if_pos (by
    rw [hstopping]
    exact List.mem_singleton_self _)
  have run := hbefore.2.next (.cancel 1) hstep
  refine ⟨_, _, ⟨hbefore.1, run⟩,
    cancellationFinal_of_undisturbed sampleJob _ _ ⟨hbefore.1, run⟩ ?_, cancelled_of_cancel hstep hcan⟩
  intro t ht
  obtain ht | ht := List.mem_append.mp ht
  · exact undisturbed_of_not (List.countP_eq_zero.mp hcount t ht)
  · rw [List.mem_singleton.mp ht]
    exact fun _ => hwriting

/-- A job that was cancelled is marked as failed because its export fails. -/
theorem cancellation_overwritten : ∃ ts s, IsRun sampleJob ts s ∧ ¬ CancellationFinal ts := by
  obtain ⟨⟨ts, s⟩, htake, hview⟩ := Option.map_eq_some_iff.mp sample_reports
  simp only [Prod.mk.injEq] at hview
  obtain ⟨-, -, hcan, -⟩ := hview
  have hfails := sample_fails
  rw [htake, Option.bind_some] at hfails
  obtain ⟨cancelled, hcancel, hfails⟩ := Option.bind_eq_some_iff.mp hfails
  obtain ⟨⟨ts', s'⟩, htake', hwriting⟩ := Option.map_eq_some_iff.mp hfails
  have hbefore := isRun_sampleJob htake
  have run := ((hbefore.2.next (.cancel 1) hcancel).take htake')
  obtain ⟨last, hlast⟩ : ∃ last, s'.proceed = some last := by
    cases hphase : s'.phase <;> rw [hphase] at hwriting <;> first
      | (rw [proceed, hphase]; exact ⟨_, rfl⟩)
      | cases hwriting
  refine ⟨_, _, ⟨hbefore.1, run.next .proceed hlast⟩, fun hfinal => ?_⟩
  obtain ⟨-, hafter⟩ := hfinal ts ⟨s, .cancel 1, cancelled⟩ (ts' ++ [⟨s', .proceed, last⟩]) 1 (by simp)
    rfl hcan
  exact overwritten_of_isWriting hwriting hlast
    (hafter _ (List.mem_append_right _ (List.mem_singleton_self _)))

end

end Supercodex.AgentJobs
