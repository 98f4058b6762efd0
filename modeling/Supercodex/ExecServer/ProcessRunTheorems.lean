import Supercodex.Library.Effects
import Supercodex.ExecServer.LocalProcessTheorems

/-!
# Runs of local processes

Every action either leaves the tasks alone, or is a step of one task, or starts a process. From this
follow, over whole runs, the order of the events of a process that is started once under its id, and
what is recorded on an entry when its id is used again.
-/

namespace Supercodex.ExecServer

open Runs RunWhere Run StreamTask

namespace LocalProcess

variable {s s' : LocalProcess} {processId : ProcessId} {session call : ℕ}

/-! ## Actions that leave the tasks alone -/

lemma Quiet.of_eq (hrunning : ∀ processId process, s'.running? processId = some process →
      s.running? processId = some process)
    (hspawned : s'.spawned = s.spawned)
    (hstarts : ∀ (call : ℕ) start session, s'.starts[call]? = some start →
      start.phase = .spawned session → s.starts[call]? = some start) : Quiet s s' where
  running := hrunning
  spawned := by
    refine ⟨fun _ process => process.terminated, fun session => ?_⟩
    rw [hspawned]
    exact (Option.map_id' ..).symm
  starts := hstarts

lemma getElem?_setPhase {phase : StartPhase} (hphase : ∀ session, phase ≠ .spawned session)
    {other : ℕ} {start : StartCall} (h : (s.setPhase call phase).starts[other]? = some start)
    (hstart : start.phase = .spawned session) : s.starts[other]? = some start := by
  simp only [setPhase, List.getElem?_modify, Option.map_eq_map, Option.map_eq_some_iff] at h
  obtain ⟨before, hbefore, rfl⟩ := h
  split at hstart
  · exact absurd hstart (hphase session)
  · rename_i hne
    rw [if_neg hne]
    exact hbefore

lemma callStart_quiet (params : ExecParams) : Quiet s (s.callStart params) := by
  refine Quiet.of_eq (fun _ _ => id) rfl ?_
  intro other start session h hstart
  simp only [callStart, List.getElem?_append, List.getElem?_singleton] at h
  split at h
  · exact h
  split_ifs at h
  · cases h
    cases hstart
  · cases h
    cases hstart

lemma reserve_quiet (h : s.reserve call = some s') : Quiet s s' := by
  simp only [reserve, Effects.bind_eq_some] at h
  obtain ⟨start, hstart, h⟩ := h
  split at h
  · split_ifs at h with hknown
    · cases h
      exact Quiet.of_eq (fun _ _ => id) rfl fun _ _ _ => getElem?_setPhase (by simp)
    cases h
    refine Quiet.of_eq ?_ rfl fun _ _ _ => getElem?_setPhase (by simp)
    intro other process hprocess
    rw [running?_setPhase, running?_eq_some] at hprocess
    rw [running?_eq_some]
    by_cases heq : other = start.params.processId
    · rw [heq, AList.lookup_insert] at hprocess
      cases hprocess
    · rwa [AList.lookup_insert_ne heq] at hprocess
  · cases h

lemma spawnErr_quiet {message : Text} (h : s.spawnErr call message = some s') : Quiet s s' := by
  simp only [spawnErr, Effects.bind_eq_some] at h
  obtain ⟨start, hstart, h⟩ := h
  split at h
  · cases h
    exact Quiet.of_eq (fun _ _ => id) rfl fun _ _ _ => getElem?_setPhase (by simp)
  · cases h

lemma removeStarting_quiet (h : s.removeStarting call = some s') : Quiet s s' := by
  simp only [removeStarting, Effects.bind_eq_some] at h
  obtain ⟨start, hstart, h⟩ := h
  split at h
  · cases h
    refine Quiet.of_eq ?_ rfl fun _ _ _ => getElem?_setPhase (by simp)
    intro other process hprocess
    rw [running?_setPhase] at hprocess
    split_ifs at hprocess
    · rw [running?_erase] at hprocess
      split_ifs at hprocess
      exact hprocess
    · exact hprocess
  · cases h

lemma terminateSession_quiet (session : ℕ) : Quiet s (s.terminateSession session) where
  running := fun _ _ => id
  spawned := by
    refine ⟨fun other process => if session = other then true else process.terminated, ?_⟩
    intro other
    rw [terminateSession, getElem?_modifySpawned]
    by_cases heq : session = other
    · simp only [if_pos heq]
    · simp only [if_neg heq]
  starts := fun _ _ _ h _ => h

lemma terminateProcess_quiet : Quiet s (s.terminateProcess processId) := by
  rw [terminateProcess]
  have hsame : Quiet s s := Quiet.of_eq (fun _ _ => id) rfl fun _ _ _ h _ => h
  split
  · split
    · exact hsame
    · exact terminateSession_quiet _
  · exact hsame

lemma drain_quiet (h : s.drain = some s') : Quiet s s' := by
  rw [drain] at h
  split at h
  · cases h
    exact Quiet.of_eq (fun _ _ hprocess => nomatch hprocess) rfl fun _ _ _ h _ => h
  · cases h

lemma terminateNext_quiet (h : s.terminateNext = some s') : Quiet s s' := by
  rw [terminateNext] at h
  split at h
  · cases h
    have hq := terminateSession_quiet (s := s)
    rename_i session remaining _
    exact ⟨(hq session).running, (hq session).spawned, (hq session).starts⟩
  · cases h

/-! ## Actions of tasks -/

section TaskActions

variable {spawned : SpawnedProcess} {own : SpawnedProcess → SpawnedProcess}
  {process process' : RunningProcess}

lemma Advances.setTask {source : OutputSource} {task : StreamTask} (htask : task ≠ .unstarted) :
    Advances (·.setTask source task) :=
  ⟨fun _ => SpawnedProcess.setTask_processId, fun _ hs => hs.setTask htask,
    fun _ => SpawnedProcess.setTask_terminated⟩

lemma Advances.setExit {exit : ExitTask} (hexit : exit ≠ .unstarted) :
    Advances fun process => { process with exit := exit } :=
  ⟨fun _ => rfl, fun _ hs => ⟨hs.stdout, hs.stderr, hexit⟩, fun _ => rfl⟩

lemma Advances.same : Advances id := ⟨fun _ => rfl, fun _ => id, fun _ => rfl⟩

lemma KeepsTasks.same : KeepsTasks id := ⟨fun _ => rfl, fun _ => ⟨rfl, rfl, rfl⟩, fun _ => id⟩

lemma modifySpawned_id (session : ℕ) : s.modifySpawned session id = s := by
  rw [modifySpawned, List.modify_id]

lemma ownEntry_isSome (hrunning : s.running? processId = some process) (other : ℕ) :
    (s.ownEntry other processId).isSome = decide (process.session = other) := by
  rw [ownEntry, hrunning, Option.filter_some]
  by_cases heq : process.session = other <;> simp [heq]

section

variable (hget : s.spawned[session]? = some spawned)
include hget

lemma taskStep_modifySpawned (hlive : spawned.Live)
    (hown : Advances own) : TaskStep s (s.modifySpawned session own) session spawned own id
      (s.running? spawned.processId) where
  getElem := hget
  live := hlive
  running := by
    intro other
    rw [running?_modifySpawned]
    split_ifs with heq
    · rw [heq]
    · rfl
  entry := fun process' h => ⟨process', h, rfl⟩
  spawned_eq := by
    intro other
    rw [getElem?_modifySpawned]
    refine Option.map_congr fun process _ => ?_
    by_cases heq : session = other
    · simp [heq]
    · simp [heq, Ne.symm heq]
  starts := rfl
  shutdown := rfl
  advances := hown
  keepsTasks := .same
  kept := fun process h => .inl ⟨process, h, rfl⟩

/-- The task comes further, and the entry that it finds and the process of that entry change. -/
lemma taskStep_entry {t : LocalProcess} {found : SpawnedProcess → SpawnedProcess}
    {entry' : Option RunningProcess} (hlive : spawned.Live) (hown : Advances own) (hfound : KeepsTasks found)
    (hrunning : s.running? spawned.processId = some process) (hspawned : t.spawned = s.spawned)
    (hstarts : t.starts = s.starts) (hshutdown : t.shutdown = s.shutdown)
    (hentry : ∀ other, t.running? other = if other = spawned.processId then entry' else s.running? other)
    (hsession : ∀ process', entry' = some process' → process'.session = process.session)
    (hkept : entry' = none → ∀ process, (found process).terminated = true) :
    TaskStep s ((t.modifySpawned process.session found).modifySpawned session own) session spawned own found
      entry' where
  getElem := hget
  live := hlive
  running := by
    intro other
    rw [running?_modifySpawned, running?_modifySpawned, hentry]
  entry := fun process' h => ⟨process, hrunning, hsession process' h⟩
  spawned_eq := by
    intro other
    rw [getElem?_modifySpawned, getElem?_modifySpawned, Option.map_map, ownEntry_isSome hrunning, hspawned]
    refine Option.map_congr fun process' _ => ?_
    by_cases heq : session = other <;> by_cases hfound : process.session = other
    · simp [heq, hfound]
    · simp [heq, hfound]
    · simp [heq, Ne.symm heq, hfound]
    · simp [heq, Ne.symm heq, hfound]
  starts := hstarts
  shutdown := hshutdown
  advances := hown
  keepsTasks := hfound
  kept := by
    intro process' h
    rw [hrunning] at h
    cases h
    cases hentry' : entry' with
    | none => exact .inr (hkept hentry')
    | some entry => exact .inl ⟨entry, rfl, hsession entry hentry'⟩

lemma taskStep_setRunning (hlive : spawned.Live)
    (hown : Advances own) (hrunning : s.running? spawned.processId = some process)
    (hsession : process'.session = process.session) :
    TaskStep s ((s.setRunning spawned.processId process').modifySpawned session own) session spawned
      own id (some process') := by
  rw [← modifySpawned_id process.session (s := s.setRunning _ _)]
  refine taskStep_entry hget hlive hown .same hrunning rfl rfl rfl (fun _ => running?_setRunning ..) ?_ nofun
  rintro _ ⟨⟩
  exact hsession

/-- The task publishes an event on the entry that it finds. -/
lemma taskStep_publish {event : ExecProcessEvent}
    (hlive : spawned.Live) (hown : Advances own)
    (hrunning : s.running? spawned.processId = some process)
    (hsession : process'.session = process.session) :
    TaskStep s ((s.publish spawned.processId process' event).modifySpawned session own) session
      spawned own (·.publish event) (some process') := by
  rw [publish, hsession]
  refine taskStep_entry hget hlive hown ⟨fun _ => rfl, fun _ => ⟨rfl, rfl, rfl⟩, fun _ => id⟩ hrunning rfl rfl rfl
    (fun _ => running?_setRunning ..) ?_ nofun
  rintro _ ⟨⟩
  exact hsession

end

lemma modifySpawned_comm {found : SpawnedProcess → SpawnedProcess} (other : ℕ)
    (h : ∀ process, found (own process) = own (found process)) :
    (s.modifySpawned session own).modifySpawned other found =
      (s.modifySpawned other found).modifySpawned session own := by
  have hlist : (s.spawned.modify session own).modify other found =
      (s.spawned.modify other found).modify session own := by
    apply List.ext_getElem?
    intro index
    simp only [List.getElem?_modify, Option.map_eq_map, Option.map_map]
    refine Option.map_congr fun process _ => ?_
    by_cases hother : other = index
    · by_cases hsession : session = index
      · simp [hother, hsession, h]
      · simp [hother, hsession]
    · simp [hother]
  simp only [modifySpawned, hlist]

/-- The task removes the entry that it finds, and its session is terminated. -/
lemma taskStep_erase (hget : s.spawned[session]? = some spawned)
    (hlive : spawned.Live) (hrunning : s.running? spawned.processId = some process) :
    TaskStep s ({ s.modifySpawned session (fun process => { process with exit := .returned }) with
        processes := s.processes.erase spawned.processId }.dropEntry (some (.running process)))
      session spawned (fun process => { process with exit := .returned })
      (fun process => { process with terminated := true }) none := by
  have hcomm : { s.modifySpawned session (fun process => { process with exit := .returned }) with
        processes := s.processes.erase spawned.processId }.dropEntry (some (.running process)) =
      ({ s with processes := s.processes.erase spawned.processId }.modifySpawned process.session
        (fun process => { process with terminated := true })).modifySpawned session
          fun process => { process with exit := .returned } :=
    modifySpawned_comm (s := { s with processes := s.processes.erase spawned.processId }) _ fun _ => rfl
  rw [hcomm]
  exact taskStep_entry hget hlive (.setExit nofun) ⟨fun _ => rfl, fun _ => ⟨rfl, rfl, rfl⟩, fun _ _ => rfl⟩
    hrunning rfl rfl rfl (fun _ => running?_erase _) nofun fun _ _ => rfl

end TaskActions

/-- A step of a task that keeps the invariant of its process, as long as the entry it finds is its
own. -/
def IsTaskStep (s s' : LocalProcess) (session : ℕ) : Prop :=
  ∃ spawned own found entry', TaskStep s s' session spawned own found entry' ∧
    (ProcessInv (s.running? spawned.processId) spawned → ProcessInv entry'
      (own ((if (s.running? spawned.processId).isSome then found else id) spawned)))

section

variable {source : OutputSource}

lemma streamChunk_isTaskStep {chunk : List UInt8}
    (h : s.streamChunk session source chunk = some s') : IsTaskStep s s' session := by
  simp only [streamChunk, Effects.bind_eq_some] at h
  obtain ⟨spawned, hget, h⟩ := h
  split at h
  case h_2 => cases h
  rename_i htask
  have hlive : spawned.Live := .of_task source (by rw [htask]; rfl)
  split at h
  · rename_i hnone
    cases h
    refine ⟨spawned, _, _, _, taskStep_modifySpawned hget hlive (.setTask (by simp)), ?_⟩
    intro hinv
    rw [hnone] at hinv ⊢
    exact hinv.setTask (by simp) (by rw [htask]; simp [ended]) (by simp)
  · rename_i process hrunning
    cases h
    refine ⟨spawned, id, (·.publish (process.pushOutput (spawned.stream source) chunk).2),
      some (process.pushOutput (spawned.stream source) chunk).1, ?_, ?_⟩
    · rw [← modifySpawned_id session (s := s.publish _ _ _)]
      exact taskStep_publish hget hlive .same hrunning rfl
    · intro hinv
      rw [hrunning] at hinv ⊢
      exact hinv.pushOutput (by rw [htask]; rfl) _ _

lemma streamEnd_isTaskStep (h : s.streamEnd session source = some s') :
    IsTaskStep s s' session := by
  simp only [streamEnd, Effects.bind_eq_some] at h
  obtain ⟨spawned, hget, h⟩ := h
  split at h
  case h_2 => cases h
  rename_i htask
  have hlive : spawned.Live := .of_task source (by rw [htask]; rfl)
  cases h
  refine ⟨spawned, _, _, _, taskStep_modifySpawned hget hlive (.setTask (by simp)), ?_⟩
  intro hinv
  rw [ite_self]
  refine hinv.setTask (by simp) (by rw [htask]; simp [ended]) ?_
  intro process hprocess
  have hpos : 1 ≤ process.openStreams := by
    have hle := (hinv.agrees process hprocess).openCount_le source
    rwa [htask] at hle
  refine ⟨process, hprocess, ?_⟩
  rw [htask]
  simp only [openCount, Nat.sub_add_cancel hpos]

lemma finishOutputStream_isTaskStep (h : s.finishOutputStream session source = some s') :
    IsTaskStep s s' session := by
  simp only [finishOutputStream, Effects.bind_eq_some] at h
  obtain ⟨spawned, hget, h⟩ := h
  split at h
  case h_2 => cases h
  rename_i htask
  have hlive : spawned.Live := .of_task source (by rw [htask]; rfl)
  split at h
  · rename_i hnone
    cases h
    refine ⟨spawned, _, _, _, taskStep_modifySpawned hget hlive (.setTask (by simp)), ?_⟩
    intro hinv
    rw [hnone] at hinv ⊢
    exact hinv.setTask (by simp) (by simp [ended]) (by simp)
  · rename_i process hrunning
    cases h
    have hsession : process.finishOutputStream.session = process.session := by
      rw [RunningProcess.finishOutputStream]
      split <;> rfl
    refine ⟨spawned, _, _, _,
      taskStep_setRunning hget hlive (.setTask (by simp)) hrunning hsession, ?_⟩
    intro hinv
    rw [ite_self]
    refine hinv.setTask (by simp) (by simp [ended]) ?_
    intro process' hprocess'
    cases hprocess'
    refine ⟨process, hrunning, ?_⟩
    rw [RunningProcess.finishOutputStream, htask]
    split
    · rfl
    rename_i hzero
    have hsame : process.openStreams - finishing.openCount +
        emitting.openCount = process.openStreams := by
      simp only [openCount]
      omega
    rw [hsame]

/-- `maybe_emit_closed` emits on the entry it finds, or does nothing. -/
lemma maybeEmitClosed_cases (processId : ProcessId) : s.maybeEmitClosed processId = s ∨
    ∃ process process' event, s.running? processId = some process ∧
      process.maybeEmitClosed = some (process', event) ∧
      s.maybeEmitClosed processId = s.publish processId process' event := by
  rw [maybeEmitClosed]
  split
  · rename_i process' event heq
    obtain ⟨process, hrunning, hemit⟩ := Option.bind_eq_some_iff.mp heq
    exact .inr ⟨process, process', event, hrunning, hemit, rfl⟩
  · exact .inl rfl

/-- A task calls `maybe_emit_closed` and comes further by a change that keeps the invariant. -/
lemma maybeEmitClosed_isTaskStep {spawned : SpawnedProcess} {own : SpawnedProcess → SpawnedProcess}
    (hget : s.spawned[session]? = some spawned) (hlive : spawned.Live) (hown : Advances own)
    (hinv : ∀ entry process, process.stdout = spawned.stdout → process.stderr = spawned.stderr →
      process.exit = spawned.exit → ProcessInv entry process → ProcessInv entry (own process)) :
    IsTaskStep s ((s.maybeEmitClosed spawned.processId).modifySpawned session own) session := by
  rcases s.maybeEmitClosed_cases spawned.processId with hnone |
    ⟨process, process', event, hrunning, hemit, heq⟩
  · rw [hnone]
    refine ⟨spawned, _, _, _, taskStep_modifySpawned hget hlive hown, ?_⟩
    intro h
    rw [ite_self]
    exact hinv _ spawned rfl rfl rfl h
  · rw [heq]
    have hsession : process'.session = process.session := by
      simp only [RunningProcess.maybeEmitClosed, Option.ite_none_left_eq_some, Option.some.injEq,
        Prod.mk.injEq] at hemit
      rw [← hemit.2.1]
    refine ⟨spawned, _, _, _, taskStep_publish hget hlive hown hrunning hsession, ?_⟩
    intro h
    rw [hrunning] at h ⊢
    exact hinv _ _ rfl rfl rfl (h.maybeEmitClosed hemit)

lemma streamMaybeEmitClosed_isTaskStep (h : s.streamMaybeEmitClosed session source = some s') :
    IsTaskStep s s' session := by
  simp only [streamMaybeEmitClosed, Effects.bind_eq_some] at h
  obtain ⟨spawned, hget, h⟩ := h
  split at h
  case h_2 => cases h
  rename_i htask
  cases h
  refine maybeEmitClosed_isTaskStep hget (.of_task source (by rw [htask]; rfl))
    (.setTask (by simp)) ?_
  intro entry process hstdout hstderr hexit hinv
  have htask' : process.task source = .emitting := by
    rw [← htask]
    cases source with
    | stdout => exact hstdout
    | stderr => exact hstderr
  refine hinv.setTask (by simp) (by simp [ended]) ?_
  intro running hrunning
  refine ⟨running, hrunning, ?_⟩
  rw [htask']
  rfl

lemma exitMaybeEmitClosed_isTaskStep (h : s.exitMaybeEmitClosed session = some s') :
    IsTaskStep s s' session := by
  simp only [exitMaybeEmitClosed, Effects.bind_eq_some] at h
  obtain ⟨spawned, hget, h⟩ := h
  split at h
  case h_2 => cases h
  rename_i exitCode hexit
  cases h
  refine maybeEmitClosed_isTaskStep hget (.of_exit (by rw [hexit]; rfl)) (.setExit (by simp)) ?_
  intro entry process _ _ _ hinv
  exact hinv.setExit (by simp) (by simp [ExitTask.hasExited])

lemma watchExit_isTaskStep {exitCode : ℤ} (h : s.watchExit session exitCode = some s') :
    IsTaskStep s s' session := by
  simp only [watchExit, Effects.bind_eq_some] at h
  obtain ⟨spawned, hget, h⟩ := h
  split at h
  case h_2 => cases h
  rename_i hexit
  have hlive : spawned.Live := .of_exit (by rw [hexit]; rfl)
  split at h
  · cases h
    refine ⟨spawned, _, _, _, taskStep_modifySpawned hget hlive (.setExit (by simp)), ?_⟩
    intro hinv
    rw [ite_self]
    exact hinv.setExit (by simp) (by simp [ExitTask.hasExited])
  · rename_i process hrunning
    cases h
    refine ⟨spawned, fun process => { process with exit := .emitting exitCode },
      (·.publish (process.recordExit exitCode).2), some (process.recordExit exitCode).1, ?_, ?_⟩
    · have hcomm : (s.modifySpawned session fun process =>
            { process with exit := .emitting exitCode }).publish spawned.processId
            (process.recordExit exitCode).1 (process.recordExit exitCode).2 =
          (s.publish spawned.processId (process.recordExit exitCode).1
            (process.recordExit exitCode).2).modifySpawned session fun process =>
              { process with exit := .emitting exitCode } :=
        modifySpawned_comm (s := s.setRunning _ _) _ fun _ => rfl
      rw [hcomm]
      exact taskStep_publish hget hlive (.setExit (by simp)) hrunning rfl
    · intro hinv
      rw [hrunning] at hinv ⊢
      exact hinv.recordExit (by rw [hexit]; rfl) exitCode

lemma retentionElapsed_isTaskStep (h : s.retentionElapsed session = some s') :
    IsTaskStep s s' session := by
  simp only [retentionElapsed, Effects.bind_eq_some] at h
  obtain ⟨spawned, hget, h⟩ := h
  split at h
  case h_2 => cases h
  rename_i exitCode hexit
  have hlive : spawned.Live := .of_exit (by rw [hexit]; rfl)
  have hkept : IsTaskStep s (s.modifySpawned session fun process =>
      { process with exit := .returned }) session := by
    refine ⟨spawned, _, _, _, taskStep_modifySpawned hget hlive (.setExit (by simp)), ?_⟩
    intro hinv
    rw [ite_self]
    exact hinv.setExit (by simp) (by simp [ExitTask.hasExited])
  split at h
  · cases h
    exact hkept
  rename_i process hrunning
  split_ifs at h
  · cases h
    refine ⟨spawned, _, _, _, taskStep_erase hget hlive hrunning, ?_⟩
    intro hinv
    rw [hrunning] at hinv ⊢
    exact (hinv.drop.terminated true).setExit (by simp) (by simp [ExitTask.hasExited])
  · cases h
    exact hkept

end

/-! ## Starts -/

/-- No process under the id has tasks yet. -/
def AllUnstarted (processId : ProcessId) (s : LocalProcess) : Prop :=
  ∀ (session : ℕ) spawned, s.spawned[session]? = some spawned → spawned.processId = processId →
    spawned.Unstarted

/-- No process under the id has tasks left. -/
def NoneLive (processId : ProcessId) (s : LocalProcess) : Prop :=
  ∀ (session : ℕ) spawned, s.spawned[session]? = some spawned → spawned.processId = processId →
    ¬spawned.Live

lemma AllUnstarted.noneLive (h : AllUnstarted processId s) : NoneLive processId s :=
  fun session spawned hspawned hid => (h session spawned hspawned hid).not_live

/-- Spawning adds one process without tasks, which its call holds. -/
structure Spawns (s s' : LocalProcess) (call : ℕ) : Prop where
  exists_eq : ∃ start process, s.starts[call]? = some start ∧
    process.processId = start.params.processId ∧ process.Unstarted ∧
    s' = { s with spawned := s.spawned ++ [process] }.setPhase call (.spawned s.spawned.length)

lemma spawnOk_spawns (h : s.spawnOk call = some s') : Spawns s s' call := by
  simp only [spawnOk, Effects.bind_eq_some] at h
  obtain ⟨start, hstart, h⟩ := h
  split at h
  · cases h
    exact ⟨start, _, hstart, rfl, ⟨rfl, rfl, rfl, rfl⟩, rfl⟩
  · cases h

namespace Spawns

variable (hs : Spawns s s' call)
include hs

lemma running (processId : ProcessId) : s'.running? processId = s.running? processId := by
  obtain ⟨start, process, -, -, -, rfl⟩ := hs.exists_eq
  rfl

lemma getElem {spawned : SpawnedProcess} (h : s'.spawned[session]? = some spawned) :
    s.spawned[session]? = some spawned ∨ spawned.Unstarted := by
  obtain ⟨start, process, -, -, hun, rfl⟩ := hs.exists_eq
  change (s.spawned ++ [process])[session]? = _ at h
  rw [List.getElem?_append] at h
  split at h
  · exact .inl h
  rw [List.getElem?_singleton] at h
  split_ifs at h
  cases h
  exact .inr hun

lemma getElem_of {spawned : SpawnedProcess} (h : s.spawned[session]? = some spawned) :
    s'.spawned[session]? = some spawned := by
  obtain ⟨start, process, -, -, -, rfl⟩ := hs.exists_eq
  show (s.spawned ++ [process])[session]? = _
  rw [List.getElem?_append_left (List.getElem?_eq_some_iff.mp h).1, h]

lemma allUnstarted (h : AllUnstarted processId s) : AllUnstarted processId s' := by
  intro session spawned hspawned hid
  rcases hs.getElem hspawned with hbefore | hun
  · exact h session spawned hbefore hid
  · exact hun

lemma wellFormed (hw : s.WellFormed) : s'.WellFormed := by
  -- a call that held a session before held one of the earlier processes
  have hstarts : ∀ (other : ℕ) start session, s'.starts[other]? = some start →
      start.phase = .spawned session → (s.starts[other]? = some start ∧ session < s.spawned.length) ∨
        (other = call ∧ session = s.spawned.length ∧ ∃ process, s'.spawned[session]? = some process ∧
          process.processId = start.params.processId ∧ process.Unstarted) := by
    intro other start session hstart hphase
    obtain ⟨caller, process, hcaller, hid, hun, rfl⟩ := hs.exists_eq
    simp only [setPhase, List.getElem?_modify, Option.map_eq_map, Option.map_eq_some_iff] at hstart
    obtain ⟨before, hbefore, rfl⟩ := hstart
    split_ifs at hphase ⊢ with heq
    · subst heq
      rw [hcaller] at hbefore
      cases hbefore
      cases hphase
      refine .inr ⟨rfl, rfl, process, ?_, hid, hun⟩
      show (s.spawned ++ [process])[s.spawned.length]? = some process
      simp
    · obtain ⟨spawned, hspawned, -⟩ := hw.pending other before session hbefore hphase
      exact .inl ⟨hbefore, (List.getElem?_eq_some_iff.mp hspawned).1⟩
  refine ⟨?_, ?_, ?_⟩
  · intro processId process hprocess
    rw [hs.running] at hprocess
    obtain ⟨spawned, hspawned, hid, hstarted⟩ := hw.home processId process hprocess
    exact ⟨spawned, hs.getElem_of hspawned, hid, hstarted⟩
  · intro other start session hstart hphase
    rcases hstarts other start session hstart hphase with ⟨hbefore, -⟩ | ⟨-, -, hnew⟩
    · obtain ⟨spawned, hspawned, hid, hun⟩ := hw.pending other start session hbefore hphase
      exact ⟨spawned, hs.getElem_of hspawned, hid, hun⟩
    · exact hnew
  · intro other other' start start' session hstart hstart' hphase hphase'
    rcases hstarts other start session hstart hphase with ⟨hbefore, hlt⟩ | ⟨hcall, hlen, -⟩
    · rcases hstarts other' start' session hstart' hphase' with ⟨hbefore', -⟩ | ⟨-, hlen', -⟩
      · exact hw.pendingOnce other other' start start' session hbefore hbefore' hphase hphase'
      · omega
    · rcases hstarts other' start' session hstart' hphase' with ⟨-, hlt'⟩ | ⟨hcall', -, -⟩
      · omega
      · rw [hcall, hcall']

lemma isolated (hi : Isolated processId s) : Isolated processId s' := by
  intro session spawned process hspawned hid hlive hprocess
  rw [hs.running] at hprocess
  rcases hs.getElem hspawned with hbefore | hun
  · exact hi session spawned process hbefore hid hlive hprocess
  · exact absurd hlive hun.not_live

lemma ordered (ho : Ordered processId s) : Ordered processId s' := by
  intro session spawned hspawned hid
  rcases hs.getElem hspawned with hbefore | hun
  · rw [ownEntry, hs.running]
    exact ho session spawned hbefore hid
  · exact .inl hun

end Spawns

/-- The tasks of a process are spawned. -/
def startTasks (process : SpawnedProcess) : SpawnedProcess :=
  { process with stdout := .reading, stderr := .reading, exit := .waiting }

/-- Inserting registers the process that a call holds, and spawns its tasks. -/
structure Inserts (s s' : LocalProcess) (call : ℕ) (start : StartCall) (session : ℕ) : Prop where
  start_eq : s.starts[call]? = some start
  phase_eq : start.phase = .spawned session
  running : ∀ other, s'.running? other = if other = start.params.processId then
    some (startedEntry start.params session) else s.running? other
  spawned : ∃ flag : ℕ → SpawnedProcess → Bool, ∀ other, s'.spawned[other]? =
    (s.spawned[other]?).map fun process : SpawnedProcess =>
      (if other = session then startTasks else id)
        { process with terminated := flag other process }
  starts : ∀ (other : ℕ) start' session, s'.starts[other]? = some start' →
    start'.phase = .spawned session → other ≠ call ∧ s.starts[other]? = some start'

lemma dropEntry_quiet (entry : Option ProcessEntry) : Quiet s (s.dropEntry entry) := by
  rw [dropEntry.eq_def]
  split
  · exact terminateSession_quiet _
  · exact Quiet.of_eq (fun _ _ => id) rfl fun _ _ _ h _ => h

lemma insert_inserts (h : s.insert call = some s') :
    ∃ start session, Inserts s s' call start session := by
  simp only [insert, Effects.bind_eq_some] at h
  obtain ⟨start, hstart, h⟩ := h
  split at h
  case h_2 => cases h
  rename_i session hphase
  cases h
  have hrunning : ∀ other, (s.dropEntry (s.processes.lookup start.params.processId)).running? other =
      s.running? other := by
    intro other
    rw [dropEntry.eq_def]
    split <;> rfl
  have hstarts : (s.dropEntry (s.processes.lookup start.params.processId)).starts = s.starts := by
    rw [dropEntry.eq_def]
    split <;> rfl
  obtain ⟨flag, hflag⟩ := (dropEntry_quiet (s.processes.lookup start.params.processId)).spawned
  refine ⟨start, session, hstart, hphase, ?_, ⟨flag, ?_⟩, ?_⟩
  · intro other
    rw [running?_setPhase, running?_modifySpawned, running?_setRunning, hrunning]
  · intro other
    show (modifySpawned _ _ _).spawned[other]? = _
    rw [getElem?_modifySpawned]
    show Option.map _ ((dropEntry _ _).spawned[other]?) = _
    rw [hflag, Option.map_map]
    refine Option.map_congr fun process _ => ?_
    by_cases heq : session = other
    · simp [heq, startTasks]
    · simp [heq, Ne.symm heq]
  · intro other start' session' hstart' hphase'
    simp only [setPhase, List.getElem?_modify, Option.map_eq_map, Option.map_eq_some_iff] at hstart'
    obtain ⟨before, hbefore, rfl⟩ := hstart'
    split at hphase'
    · cases hphase'
    rename_i hne
    rw [if_neg hne]
    change (dropEntry _ _).starts[other]? = _ at hbefore
    rw [hstarts] at hbefore
    exact ⟨Ne.symm hne, hbefore⟩

namespace Inserts

variable {start : StartCall} (hi : Inserts s s' call start session)
include hi

lemma getElem {other : ℕ} {process' : SpawnedProcess} (hne : other ≠ session)
    (h : s'.spawned[other]? = some process') : ∃ process flag, s.spawned[other]? = some process ∧
      process' = { process with terminated := flag } := by
  obtain ⟨flag, hflag⟩ := hi.spawned
  rw [hflag, Option.map_eq_some_iff] at h
  obtain ⟨process, hprocess, rfl⟩ := h
  rw [if_neg hne]
  exact ⟨process, flag other process, hprocess, rfl⟩

lemma getElem_of {other : ℕ} {process : SpawnedProcess} (hne : other ≠ session)
    (h : s.spawned[other]? = some process) :
    ∃ flag, s'.spawned[other]? = some { process with terminated := flag } := by
  obtain ⟨flag, hflag⟩ := hi.spawned
  refine ⟨flag other process, ?_⟩
  rw [hflag, h, Option.map_some, if_neg hne]
  rfl

section

variable (hw : s.WellFormed)
include hw

lemma getElem_session : ∃ process flag, s.spawned[session]? = some process ∧
    process.processId = start.params.processId ∧ process.Unstarted ∧
    s'.spawned[session]? = some (startTasks { process with terminated := flag }) := by
  obtain ⟨process, hprocess, hid, hun⟩ := hw.pending call start session hi.start_eq hi.phase_eq
  obtain ⟨flag, hflag⟩ := hi.spawned
  refine ⟨process, flag session process, hprocess, hid, hun, ?_⟩
  rw [hflag, hprocess, Option.map_some, if_pos rfl]

lemma session_ne {process : RunningProcess}
    (h : s.running? processId = some process) : process.session ≠ session := by
  rintro rfl
  obtain ⟨spawned, hspawned, -, hstarted⟩ := hw.home processId process h
  obtain ⟨held, hheld, -, hun⟩ := hw.pending call start _ hi.start_eq hi.phase_eq
  rw [hspawned] at hheld
  cases hheld
  exact hun.not_started hstarted

lemma wellFormed : s'.WellFormed := by
  refine ⟨?_, ?_, ?_⟩
  · intro processId process hprocess
    rw [hi.running] at hprocess
    split_ifs at hprocess with heq
    · cases hprocess
      obtain ⟨held, flag, -, hid, -, hheld⟩ := hi.getElem_session hw
      exact ⟨_, hheld, hid.trans heq.symm, ⟨by simp [startTasks], by simp [startTasks],
        by simp [startTasks]⟩⟩
    · obtain ⟨spawned, hspawned, hid, hstarted⟩ := hw.home processId process hprocess
      obtain ⟨flag, hflag⟩ := hi.getElem_of (hi.session_ne hw hprocess) hspawned
      exact ⟨_, hflag, hid, hstarted.terminated flag⟩
  · intro other start' pending hstart' hphase'
    obtain ⟨hother, hbefore⟩ := hi.starts other start' pending hstart' hphase'
    obtain ⟨spawned, hspawned, hid, hun⟩ := hw.pending other start' pending hbefore hphase'
    have hne : pending ≠ session := by
      rintro rfl
      exact hother (hw.pendingOnce other call start' start pending hbefore hi.start_eq hphase'
        hi.phase_eq)
    obtain ⟨flag, hflag⟩ := hi.getElem_of hne hspawned
    exact ⟨_, hflag, hid, hun.terminated flag⟩
  · intro other other' start₁ start₂ pending hstart₁ hstart₂ hphase₁ hphase₂
    exact hw.pendingOnce other other' start₁ start₂ pending
      (hi.starts other start₁ pending hstart₁ hphase₁).2
      (hi.starts other' start₂ pending hstart₂ hphase₂).2 hphase₁ hphase₂

lemma isolated (hiso : Isolated processId s)
    (hfresh : start.params.processId = processId → NoneLive processId s) :
    Isolated processId s' := by
  intro other process' entry hprocess' hid hlive hentry
  obtain ⟨held, flag, -, hheldId, -, hheld⟩ := hi.getElem_session hw
  rw [hi.running] at hentry
  by_cases hother : other = session
  · subst hother
    rw [hheld] at hprocess'
    cases hprocess'
    have heq : processId = start.params.processId := hid.symm.trans hheldId
    rw [if_pos heq] at hentry
    cases hentry
    rfl
  · obtain ⟨process, flag', hprocess, rfl⟩ := hi.getElem hother hprocess'
    split_ifs at hentry with heq
    · exact absurd hlive (hfresh heq.symm other process hprocess hid)
    · exact hiso other process entry hprocess hid hlive hentry

lemma ordered (ho : Ordered processId s) : Ordered processId s' := by
  intro other process' hprocess' hid
  obtain ⟨held, flag, -, hheldId, hun, hheld⟩ := hi.getElem_session hw
  by_cases hother : other = session
  · subst hother
    rw [hheld] at hprocess'
    cases hprocess'
    have heq : processId = start.params.processId := hid.symm.trans hheldId
    refine .inr ?_
    rw [ownEntry, hi.running, if_pos heq, Option.filter_some, if_pos (by simp [startedEntry])]
    exact (ProcessInv.start hun start.params other).terminated flag
  · obtain ⟨process, flag', hprocess, rfl⟩ := hi.getElem hother hprocess'
    rcases ho other process hprocess hid with hun' | hinv
    · exact .inl (hun'.terminated flag')
    refine .inr (ProcessInv.terminated ?_ flag')
    rw [ownEntry, hi.running]
    split_ifs with heq
    · rw [Option.filter_some, if_neg (by simp [startedEntry, Ne.symm hother])]
      exact hinv.drop
    · exact hinv

lemma allUnstarted (h : AllUnstarted processId s)
    (hne : start.params.processId ≠ processId) : AllUnstarted processId s' := by
  intro other process' hprocess' hid
  obtain ⟨held, flag, -, hheldId, -, hheld⟩ := hi.getElem_session hw
  have hother : other ≠ session := by
    rintro rfl
    rw [hheld] at hprocess'
    cases hprocess'
    exact hne (hheldId.symm.trans hid)
  obtain ⟨process, flag', hprocess, rfl⟩ := hi.getElem hother hprocess'
  exact (h other process hprocess hid).terminated flag'

end

end Inserts

/-! ## Steps -/

end LocalProcess

/-- The process whose task acts. -/
def Action.task : Action → Option ℕ
  | .chunk session _ _ => some session
  | .endOfStream session _ => some session
  | .finishStream session _ => some session
  | .streamMaybeEmitClosed session _ => some session
  | .exit session _ => some session
  | .exitMaybeEmitClosed session => some session
  | .retentionElapsed session => some session
  | _ => none

namespace LocalProcess

/-- One step of the process map and its tasks. -/
def Step (s : LocalProcess) (action : Action) (s' : LocalProcess) : Prop := s.step action = some s'

variable {action : Action}

/-- What a step can do. -/
lemma step_cases (h : Step s action s') :
    Quiet s s' ∨ (∃ session, action.task = some session ∧ IsTaskStep s s' session) ∨
      (∃ call, Spawns s s' call) ∨
      ∃ call start session, action = .insert call ∧ Inserts s s' call start session := by
  cases action with
  | call params =>
    cases h
    exact .inl (callStart_quiet params)
  | reserve call => exact .inl (reserve_quiet h)
  | spawnOk call => exact .inr (.inr (.inl ⟨call, spawnOk_spawns h⟩))
  | spawnErr call message => exact .inl (spawnErr_quiet h)
  | insert call =>
    obtain ⟨start, session, hinserts⟩ := insert_inserts h
    exact .inr (.inr (.inr ⟨call, start, session, rfl, hinserts⟩))
  | removeStarting call => exact .inl (removeStarting_quiet h)
  | chunk session source chunk => exact .inr (.inl ⟨session, rfl, streamChunk_isTaskStep h⟩)
  | endOfStream session source => exact .inr (.inl ⟨session, rfl, streamEnd_isTaskStep h⟩)
  | finishStream session source =>
    exact .inr (.inl ⟨session, rfl, finishOutputStream_isTaskStep h⟩)
  | streamMaybeEmitClosed session source =>
    exact .inr (.inl ⟨session, rfl, streamMaybeEmitClosed_isTaskStep h⟩)
  | exit session exitCode => exact .inr (.inl ⟨session, rfl, watchExit_isTaskStep h⟩)
  | exitMaybeEmitClosed session =>
    exact .inr (.inl ⟨session, rfl, exitMaybeEmitClosed_isTaskStep h⟩)
  | retentionElapsed session => exact .inr (.inl ⟨session, rfl, retentionElapsed_isTaskStep h⟩)
  | read params =>
    cases h
    exact .inl (Quiet.of_eq (fun _ _ => id) rfl fun _ _ _ h _ => h)
  | terminate processId =>
    cases h
    exact .inl terminateProcess_quiet
  | callShutdown =>
    simp only [Step, step] at h
    split at h
    · cases h
      exact .inl (Quiet.of_eq (fun _ _ => id) rfl fun _ _ _ h _ => h)
    · cases h
  | drain => exact .inl (drain_quiet h)
  | terminateNext => exact .inl (terminateNext_quiet h)

/-- A process id is inserted only when no task of an earlier process with that id is left. -/
def StartsFresh (processId : ProcessId) (s : LocalProcess) : Action → Prop
  | .insert call => ∀ start, s.starts[call]? = some start → start.params.processId = processId →
    NoneLive processId s
  | _ => True

/-- The invariant that the runs with fresh starts keep. -/
structure Inv (processId : ProcessId) (s : LocalProcess) : Prop where
  wellFormed : s.WellFormed
  isolated : Isolated processId s
  ordered : Ordered processId s

lemma wellFormed_new : new.WellFormed where
  home := fun _ _ h => nomatch h
  pending := fun _ _ _ h => nomatch h
  pendingOnce := fun _ _ _ _ _ h => nomatch h

lemma inv_new (processId : ProcessId) : Inv processId new where
  wellFormed := wellFormed_new
  isolated := fun _ _ _ h => nomatch h
  ordered := fun _ _ h => nomatch h

lemma WellFormed.step (hw : s.WellFormed) (h : Step s action s') :
    s'.WellFormed := by
  rcases step_cases h with hq | ⟨session, -, spawned, own, found, entry', ht, -⟩ | ⟨call, hs⟩ |
    ⟨call, start, session, -, hi⟩
  · exact hq.wellFormed hw
  · exact ht.wellFormed hw
  · exact hs.wellFormed hw
  · exact hi.wellFormed hw

lemma Inv.step (hinv : Inv processId s) (hfresh : StartsFresh processId s action)
    (h : Step s action s') : Inv processId s' := by
  have hw := hinv.wellFormed
  refine ⟨hw.step h, ?_, ?_⟩
  · rcases step_cases h with hq | ⟨session, -, spawned, own, found, entry', ht, -⟩ | ⟨call, hs⟩ |
      ⟨call, start, session, rfl, hi⟩
    · exact hq.isolated hinv.isolated
    · exact ht.isolated hinv.isolated
    · exact hs.isolated hinv.isolated
    · exact hi.isolated hw hinv.isolated (hfresh start hi.start_eq)
  · rcases step_cases h with hq | ⟨session, -, spawned, own, found, entry', ht, hkeep⟩ | ⟨call, hs⟩ |
      ⟨call, start, session, -, hi⟩
    · exact hq.ordered hinv.ordered
    · exact ht.ordered hw hinv.isolated hinv.ordered hkeep
    · exact hs.ordered hinv.ordered
    · exact hi.ordered hw hinv.ordered

/-! ## Runs in which an id is used again -/

/-- What changes on an entry was recorded by a task of the process that the entry belongs to. -/
def RecordsOwn (processId : ProcessId) (t : Transition LocalProcess Action) : Prop :=
  ∀ process process', t.before.running? processId = some process →
    t.after.running? processId = some process' → process'.session = process.session →
    process' ≠ process → t.label.task = some process.session

lemma Inv.recordsOwn (t : Transition LocalProcess Action) (hinv : Inv processId t.before)
    (h : Step t.before t.label t.after) : RecordsOwn processId t := by
  intro process process' hbefore hafter hsession hne
  rcases step_cases h with hq | ⟨session, htask, spawned, own, found, entry', ht, -⟩ | ⟨call, hs⟩ |
    ⟨call, start, session, -, hi⟩
  · rw [hq.running _ _ hafter] at hbefore
    exact absurd (Option.some.inj hbefore) hne
  · by_cases hid : processId = spawned.processId
    · have howner := hinv.isolated session spawned process ht.getElem hid.symm ht.live hbefore
      rw [htask, howner]
    · rw [ht.running, if_neg hid, hbefore] at hafter
      exact absurd (Option.some.inj hafter).symm hne
  · rw [hs.running, hbefore] at hafter
    exact absurd (Option.some.inj hafter).symm hne
  · -- an inserted entry belongs to a process that had no entry before
    rw [hi.running] at hafter
    split_ifs at hafter with hid
    · cases hafter
      exact absurd hsession.symm (hi.session_ne hinv.wellFormed hbefore)
    · rw [hbefore] at hafter
      exact absurd (Option.some.inj hafter).symm hne

/-- In every run in which an id is inserted only when no task of an earlier process with that id is
left, all that is recorded on an entry comes from its own process. -/
theorem reused_id_isolated {ts : List (Transition LocalProcess Action)} (run : Run Step new ts s)
    (processId : ProcessId) (hfresh : ∀ t ∈ ts, StartsFresh processId t.before t.label) :
    ∀ t ∈ ts, RecordsOwn processId t := by
  have hsteps := (run.invariant (StartsFresh processId) hfresh (inv_new processId)
    fun s action s' hinv hok hstep => hinv.step hok hstep).2
  intro t ht
  obtain ⟨hinv, hstep⟩ := hsteps t ht
  exact hinv.recordsOwn t hstep

/-- A command under a process id. -/
def sampleParams (processId : ProcessId) : ExecParams where
  processId := processId
  argv := ["sleep".toList]
  tty := false
  pipeStdin := false

lemma startsFresh_insert (h : ∀ spawned ∈ s.spawned, ¬spawned.Live) :
    StartsFresh processId s (.insert call) :=
  fun _ _ _ _ spawned hspawned _ => h spawned (List.mem_of_getElem? hspawned)

/-- Two processes one after the other under the id `x`, with all tasks of the first returned before
the second is inserted. -/
theorem reused_id_isolated_sequential :
    ∃ ts s, Run Step new ts s ∧ s.spawned.length = 2 ∧ ∀ t ∈ ts, RecordsOwn "x".toList t := by
  have hnew : RunWhere Step (StartsFresh "x".toList) new [] new := .nil
  have hcalled := next hnew (.call (sampleParams "x".toList)) trivial rfl
  have hspawned := next (next hcalled (.reserve 0) trivial rfl) (.spawnOk 0)
    trivial rfl
  have hstarted := next hspawned (.insert 0) (startsFresh_insert (by decide)) rfl
  have hexited := next (next (next hstarted (.exit 0 0) trivial rfl)
    (.exitMaybeEmitClosed 0) trivial rfl) (.retentionElapsed 0) trivial rfl
  have hstdout := next (next hexited (.endOfStream 0 .stdout) trivial rfl)
    (.finishStream 0 .stdout) trivial rfl
  have hstderr := next (next hstdout (.endOfStream 0 .stderr) trivial rfl)
    (.finishStream 0 .stderr) trivial rfl
  have hcalled' := next hstderr (.call (sampleParams "x".toList)) trivial rfl
  have hspawned' := next (next hcalled' (.reserve 1) trivial rfl) (.spawnOk 1)
    trivial rfl
  have hstarted' := next hspawned' (.insert 1) (startsFresh_insert (by decide)) rfl
  exact ⟨_, _, hstarted'.1, rfl, reused_id_isolated hstarted'.1 "x".toList hstarted'.2⟩

/-- The entry of a process whose stream is still open is removed after its exit, and its id is used
again: the chunk that its stream then delivers is recorded on the entry of the new process. -/
theorem stale_chunk_recorded :
    ∃ ts s, Run Step new ts s ∧ ∃ t ∈ ts, ¬RecordsOwn "x".toList t := by
  have hcalled := next (nil : Run Step new _ _) (.call (sampleParams "x".toList)) rfl
  have hstarted := next (next (next hcalled (.reserve 0) rfl) (.spawnOk 0) rfl)
    (.insert 0) rfl
  have hexited := next (next (next hstarted (.exit 0 0) rfl)
    (.exitMaybeEmitClosed 0) rfl) (.retentionElapsed 0) rfl
  have hcalled' := next hexited (.call (sampleParams "x".toList)) rfl
  have hstarted' := next (next (next hcalled' (.reserve 1) rfl) (.spawnOk 1) rfl)
    (.insert 1) rfl
  have hchunk := next hstarted' (.chunk 0 .stdout [104]) rfl
  refine ⟨_, _, hchunk, _, List.mem_append_right _ (List.mem_singleton_self _), ?_⟩
  intro hown
  have htask := hown _ _ rfl rfl rfl (by decide)
  exact absurd htask (by decide)

/-! ## Runs in which an id is used once -/

/-- A start under the id is completed. -/
def insertsFor (processId : ProcessId) (t : Transition LocalProcess Action) : Bool :=
  match t.label with
  | .insert call => (t.before.starts[call]?).any fun start => start.params.processId = processId
  | _ => false

lemma AllUnstarted.step (t : Transition LocalProcess Action) (hw : t.before.WellFormed)
    (hun : AllUnstarted processId t.before) (hnot : insertsFor processId t = false)
    (h : Step t.before t.label t.after) : AllUnstarted processId t.after := by
  rcases step_cases h with hq | ⟨session, -, spawned, own, found, entry', ht, -⟩ | ⟨call, hs⟩ |
    ⟨call, start, session, hlabel, hi⟩
  · intro session process' hprocess' hid
    obtain ⟨process, flag, hprocess, rfl⟩ := hq.exists_getElem' hprocess'
    exact (hun session process hprocess hid).terminated flag
  · intro other process' hprocess' hid
    obtain ⟨process, hprocess, hkeep, -⟩ := ht.exists_getElem' hprocess'
    -- the process of the task has tasks, so that it has another id
    have hne : process.processId ≠ spawned.processId := by
      intro heq
      have hunstarted := hun session spawned ht.getElem (heq.symm.trans (hkeep.symm.trans hid))
      exact hunstarted.not_live ht.live
    rw [ht.getElem_eq_of_ne hw hprocess hne] at hprocess'
    exact hun other process' hprocess' hid
  · exact hs.allUnstarted hun
  · refine hi.allUnstarted hw hun ?_
    rw [insertsFor, hlabel] at hnot
    simp only [hi.start_eq, Option.any_some, decide_eq_false_iff_not] at hnot
    exact hnot

lemma allUnstarted_of_run {ts : List (Transition LocalProcess Action)} (run : Run Step new ts s)
    (hnone : ts.countP (insertsFor processId) = 0) :
    s.WellFormed ∧ AllUnstarted processId s := by
  induction run with
  | nil => exact ⟨wellFormed_new, fun _ _ h => nomatch h⟩
  | @snoc ts s s' action run taken ih =>
    rw [List.countP_append, Nat.add_eq_zero_iff, List.countP_singleton] at hnone
    obtain ⟨hw, hun⟩ := ih hnone.1
    refine ⟨hw.step taken, AllUnstarted.step ⟨s, action, s'⟩ hw hun ?_ taken⟩
    by_contra hinserts
    simp [hinserts] at hnone

lemma startsFresh_of_once {ts : List (Transition LocalProcess Action)} (run : Run Step new ts s)
    (honce : ts.countP (insertsFor processId) ≤ 1) :
    ∀ t ∈ ts, StartsFresh processId t.before t.label := by
  induction run with
  | nil => simp
  | @snoc ts s s' action run taken ih =>
    rw [List.countP_append, List.countP_singleton] at honce
    intro t ht
    rcases List.mem_append.mp ht with ht | ht
    · exact ih (by omega) t ht
    rw [List.mem_singleton.mp ht]
    cases action with
    | insert call =>
      intro start hstart hid
      have hinserts : insertsFor processId ⟨s, .insert call, s'⟩ = true := by
        simp only [insertsFor, hstart, Option.any_some, decide_eq_true_eq]
        exact hid
      rw [if_pos hinserts] at honce
      have hnone : ts.countP (insertsFor processId) = 0 := by omega
      exact (allUnstarted_of_run run hnone).2.noneLive
    | _ => trivial

lemma countP_isClosed_le {live : List ExecProcessEvent}
    (hlast : ∀ before seq after, live = before ++ .closed seq :: after → after = []) :
    live.countP (·.isClosed) ≤ 1 := by
  rcases List.eq_nil_or_concat live with rfl | ⟨init, last, rfl⟩
  · exact Nat.zero_le 1
  rw [List.concat_eq_append, List.countP_append] at *
  have hinit : init.countP (·.isClosed) = 0 := by
    rw [List.countP_eq_zero]
    intro event hevent hclosed
    cases event with
    | closed seq =>
      obtain ⟨before, after, rfl⟩ := List.append_of_mem hevent
      have hnil := hlast before seq (after ++ [last]) (by simp)
      simp at hnil
    | output _ | exited _ _ | failed _ => cases hclosed
  have hlen : [last].countP (·.isClosed) ≤ [last].length := List.countP_le_length
  rw [List.length_singleton] at hlen
  omega

/-- The protocol of the events of one process. -/
structure EventProtocol (process : SpawnedProcess) : Prop where
  numbered : process.events.live.map ExecProcessEvent.seq =
    (List.range' 1 process.events.live.length).map some
  exitedOnce : process.events.live.countP (·.isExited) ≤ 1
  closedOnce : process.events.live.countP (·.isClosed) ≤ 1
  closedLast : ∀ before seq after, process.events.live = before ++ .closed seq :: after →
    after = [] ∧ seq = process.events.live.length ∧ (∃ event ∈ before, event.isExited = true) ∧
      process.stdout.ended = true ∧ process.stderr.ended = true

lemma eventProtocol_of_logOk {process : SpawnedProcess} (h : process.LogOk) :
    EventProtocol process := by
  refine ⟨h.numbered, ?_, countP_isClosed_le fun before seq after heq =>
    (h.closedLast before seq after heq).1, ?_⟩
  · refine h.exitedOnce.trans ?_
    split <;> omega
  · intro before seq after heq
    obtain ⟨rfl, hexited, hstdout, hstderr⟩ := h.closedLast before seq after heq
    refine ⟨rfl, ?_, hexited, hstdout, hstderr⟩
    have hnumbered := h.numbered
    rw [heq, List.length_append, List.length_singleton, List.range'_concat, List.map_append,
      List.map_append] at hnumbered
    obtain ⟨-, hseq⟩ := List.append_inj' hnumbered rfl
    rw [List.map_singleton, List.map_singleton] at hseq
    rw [heq, List.length_append, List.length_singleton]
    have hlast : seq = 1 + 1 * before.length := Option.some.inj (List.cons.inj hseq).1
    omega

lemma logOk_of_unstarted {process : SpawnedProcess} (h : process.Unstarted) : process.LogOk := by
  refine ⟨by simp [h.live], by simp [h.live], ?_⟩
  intro before seq after heq
  rw [h.live] at heq
  exact absurd heq (by simp)

/-- In every state that is reached while one process is started under an id, its events follow the
protocol, and its entry retains what it says and no more than the limit. -/
theorem event_protocol {ts : List (Transition LocalProcess Action)} (run : Run Step new ts s)
    (processId : ProcessId) (honce : ts.countP (insertsFor processId) ≤ 1) :
    (∀ (session : ℕ) spawned, s.spawned[session]? = some spawned → spawned.processId = processId →
      EventProtocol spawned) ∧
    ∀ process, s.running? processId = some process →
      process.retainedBytes = (process.output.map (·.chunk.length)).sum ∧
      process.retainedBytes ≤ retainedOutputBytesPerProcess := by
  have hinv := (run.invariant (StartsFresh processId) (startsFresh_of_once run honce)
    (inv_new processId) fun s action s' hinv hok hstep => hinv.step hok hstep).1
  constructor
  · intro session spawned hspawned hid
    apply eventProtocol_of_logOk
    rcases hinv.ordered session spawned hspawned hid with hun | hprocess
    · exact logOk_of_unstarted hun
    · exact hprocess.log
  · intro process hprocess
    obtain ⟨spawned, hspawned, hid, hstarted⟩ := hinv.wellFormed.home processId process hprocess
    rcases hinv.ordered process.session spawned hspawned hid with hun | hown
    · exact absurd hstarted hun.not_started
    · have hagrees := hown.agrees process (ownEntry_eq_some.mpr ⟨hprocess, rfl⟩)
      exact ⟨hagrees.retainedBytes_eq, hagrees.retainedBytes_le⟩

/-- A process that prints one chunk, exits and closes both streams. -/
theorem event_protocol_one_chunk :
    ∃ ts s, Run Step new ts s ∧ ∃ spawned, s.spawned[0]? = some spawned ∧
      spawned.events.live = [.output ⟨1, .stdout, [104]⟩, .exited 2 0, .closed 3] ∧
      EventProtocol spawned := by
  have hcalled := next (nil : Run Step new _ _) (.call (sampleParams "x".toList)) rfl
  have hstarted := next (next (next hcalled (.reserve 0) rfl) (.spawnOk 0) rfl)
    (.insert 0) rfl
  have hexited := next (next (next hstarted (.chunk 0 .stdout [104]) rfl)
    (.exit 0 0) rfl) (.exitMaybeEmitClosed 0) rfl
  have hstdout := next (next (next hexited (.endOfStream 0 .stdout) rfl)
    (.finishStream 0 .stdout) rfl) (.streamMaybeEmitClosed 0 .stdout) rfl
  have hstderr := next (next (next hstdout (.endOfStream 0 .stderr) rfl)
    (.finishStream 0 .stderr) rfl) (.streamMaybeEmitClosed 0 .stderr) rfl
  have hprotocol := (event_protocol hstderr "x".toList (by decide)).1 0 _ rfl rfl
  exact ⟨_, _, hstderr, _, rfl, rfl, hprotocol⟩

end LocalProcess

end Supercodex.ExecServer
