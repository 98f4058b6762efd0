import Supercodex.ExecServer.LocalProcess
import Supercodex.Library.Retention
import Supercodex.Library.Runs

/-!
# The events of one process, and process ids that are used again

What the tasks of one process do is seen on a pair: the entry that belongs to the process, if it is
still in the map, and the process with its tasks and its log. An invariant of this pair orders the
events. The tasks find the entry by the process id alone, so that the pair is all they touch only as
long as no task of an earlier process with the same id is left.
-/

namespace Supercodex.ExecServer

open Runs RunningProcess ExecProcessEvent

/-! ## Tasks -/

/-- Is the receiver still open or not yet reported as closed? -/
def StreamTask.openCount : StreamTask → ℕ
  | reading => 1
  | finishing => 1
  | _ => 0

/-- Was the end of the stream recorded, or nothing left to record it on? -/
def StreamTask.ended : StreamTask → Bool
  | emitting => true
  | returned => true
  | _ => false

/-- Will the task look at the map again? -/
def StreamTask.live : StreamTask → Bool
  | unstarted => false
  | returned => false
  | _ => true

/-- Was the exit recorded? -/
def ExitTask.hasExited : ExitTask → Bool
  | unstarted => false
  | waiting => false
  | _ => true

/-- Will the task look at the map again? -/
def ExitTask.live : ExitTask → Bool
  | unstarted => false
  | returned => false
  | _ => true

namespace SpawnedProcess

/-- Some task of the process will look at the map again. -/
def Live (process : SpawnedProcess) : Prop :=
  process.stdout.live ∨ process.stderr.live ∨ process.exit.live

instance (process : SpawnedProcess) : Decidable process.Live :=
  inferInstanceAs (Decidable (_ ∨ _ ∨ _))

/-- The tasks of the process were spawned. -/
structure Started (process : SpawnedProcess) : Prop where
  stdout : process.stdout ≠ .unstarted
  stderr : process.stderr ≠ .unstarted
  exit : process.exit ≠ .unstarted

/-- The process was spawned, and its tasks were not. -/
structure Unstarted (process : SpawnedProcess) : Prop where
  stdout : process.stdout = .unstarted
  stderr : process.stderr = .unstarted
  exit : process.exit = .unstarted
  live : process.events.live = []

lemma Unstarted.not_started {process : SpawnedProcess} (h : process.Unstarted) :
    ¬process.Started := fun hs => hs.exit h.exit

lemma Unstarted.not_live {process : SpawnedProcess} (h : process.Unstarted) : ¬process.Live := by
  simp [Live, h.stdout, h.stderr, h.exit, StreamTask.live, ExitTask.live]

variable {process : SpawnedProcess} {source : OutputSource} {task : StreamTask}

lemma Started.terminated (h : process.Started) (flag : Bool) :
    Started { process with terminated := flag } := ⟨h.stdout, h.stderr, h.exit⟩

lemma Unstarted.terminated (h : process.Unstarted) (flag : Bool) :
    Unstarted { process with terminated := flag } := ⟨h.stdout, h.stderr, h.exit, h.live⟩

@[simp] lemma setTask_processId : (process.setTask source task).processId = process.processId := by
  cases source <;> rfl

@[simp] lemma setTask_terminated :
    (process.setTask source task).terminated = process.terminated := by
  cases source <;> rfl

@[simp] lemma setTask_events : (process.setTask source task).events = process.events := by
  cases source <;> rfl

@[simp] lemma setTask_exit : (process.setTask source task).exit = process.exit := by
  cases source <;> rfl

lemma Live.of_task (source : OutputSource) (h : (process.task source).live = true) :
    process.Live := by
  cases source with
  | stdout => exact .inl h
  | stderr => exact .inr (.inl h)

lemma Live.of_exit (h : process.exit.live = true) : process.Live := .inr (.inr h)

lemma Started.setTask (hs : process.Started) (htask : task ≠ .unstarted) :
    (process.setTask source task).Started := by
  cases source with
  | stdout => exact ⟨htask, hs.stderr, hs.exit⟩
  | stderr => exact ⟨hs.stdout, htask, hs.exit⟩

end SpawnedProcess

/-! ## The log of a process -/

/-- `matches!(event, ExecProcessEvent::Exited { .. })`. -/
def ExecProcessEvent.isExited : ExecProcessEvent → Bool
  | exited _ _ => true
  | _ => false

/-- The events of a process so far, against what its tasks have done. -/
structure SpawnedProcess.LogOk (process : SpawnedProcess) : Prop where
  numbered : process.events.live.map ExecProcessEvent.seq =
    (List.range' 1 process.events.live.length).map some
  exitedOnce : process.events.live.countP (·.isExited) ≤ if process.exit.hasExited then 1 else 0
  closedLast : ∀ before seq after, process.events.live = before ++ .closed seq :: after →
    after = [] ∧ (∃ event ∈ before, event.isExited = true) ∧
      process.stdout.ended = true ∧ process.stderr.ended = true

/-- The entry of a process against its log and its tasks. -/
structure RunningProcess.Agrees (entry : RunningProcess) (process : SpawnedProcess) : Prop where
  nextSeq_eq : entry.nextSeq = process.events.live.length + 1
  openStreams_eq : entry.openStreams = process.stdout.openCount + process.stderr.openCount
  exited : entry.exitCode.isSome → ∃ event ∈ process.events.live, event.isExited = true
  notClosed : entry.closed = false → ∀ event ∈ process.events.live, event.isClosed = false
  retainedBytes_eq : entry.retainedBytes = (entry.output.map (·.chunk.length)).sum
  retainedBytes_le : entry.retainedBytes ≤ retainedOutputBytesPerProcess

lemma RunningProcess.Agrees.openCount_le {entry : RunningProcess} {process : SpawnedProcess}
    (h : entry.Agrees process) (source : OutputSource) :
    (process.task source).openCount ≤ entry.openStreams := by
  rw [h.openStreams_eq]
  cases source with
  | stdout => exact Nat.le_add_right _ _
  | stderr => exact Nat.le_add_left _ _

/-- The invariant of one process, with its entry as long as it has one. -/
structure ProcessInv (entry : Option RunningProcess) (process : SpawnedProcess) : Prop where
  started : process.Started
  log : process.LogOk
  agrees : ∀ running, entry = some running → running.Agrees process

/-- What publishing does to the process. -/
def SpawnedProcess.publish (event : ExecProcessEvent) (process : SpawnedProcess) : SpawnedProcess :=
  { process with events := process.events.publish event }

namespace SpawnedProcess.LogOk

variable {process : SpawnedProcess} {event : ExecProcessEvent}

lemma notClosed_of_open (h : process.LogOk)
    (hopen : ¬(process.stdout.ended = true ∧ process.stderr.ended = true)) :
    ∀ event ∈ process.events.live, event.isClosed = false := by
  intro event hevent
  cases event with
  | closed seq =>
    obtain ⟨before, after, heq⟩ := List.append_of_mem hevent
    exact absurd (h.closedLast before seq after heq).2.2 hopen
  | output _ | exited _ _ | failed _ => rfl

lemma notClosed_of_waiting (h : process.LogOk) (hexit : process.exit.hasExited = false) :
    ∀ event ∈ process.events.live, event.isClosed = false := by
  intro event hevent
  cases event with
  | closed seq =>
    obtain ⟨before, after, heq⟩ := List.append_of_mem hevent
    obtain ⟨-, ⟨exit, hmem, hexited⟩, -⟩ := h.closedLast before seq after heq
    have hcount := h.exitedOnce
    rw [hexit, if_neg (by simp), Nat.le_zero, List.countP_eq_zero] at hcount
    exact absurd hexited (hcount exit (by rw [heq]; exact List.mem_append_left _ hmem))
  | output _ | exited _ _ | failed _ => rfl

lemma numbered_append (h : process.LogOk)
    (hseq : event.seq = some (process.events.live.length + 1)) :
    (process.events.live ++ [event]).map seq =
      (List.range' 1 (process.events.live ++ [event]).length).map some := by
  rw [List.map_append, h.numbered, List.length_append, List.length_singleton, List.range'_concat,
    List.map_append, List.map_singleton, List.map_singleton, hseq, Nat.one_mul, Nat.add_comm 1]

lemma split_append {live before after : List ExecProcessEvent} {seq : ℕ}
    (hlive : ∀ event ∈ live, event.isClosed = false)
    (h : live ++ [event] = before ++ .closed seq :: after) :
    live = before ∧ event = .closed seq ∧ after = [] := by
  rcases List.eq_nil_or_concat after with rfl | ⟨rest, last, rfl⟩
  · obtain ⟨hbefore, hevent⟩ := List.append_inj' h rfl
    exact ⟨hbefore, (List.cons.inj hevent).1, rfl⟩
  rw [List.concat_eq_append, ← List.cons_append, ← List.append_assoc] at h
  obtain ⟨hbefore, -⟩ := List.append_inj' h rfl
  have hmem : closed seq ∈ live := by
    rw [hbefore]
    exact List.mem_append_right _ List.mem_cons_self
  exact absurd (hlive _ hmem) (by simp [isClosed])

end SpawnedProcess.LogOk

/-! ## Retained output -/

namespace RunningProcess

/-- The sizes of the chunks. -/
abbrev totalBytes (output : List ProcessOutputChunk) : ℕ := (output.map (·.chunk.length)).sum

lemma totalBytes_concat (output : List ProcessOutputChunk) (retained : ProcessOutputChunk) :
    totalBytes (output ++ [retained]) = totalBytes output + retained.chunk.length := by
  rw [totalBytes, List.map_append, List.sum_append]
  rfl

/-- Chunks that may be retained together. -/
def WithinLimit (output : List ProcessOutputChunk) : Prop :=
  totalBytes output ≤ retainedOutputBytesPerProcess

/-- Eviction keeps the longest suffix within the limit, and counts its bytes. -/
lemma evict_longest {output : List ProcessOutputChunk} {retained : ℕ}
    (h : retained = totalBytes output) :
    Retention.LongestSuffix WithinLimit output (evict output retained).1 ∧
      (evict output retained).2 = totalBytes (evict output retained).1 := by
  induction output generalizing retained with
  | nil => exact ⟨.of_holds (Nat.zero_le _), h⟩
  | cons evicted output ih =>
    rw [evict]
    split_ifs with hover
    · have hrest : retained - evicted.chunk.length = totalBytes output := by
        rw [h, totalBytes, List.map_cons, List.sum_cons]
        exact Nat.add_sub_cancel_left _ _
      rw [h] at hover
      exact ⟨(ih hrest).1.cons (Nat.not_le.mpr hover), (ih hrest).2⟩
    · rw [h] at hover
      exact ⟨.of_holds (Nat.not_lt.mp hover), h⟩

end RunningProcess

/-! ## One process -/

namespace ProcessInv

variable {entry : Option RunningProcess} {running : RunningProcess} {process : SpawnedProcess}
  {source : OutputSource} {task : StreamTask}

lemma drop (h : ProcessInv entry process) : ProcessInv none process :=
  ⟨h.started, h.log, fun _ heq => nomatch heq⟩

lemma terminated (h : ProcessInv entry process) (flag : Bool) :
    ProcessInv entry { process with terminated := flag } where
  started := h.started.terminated flag
  log := ⟨h.log.numbered, h.log.exitedOnce, h.log.closedLast⟩
  agrees := fun running heq =>
    have ha := h.agrees running heq
    ⟨ha.nextSeq_eq, ha.openStreams_eq, ha.exited, ha.notClosed, ha.retainedBytes_eq,
      ha.retainedBytes_le⟩

/-- A task comes further; the count of open streams changes with it. -/
lemma setTask {entry' : Option RunningProcess} (h : ProcessInv entry process)
    (htask : task ≠ .unstarted) (hended : (process.task source).ended = true → task.ended = true)
    (hentry : ∀ running', entry' = some running' → ∃ running, entry = some running ∧
      running' = { running with openStreams :=
        running.openStreams - (process.task source).openCount + task.openCount }) :
    ProcessInv entry' (process.setTask source task) := by
  refine ⟨h.started.setTask htask, ⟨?_, ?_, ?_⟩, ?_⟩
  · rw [SpawnedProcess.setTask_events]
    exact h.log.numbered
  · rw [SpawnedProcess.setTask_events, SpawnedProcess.setTask_exit]
    exact h.log.exitedOnce
  · intro before seq after heq
    rw [SpawnedProcess.setTask_events] at heq
    obtain ⟨hafter, hexited, hstdout, hstderr⟩ := h.log.closedLast before seq after heq
    cases source with
    | stdout => exact ⟨hafter, hexited, hended hstdout, hstderr⟩
    | stderr => exact ⟨hafter, hexited, hstdout, hended hstderr⟩
  · intro running' heq
    obtain ⟨running, hrunning, rfl⟩ := hentry running' heq
    have ha := h.agrees running hrunning
    have hopen := ha.openStreams_eq
    refine ⟨?_, ?_, ?_, ?_, ha.retainedBytes_eq, ha.retainedBytes_le⟩
    · rw [SpawnedProcess.setTask_events]
      exact ha.nextSeq_eq
    · cases source with
      | stdout | stderr =>
        simp only [SpawnedProcess.task, SpawnedProcess.setTask]
        omega
    · rw [SpawnedProcess.setTask_events]
      exact ha.exited
    · rw [SpawnedProcess.setTask_events]
      exact ha.notClosed

section

variable (h : ProcessInv (some running) process)
include h

/-- The next event is numbered after all before it. -/
lemma append {running' : RunningProcess} {exit : ExitTask} {event : ExecProcessEvent}
    (hnone : ∀ event ∈ process.events.live, event.isClosed = false)
    (hseq : event.seq = some running.nextSeq) (hnext : running'.nextSeq = running.nextSeq + 1)
    (hexit : exit ≠ .unstarted)
    (honce : (process.events.live ++ [event]).countP (·.isExited) ≤ if exit.hasExited then 1 else 0)
    (hlast : ∀ seq, event = .closed seq → (∃ event ∈ process.events.live, event.isExited = true) ∧
      process.stdout.ended = true ∧ process.stderr.ended = true)
    (hstreams : running'.openStreams = running.openStreams)
    (hexited : running'.exitCode.isSome →
      ∃ other ∈ process.events.live ++ [event], other.isExited = true)
    (hclosed : running'.closed = false → event.isClosed = false)
    (hbytes : running'.retainedBytes = totalBytes running'.output)
    (hle : running'.retainedBytes ≤ retainedOutputBytesPerProcess) :
    ProcessInv (some running') { process.publish event with exit := exit } := by
  have ha := h.agrees running rfl
  refine ⟨⟨h.started.1, h.started.2, hexit⟩, ⟨?_, honce, ?_⟩, ?_⟩
  · exact h.log.numbered_append (by rw [← ha.nextSeq_eq, hseq])
  · intro before seq after heq
    obtain ⟨rfl, hevent, hafter⟩ := SpawnedProcess.LogOk.split_append hnone heq
    exact ⟨hafter, hlast seq hevent⟩
  · intro running'' heq
    cases heq
    refine ⟨?_, hstreams.trans ha.openStreams_eq, hexited, ?_, hbytes, hle⟩
    · show running'.nextSeq = (process.events.live ++ [_]).length + 1
      rw [hnext, ha.nextSeq_eq, List.length_append, List.length_singleton]
    · intro hopen other hother
      rcases List.mem_append.mp hother with hother | hother
      · exact hnone other hother
      · rw [List.mem_singleton.mp hother]
        exact hclosed hopen

/-- An output chunk, as long as the task of its stream reads. -/
lemma pushOutput (htask : (process.task source).ended = false) (stream : ExecOutputStream)
    (chunk : List UInt8) :
    ProcessInv (some (running.pushOutput stream chunk).1)
      (process.publish (running.pushOutput stream chunk).2) := by
  have ha := h.agrees running rfl
  have hopen : ¬(process.stdout.ended = true ∧ process.stderr.ended = true) := by
    rintro ⟨hstdout, hstderr⟩
    cases source with
    | stdout => exact absurd hstdout (by rw [show process.stdout.ended = false from htask]; simp)
    | stderr => exact absurd hstderr (by rw [show process.stderr.ended = false from htask]; simp)
  have hbytes : running.retainedBytes + chunk.length =
      totalBytes (running.output ++ [⟨running.nextSeq, stream, chunk⟩]) := by
    rw [ha.retainedBytes_eq, totalBytes_concat]
  obtain ⟨hkept, hcount⟩ := evict_longest hbytes
  refine h.append (h.log.notClosed_of_open hopen) rfl rfl h.started.exit ?_ nofun rfl ?_ (fun _ => rfl) hcount
    (hcount.trans_le hkept.holds)
  · rw [List.countP_append, List.countP_singleton]
    exact h.log.exitedOnce
  · intro hexit
    obtain ⟨event, hevent, hexited⟩ := ha.exited hexit
    exact ⟨event, List.mem_append_left _ hevent, hexited⟩

lemma recordExit (hexit : process.exit.hasExited = false) (exitCode : ℤ) :
    ProcessInv (some (running.recordExit exitCode).1)
      { process.publish (running.recordExit exitCode).2 with exit := .emitting exitCode } := by
  have ha := h.agrees running rfl
  have hcount := h.log.exitedOnce
  rw [hexit, if_neg (by simp), Nat.le_zero] at hcount
  refine h.append (h.log.notClosed_of_waiting hexit) rfl rfl nofun ?_ nofun rfl ?_ (fun _ => rfl)
    ha.retainedBytes_eq ha.retainedBytes_le
  · rw [List.countP_append, hcount, List.countP_singleton]
    exact Nat.le_refl 1
  · intro _
    exact ⟨_, List.mem_append_right _ (List.mem_singleton_self _), rfl⟩

/-- The closing event: the entry is open, both streams have ended and the exit is known. -/
lemma maybeEmitClosed {running' : RunningProcess}
    {event : ExecProcessEvent} (hemit : running.maybeEmitClosed = some (running', event)) :
    ProcessInv (some running') (process.publish event) := by
  have ha := h.agrees running rfl
  simp only [RunningProcess.maybeEmitClosed, Option.ite_none_left_eq_some, Option.some.injEq,
    Prod.mk.injEq, Bool.or_eq_true, not_or, bne_iff_ne, ne_eq, not_not, Bool.not_eq_true] at hemit
  obtain ⟨⟨⟨hclosed, hstreams⟩, hexit⟩, rfl, rfl⟩ := hemit
  have hnone := ha.notClosed hclosed
  have hopen := ha.openStreams_eq
  have hstdout : process.stdout.openCount = 0 := by omega
  have hstderr : process.stderr.openCount = 0 := by omega
  have hended : ∀ task : StreamTask, task ≠ .unstarted → task.openCount = 0 → task.ended = true := by
    intro task hne hzero
    cases task <;> simp_all [StreamTask.openCount, StreamTask.ended]
  have hexited : ∃ event ∈ process.events.live, event.isExited = true := by
    apply ha.exited
    cases hcode : running.exitCode with
    | none => simp [hcode] at hexit
    | some code => rfl
  refine h.append hnone rfl rfl h.started.exit ?_ ?_ rfl ?_ nofun ha.retainedBytes_eq ha.retainedBytes_le
  · rw [List.countP_append, List.countP_singleton]
    exact h.log.exitedOnce
  · intro _ _
    exact ⟨hexited, hended _ h.started.stdout hstdout, hended _ h.started.stderr hstderr⟩
  · intro _
    obtain ⟨event, hevent, hisExited⟩ := hexited
    exact ⟨event, List.mem_append_left _ hevent, hisExited⟩

end

lemma setExit (h : ProcessInv entry process) {exit : ExitTask} (hexit : exit ≠ .unstarted)
    (hexited : process.exit.hasExited = true → exit.hasExited = true) :
    ProcessInv entry { process with exit := exit } where
  started := ⟨h.started.stdout, h.started.stderr, hexit⟩
  log := by
    refine ⟨h.log.numbered, ?_, h.log.closedLast⟩
    have hcount := h.log.exitedOnce
    cases hbefore : process.exit.hasExited with
    | true =>
      rw [hbefore] at hcount
      rw [hexited hbefore]
      exact hcount
    | false =>
      rw [hbefore, if_neg (by simp), Nat.le_zero] at hcount
      show process.events.live.countP _ ≤ _
      rw [hcount]
      exact Nat.zero_le _
  agrees := fun running heq =>
    have ha := h.agrees running heq
    ⟨ha.nextSeq_eq, ha.openStreams_eq, ha.exited, ha.notClosed, ha.retainedBytes_eq,
      ha.retainedBytes_le⟩

lemma start (h : process.Unstarted) (params : ExecParams) (session : ℕ) :
    ProcessInv (some (LocalProcess.startedEntry params session))
      { process with stdout := .reading, stderr := .reading, exit := .waiting } := by
  have hlive := h.live
  refine ⟨⟨by simp, by simp, by simp⟩, ⟨?_, ?_, ?_⟩, ?_⟩
  · simp [hlive]
  · simp [hlive]
  · intro before seq after heq
    rw [hlive] at heq
    exact absurd heq (by simp)
  · intro running heq
    cases heq
    refine ⟨?_, rfl, ?_, ?_, rfl, Nat.zero_le _⟩
    · rw [hlive]
      rfl
    · intro hsome
      cases hsome
    · simp [hlive]

end ProcessInv

/-! ## The map and the spawned processes -/

namespace LocalProcess

variable {s s' : LocalProcess} {processId : ProcessId} {session : ℕ}

lemma running?_eq_some {process : RunningProcess} :
    s.running? processId = some process ↔
      s.processes.lookup processId = some (.running process) := by
  rw [running?]
  split
  · rename_i heq
    rw [heq]
    simp
  · rename_i hne
    constructor
    · intro h
      cases h
    · intro h
      exact absurd h (hne process)

@[simp] lemma running?_setRunning (process : RunningProcess) (other : ProcessId) :
    (s.setRunning processId process).running? other =
      if other = processId then some process else s.running? other := by
  simp only [running?, setRunning]
  split_ifs with heq
  · rw [heq, AList.lookup_insert]
  · rw [AList.lookup_insert_ne heq]

@[simp] lemma running?_modifySpawned (f : SpawnedProcess → SpawnedProcess) (other : ProcessId) :
    (s.modifySpawned session f).running? other = s.running? other := rfl

@[simp] lemma running?_setPhase (call : ℕ) (phase : StartPhase) (other : ProcessId) :
    (s.setPhase call phase).running? other = s.running? other := rfl

lemma running?_erase (other : ProcessId) :
    ({ s with processes := s.processes.erase processId } : LocalProcess).running? other =
      if other = processId then none else s.running? other := by
  simp only [running?]
  split_ifs with heq
  · rw [heq, AList.lookup_erase]
  · rw [AList.lookup_erase_ne heq]

lemma getElem?_modifySpawned (f : SpawnedProcess → SpawnedProcess) (other : ℕ) :
    (s.modifySpawned session f).spawned[other]? =
      (s.spawned[other]?).map fun process => if session = other then f process else process := by
  show (s.spawned.modify session f)[other]? = _
  rw [List.getElem?_modify]
  rfl

/-- What holds of the map, the start calls and the spawned processes in every run. -/
structure WellFormed (s : LocalProcess) : Prop where
  home : ∀ processId process, s.running? processId = some process →
    ∃ spawned, s.spawned[process.session]? = some spawned ∧ spawned.processId = processId ∧
      spawned.Started
  pending : ∀ (call : ℕ) start session, s.starts[call]? = some start →
    start.phase = .spawned session → ∃ spawned, s.spawned[session]? = some spawned ∧
      spawned.processId = start.params.processId ∧ spawned.Unstarted
  pendingOnce : ∀ (call call' : ℕ) start start' session, s.starts[call]? = some start →
    s.starts[call']? = some start' → start.phase = .spawned session →
    start'.phase = .spawned session → call = call'

/-- A task of a process that finds an entry under its process id finds the one of its own process. -/
def Isolated (processId : ProcessId) (s : LocalProcess) : Prop :=
  ∀ (session : ℕ) spawned process, s.spawned[session]? = some spawned →
    spawned.processId = processId → spawned.Live → s.running? processId = some process →
    process.session = session

/-- The entry of a process, if the entry under its id is its own. -/
def ownEntry (s : LocalProcess) (session : ℕ) (processId : ProcessId) : Option RunningProcess :=
  (s.running? processId).filter fun process => process.session = session

/-- Every process that was started under the id keeps the invariant of one process. -/
def Ordered (processId : ProcessId) (s : LocalProcess) : Prop :=
  ∀ (session : ℕ) spawned, s.spawned[session]? = some spawned → spawned.processId = processId →
    spawned.Unstarted ∨ ProcessInv (s.ownEntry session processId) spawned

lemma ownEntry_eq_some {process : RunningProcess} :
    s.ownEntry session processId = some process ↔
      s.running? processId = some process ∧ process.session = session := by
  simp [ownEntry, Option.filter_eq_some_iff]

lemma ownEntry_eq_running?
    (h : ∀ process, s.running? processId = some process → process.session = session) :
    s.ownEntry session processId = s.running? processId := by
  rw [ownEntry]
  cases hrunning : s.running? processId with
  | none => rfl
  | some process =>
    rw [Option.filter_some, if_pos]
    exact decide_eq_true (h process hrunning)

lemma Isolated.ownEntry_eq (hi : Isolated processId s) {spawned : SpawnedProcess}
    (hspawned : s.spawned[session]? = some spawned) (hid : spawned.processId = processId)
    (hlive : spawned.Live) : s.ownEntry session processId = s.running? processId :=
  ownEntry_eq_running? fun process => hi session spawned process hspawned hid hlive

/-! ## Steps that leave the tasks alone -/

/-- Entries may be removed, sessions terminated and start calls advanced, but no entry is added or
changed, and no task acts. -/
structure Quiet (s s' : LocalProcess) : Prop where
  running : ∀ processId process, s'.running? processId = some process →
    s.running? processId = some process
  spawned : ∃ flag : ℕ → SpawnedProcess → Bool, ∀ session, s'.spawned[session]? =
    (s.spawned[session]?).map fun process : SpawnedProcess =>
      { process with terminated := flag session process }
  starts : ∀ (call : ℕ) start session, s'.starts[call]? = some start →
    start.phase = .spawned session → s.starts[call]? = some start

namespace Quiet

variable (hq : Quiet s s')
include hq

lemma exists_getElem {spawned : SpawnedProcess}
    (h : s.spawned[session]? = some spawned) :
    ∃ flag, s'.spawned[session]? = some { spawned with terminated := flag } := by
  obtain ⟨flag, hflag⟩ := hq.spawned
  exact ⟨flag session spawned, by rw [hflag, h, Option.map_some]⟩

lemma exists_getElem' {spawned' : SpawnedProcess}
    (h : s'.spawned[session]? = some spawned') :
    ∃ spawned flag, s.spawned[session]? = some spawned ∧
      spawned' = { spawned with terminated := flag } := by
  obtain ⟨flag, hflag⟩ := hq.spawned
  rw [hflag, Option.map_eq_some_iff] at h
  obtain ⟨spawned, hspawned, rfl⟩ := h
  exact ⟨spawned, flag session spawned, hspawned, rfl⟩

lemma wellFormed (hw : s.WellFormed) : s'.WellFormed where
  home := by
    intro processId process hprocess
    obtain ⟨spawned, hspawned, hid, hstarted⟩ := hw.home processId process (hq.running _ _ hprocess)
    obtain ⟨flag, hflag⟩ := hq.exists_getElem hspawned
    exact ⟨_, hflag, hid, hstarted.terminated flag⟩
  pending := by
    intro call start session hstart hphase
    obtain ⟨spawned, hspawned, hid, hun⟩ :=
      hw.pending call start session (hq.starts call start session hstart hphase) hphase
    obtain ⟨flag, hflag⟩ := hq.exists_getElem hspawned
    exact ⟨_, hflag, hid, hun.terminated flag⟩
  pendingOnce := by
    intro call call' start start' session hstart hstart' hphase hphase'
    exact hw.pendingOnce call call' start start' session
      (hq.starts call start session hstart hphase) (hq.starts call' start' session hstart' hphase')
      hphase hphase'

lemma isolated (hi : Isolated processId s) : Isolated processId s' := by
  intro session spawned' process hspawned' hid hlive hprocess
  obtain ⟨spawned, flag, hspawned, rfl⟩ := hq.exists_getElem' hspawned'
  exact hi session spawned process hspawned hid hlive (hq.running _ _ hprocess)

lemma ordered (ho : Ordered processId s) : Ordered processId s' := by
  intro session spawned' hspawned' hid
  obtain ⟨spawned, flag, hspawned, rfl⟩ := hq.exists_getElem' hspawned'
  rcases ho session spawned hspawned hid with hun | hinv
  · exact .inl (hun.terminated flag)
  refine .inr ?_
  cases hown : s'.ownEntry session processId with
  | none => exact (hinv.drop).terminated flag
  | some process =>
    obtain ⟨hprocess, hsession⟩ := ownEntry_eq_some.mp hown
    rw [ownEntry_eq_some.mpr ⟨hq.running _ _ hprocess, hsession⟩] at hinv
    exact hinv.terminated flag

end Quiet

/-! ## Steps of tasks -/

/-- Does a change of a process keep its id and its tasks running? -/
structure Advances (own : SpawnedProcess → SpawnedProcess) : Prop where
  processId : ∀ process, (own process).processId = process.processId
  started : ∀ process, process.Started → (own process).Started
  terminated : ∀ process, (own process).terminated = process.terminated

/-- Does a change of a process leave its id and its tasks alone? -/
structure KeepsTasks (found : SpawnedProcess → SpawnedProcess) : Prop where
  processId : ∀ process, (found process).processId = process.processId
  tasks : ∀ process, (found process).stdout = process.stdout ∧
    (found process).stderr = process.stderr ∧ (found process).exit = process.exit
  terminated : ∀ process, process.terminated = true → (found process).terminated = true

/-- What a step of a task does: it changes its own process, the process whose entry it finds under its
id, and that entry. -/
structure TaskStep (s s' : LocalProcess) (session : ℕ) (spawned : SpawnedProcess)
    (own found : SpawnedProcess → SpawnedProcess) (entry' : Option RunningProcess) : Prop where
  getElem : s.spawned[session]? = some spawned
  live : spawned.Live
  running : ∀ other, s'.running? other =
    if other = spawned.processId then entry' else s.running? other
  entry : ∀ process', entry' = some process' → ∃ process,
    s.running? spawned.processId = some process ∧ process'.session = process.session
  spawned_eq : ∀ other, s'.spawned[other]? = (s.spawned[other]?).map fun process =>
    (if other = session then own else id)
      ((if (s.ownEntry other spawned.processId).isSome then found else id) process)
  starts : s'.starts = s.starts
  shutdown : s'.shutdown = s.shutdown
  advances : Advances own
  keepsTasks : KeepsTasks found
  /-- An entry stays, or its session is terminated. -/
  kept : ∀ process, s.running? spawned.processId = some process →
    (∃ process', entry' = some process' ∧ process'.session = process.session) ∨
      ∀ found', (found found').terminated = true

namespace TaskStep

variable {spawned : SpawnedProcess} {own found : SpawnedProcess → SpawnedProcess}
  {entry' : Option RunningProcess} (ht : TaskStep s s' session spawned own found entry')
include ht

variable {other : ℕ}

lemma getElem_eq (hother : other ≠ session)
    (hentry : ∀ process, s.running? spawned.processId = some process → process.session ≠ other) :
    s'.spawned[other]? = s.spawned[other]? := by
  have hnone : s.ownEntry other spawned.processId = none := by
    rw [Option.eq_none_iff_forall_not_mem]
    intro process hprocess
    obtain ⟨hrunning, hsession⟩ := ownEntry_eq_some.mp hprocess
    exact hentry process hrunning hsession
  rw [ht.spawned_eq, hnone, if_neg hother]
  simp

lemma getElem_eq_of_ne (hw : s.WellFormed) {process : SpawnedProcess}
    (h : s.spawned[other]? = some process) (hne : process.processId ≠ spawned.processId) :
    s'.spawned[other]? = s.spawned[other]? := by
  refine ht.getElem_eq ?_ ?_
  · rintro rfl
    rw [ht.getElem] at h
    cases h
    exact hne rfl
  · rintro entry hentry rfl
    obtain ⟨home, hhome, hid, -⟩ := hw.home _ entry hentry
    rw [h] at hhome
    cases hhome
    exact hne hid

lemma exists_getElem {process : SpawnedProcess} (h : s.spawned[other]? = some process) :
    ∃ process', s'.spawned[other]? = some process' ∧ process'.processId = process.processId ∧
      (process.Started → process'.Started) ∧ (process'.Live → process.Live) := by
  refine ⟨_, by rw [ht.spawned_eq, h, Option.map_some], ?_, ?_, ?_⟩
  · split_ifs <;> simp [ht.advances.processId, ht.keepsTasks.processId]
  · intro hs
    have hfound : (found process).Started := by
      obtain ⟨h1, h2, h3⟩ := ht.keepsTasks.tasks process
      exact ⟨h1 ▸ hs.stdout, h2 ▸ hs.stderr, h3 ▸ hs.exit⟩
    split_ifs
    · exact ht.advances.started _ hfound
    · exact ht.advances.started _ hs
    · exact hfound
    · exact hs
  · by_cases hsession : other = session
    · subst hsession
      rw [ht.getElem] at h
      cases h
      exact fun _ => ht.live
    · rw [if_neg hsession]
      obtain ⟨h1, h2, h3⟩ := ht.keepsTasks.tasks process
      split_ifs
      · simp only [id, SpawnedProcess.Live, h1, h2, h3, imp_self]
      · exact id

lemma exists_getElem' {process' : SpawnedProcess} (h : s'.spawned[other]? = some process') :
    ∃ process, s.spawned[other]? = some process ∧ process'.processId = process.processId ∧
      (process'.Live → process.Live) := by
  have hspawned := h
  rw [ht.spawned_eq, Option.map_eq_some_iff] at hspawned
  obtain ⟨process, hprocess, -⟩ := hspawned
  obtain ⟨process'', hprocess'', hid, -, hlive⟩ := ht.exists_getElem hprocess
  rw [h] at hprocess''
  cases hprocess''
  exact ⟨process, hprocess, hid, hlive⟩

lemma running_session {other : ProcessId} {process' : RunningProcess}
    (h : s'.running? other = some process') :
    ∃ process, s.running? other = some process ∧ process'.session = process.session := by
  rw [ht.running] at h
  split at h
  · rename_i heq
    rw [heq]
    exact ht.entry process' h
  · exact ⟨process', h, rfl⟩

lemma wellFormed (hw : s.WellFormed) : s'.WellFormed where
  home := by
    intro processId process' hprocess'
    obtain ⟨process, hprocess, hsession⟩ := ht.running_session hprocess'
    obtain ⟨spawned, hspawned, hid, hstarted⟩ := hw.home processId process hprocess
    obtain ⟨spawned', hspawned', hid', hstarted', -⟩ := ht.exists_getElem hspawned
    exact ⟨spawned', by rw [hsession]; exact hspawned', hid'.trans hid, hstarted' hstarted⟩
  pending := by
    intro call start pending hstart hphase
    rw [ht.starts] at hstart
    obtain ⟨process, hprocess, hid, hun⟩ := hw.pending call start pending hstart hphase
    -- a process without tasks is neither the one of the task nor that of an entry
    refine ⟨process, ?_, hid, hun⟩
    rw [ht.getElem_eq, hprocess]
    · rintro rfl
      rw [ht.getElem] at hprocess
      cases hprocess
      exact hun.not_live ht.live
    · rintro entry hentry rfl
      obtain ⟨spawned', hspawned', -, hstarted⟩ := hw.home _ entry hentry
      rw [hprocess] at hspawned'
      cases hspawned'
      exact hun.not_started hstarted
  pendingOnce := by
    rw [ht.starts]
    exact hw.pendingOnce

lemma isolated (hi : Isolated processId s) : Isolated processId s' := by
  intro other process' entry' hprocess' hid hlive hentry'
  obtain ⟨process, hprocess, hid', hlive'⟩ := ht.exists_getElem' hprocess'
  obtain ⟨entry, hentry, hsession⟩ := ht.running_session hentry'
  rw [hsession]
  exact hi other process entry hprocess (hid'.symm.trans hid) (hlive' hlive) hentry

/-- The invariant of one process is all that is left to show of a step, because the entry it finds is
its own. -/
lemma ordered (hw : s.WellFormed) (hi : Isolated processId s) (ho : Ordered processId s)
    (hinv : ProcessInv (s.running? spawned.processId) spawned →
      ProcessInv entry'
        (own ((if (s.running? spawned.processId).isSome then found else id) spawned))) :
    Ordered processId s' := by
  intro other process' hprocess' hid'
  by_cases hid : spawned.processId = processId
  · subst hid
    by_cases hother : other = session
    · subst hother
      have howned := hi.ownEntry_eq ht.getElem rfl ht.live
      have hspawned : ProcessInv (s.running? spawned.processId) spawned := by
        rcases ho other spawned ht.getElem rfl with hun | h
        · exact absurd ht.live hun.not_live
        · rwa [howned] at h
      rw [ht.spawned_eq, ht.getElem, Option.map_some, if_pos rfl, howned] at hprocess'
      cases hprocess'
      refine .inr ?_
      have hown' : s'.ownEntry other spawned.processId = entry' := by
        rw [ownEntry_eq_running?, ht.running, if_pos rfl]
        intro process hprocess
        obtain ⟨before, hbefore, hsession⟩ := ht.running_session hprocess
        rw [hsession]
        exact hi other spawned before ht.getElem rfl ht.live hbefore
      rw [hown']
      exact hinv hspawned
    · -- the entry belongs to the process of the task, so that no other process changes
      have hentry : ∀ process, s.running? spawned.processId = some process →
          process.session ≠ other := by
        intro process hprocess heq
        exact hother (heq.symm.trans
          (hi session spawned process ht.getElem rfl ht.live hprocess))
      rw [ht.getElem_eq hother hentry] at hprocess'
      rcases ho other process' hprocess' hid' with hun | h
      · exact .inl hun
      refine .inr ?_
      have hnone : s'.ownEntry other spawned.processId = none := by
        rw [Option.eq_none_iff_forall_not_mem]
        intro process hprocess
        obtain ⟨hrunning, hsession⟩ := ownEntry_eq_some.mp hprocess
        obtain ⟨before, hbefore, heq⟩ := ht.running_session hrunning
        exact hentry before hbefore (heq.symm.trans hsession)
      rw [hnone]
      exact h.drop
  · have hne : processId ≠ spawned.processId := fun h => hid h.symm
    obtain ⟨process, hprocess, hkeep, -⟩ := ht.exists_getElem' hprocess'
    have hdiffer : process.processId ≠ spawned.processId := by
      rw [← hkeep, hid']
      exact hne
    rw [ht.getElem_eq_of_ne hw hprocess hdiffer] at hprocess'
    have hown' : s'.ownEntry other processId = s.ownEntry other processId := by
      rw [ownEntry, ownEntry, ht.running, if_neg hne]
    rw [hown']
    exact ho other process' hprocess' hid'

end TaskStep

end LocalProcess

end Supercodex.ExecServer
