import Supercodex.ExecServer.Process
import Supercodex.Library.Text

/-!
# Local processes (`exec-server/src/local_process.rs`)

The process map of the exec server and the tasks that share it. Each action is one acquisition of the
lock of the map, or a step of a task that needs no lock. A process that was spawned is known by its
index in the list of all of them; its three background tasks know only its process id. The event log
is shared between the entry and the handle of the process, and is kept with the spawned process.
-/

namespace Supercodex.ExecServer

/-- `ProcessId`. -/
abbrev ProcessId := Text

/-- `RETAINED_OUTPUT_BYTES_PER_PROCESS`. -/
def retainedOutputBytesPerProcess : ℕ := 1024 * 1024

/-- `PROCESS_EVENT_CHANNEL_CAPACITY`. -/
def LocalProcess.processEventChannelCapacity : ℕ := 256

/-- `JSONRPCErrorError`, by the function that makes it. -/
inductive RpcError where
  | invalidParams (message : Text)
  | invalidRequest (message : Text)
  | internalError (message : Text)
deriving DecidableEq

/-! ## The entry of a process -/

/-- `RunningProcess`. The session is the spawned process. -/
structure RunningProcess where
  session : ℕ
  tty : Bool
  pipeStdin : Bool
  output : List ProcessOutputChunk
  retainedBytes : ℕ
  nextSeq : ℕ
  exitCode : Option ℤ
  openStreams : ℕ
  closed : Bool
deriving DecidableEq

/-- `ProcessEntry`. -/
inductive ProcessEntry where
  | starting
  | running (process : RunningProcess)
deriving DecidableEq

namespace RunningProcess

/-- The loop of `stream_output` that evicts the oldest chunks while too many bytes are retained. -/
def evict : List ProcessOutputChunk → ℕ → List ProcessOutputChunk × ℕ
  | [], retained => ([], retained)
  | evicted :: output, retained =>
    if retained > retainedOutputBytesPerProcess then
      evict output (retained - evicted.chunk.length)
    else (evicted :: output, retained)

/-- The part of `stream_output` under the lock. -/
def pushOutput (process : RunningProcess) (stream : ExecOutputStream) (chunk : List UInt8) :
    RunningProcess × ExecProcessEvent :=
  let retained : ProcessOutputChunk := ⟨process.nextSeq, stream, chunk⟩
  let kept := evict (process.output ++ [retained]) (process.retainedBytes + chunk.length)
  ({ process with
      nextSeq := process.nextSeq + 1, output := kept.1, retainedBytes := kept.2 },
    .output retained)

/-- The first part of `watch_exit` under the lock. -/
def recordExit (process : RunningProcess) (exitCode : ℤ) : RunningProcess × ExecProcessEvent :=
  ({ process with nextSeq := process.nextSeq + 1, exitCode := some exitCode },
    .exited process.nextSeq exitCode)

/-- The part of `finish_output_stream` under the lock. -/
def finishOutputStream (process : RunningProcess) : RunningProcess :=
  if 0 < process.openStreams then { process with openStreams := process.openStreams - 1 }
  else process

/-- The part of `maybe_emit_closed` under the lock, when it emits. -/
def maybeEmitClosed (process : RunningProcess) : Option (RunningProcess × ExecProcessEvent) :=
  if process.closed || process.openStreams != 0 || process.exitCode.isNone then none
  else some ({ process with closed := true, nextSeq := process.nextSeq + 1 },
    .closed process.nextSeq)

end RunningProcess

/-! ## Reads -/

/-- `ReadParams`, less the time to wait. -/
structure ReadParams where
  processId : ProcessId
  afterSeq : Option ℕ
  maxBytes : Option ℕ

/-- `ReadResponse`. -/
structure ReadResponse where
  chunks : List ProcessOutputChunk
  nextSeq : ℕ
  exited : Bool
  exitCode : Option ℤ
  closed : Bool
  failure : Option Text

/-- The loop of `exec_read` over the retained chunks. -/
def RunningProcess.readChunks (maxBytes : ℕ) :
    List ProcessOutputChunk → List ProcessOutputChunk → ℕ → ℕ → List ProcessOutputChunk × ℕ
  | [], chunks, _, nextSeq => (chunks, nextSeq)
  | retained :: output, chunks, totalBytes, nextSeq =>
    let chunkLen := retained.chunk.length
    if !chunks.isEmpty && totalBytes + chunkLen > maxBytes then (chunks, nextSeq)
    else if totalBytes + chunkLen ≥ maxBytes then (chunks ++ [retained], retained.seq + 1)
    else readChunks maxBytes output (chunks ++ [retained]) (totalBytes + chunkLen)
      (retained.seq + 1)

/-- One round of `exec_read` on a running process. -/
def RunningProcess.read (process : RunningProcess) (params : ReadParams) : ReadResponse :=
  let output := process.output.filter fun chunk => chunk.seq > params.afterSeq.getD 0
  let maxBytes := params.maxBytes.getD (2 ^ 64 - 1)
  let (chunks, nextSeq) := readChunks maxBytes output [] 0 process.nextSeq
  { chunks := chunks
    nextSeq := nextSeq
    exited := process.exitCode.isSome
    exitCode := process.exitCode
    closed := process.closed
    failure := none }

/-! ## Tasks -/

/-- How far a task running `stream_output` has come. -/
inductive StreamTask where
  | unstarted
  | reading
  | finishing
  | emitting
  | returned
deriving DecidableEq

/-- How far the task running `watch_exit` has come. -/
inductive ExitTask where
  | unstarted
  | waiting
  | emitting (exitCode : ℤ)
  | sleeping (exitCode : ℤ)
  | returned
deriving DecidableEq

/-- The two receivers of a spawned process. -/
inductive OutputSource where
  | stdout
  | stderr
deriving DecidableEq

/-- A process that was spawned, with its tasks and its event log. -/
structure SpawnedProcess where
  processId : ProcessId
  tty : Bool
  stdout : StreamTask
  stderr : StreamTask
  exit : ExitTask
  events : ExecProcessEventLog
  terminated : Bool

namespace SpawnedProcess

/-- The task that reads a receiver. -/
def task (process : SpawnedProcess) : OutputSource → StreamTask
  | .stdout => process.stdout
  | .stderr => process.stderr

/-- The task that reads a receiver has come so far. -/
def setTask (process : SpawnedProcess) (source : OutputSource) (task : StreamTask) :
    SpawnedProcess :=
  match source with
  | .stdout => { process with stdout := task }
  | .stderr => { process with stderr := task }

/-- The stream that the chunks of a receiver are given. -/
def stream (process : SpawnedProcess) (source : OutputSource) : ExecOutputStream :=
  if process.tty then .pty
  else match source with
    | .stdout => .stdout
    | .stderr => .stderr

end SpawnedProcess

/-! ## Calls -/

/-- `ExecParams`, less what only the operating system reads. -/
structure ExecParams where
  processId : ProcessId
  argv : List Text
  tty : Bool
  pipeStdin : Bool

/-- How far a call of `start_process` has come. -/
inductive StartPhase where
  | requested
  | reserved
  | spawnFailed (message : Text)
  | spawned (session : ℕ)
  | returned (result : Except RpcError ProcessId)

/-- A call of `start_process`. -/
structure StartCall where
  params : ExecParams
  phase : StartPhase

/-- How far the call of `shutdown` has come. The drained sessions are terminated one by one. -/
inductive Shutdown where
  | idle
  | called
  | terminating (remaining : List ℕ)
deriving DecidableEq

/-- `LocalProcess`, with its tasks and the calls on it. -/
structure LocalProcess where
  processes : AList fun _ : ProcessId => ProcessEntry
  spawned : List SpawnedProcess
  starts : List StartCall
  shutdown : Shutdown

/-- What happens next. Indices of spawned processes and of start calls say whose step it is. -/
inductive Action where
  | call (params : ExecParams)
  | reserve (call : ℕ)
  | spawnOk (call : ℕ)
  | spawnErr (call : ℕ) (message : Text)
  | insert (call : ℕ)
  | removeStarting (call : ℕ)
  | chunk (session : ℕ) (source : OutputSource) (chunk : List UInt8)
  | endOfStream (session : ℕ) (source : OutputSource)
  | finishStream (session : ℕ) (source : OutputSource)
  | streamMaybeEmitClosed (session : ℕ) (source : OutputSource)
  | exit (session : ℕ) (exitCode : ℤ)
  | exitMaybeEmitClosed (session : ℕ)
  | retentionElapsed (session : ℕ)
  | read (params : ReadParams)
  | terminate (processId : ProcessId)
  | callShutdown
  | drain
  | terminateNext

namespace LocalProcess

/-- `LocalProcess::new`. -/
def new : LocalProcess where
  processes := ∅
  spawned := []
  starts := []
  shutdown := .idle

variable (s : LocalProcess)

/-- `Some(ProcessEntry::Running(process))` of a process id. -/
def running? (processId : ProcessId) : Option RunningProcess :=
  match s.processes.lookup processId with
  | some (.running process) => some process
  | _ => none

/-- A spawned process changes. -/
def modifySpawned (session : ℕ) (f : SpawnedProcess → SpawnedProcess) : LocalProcess :=
  { s with spawned := s.spawned.modify session f }

/-- `ExecCommandSession::terminate`, which dropping the session also does. -/
def terminateSession (session : ℕ) : LocalProcess :=
  s.modifySpawned session fun process => { process with terminated := true }

/-- The session of a dropped entry is terminated. -/
def dropEntry : Option ProcessEntry → LocalProcess
  | some (.running process) => s.terminateSession process.session
  | _ => s

/-- The entry of a process id is changed in place. -/
def setRunning (processId : ProcessId) (process : RunningProcess) : LocalProcess :=
  { s with processes := s.processes.insert processId (.running process) }

/-- The entry is changed, and an event is published to its log. -/
def publish (processId : ProcessId) (process : RunningProcess) (event : ExecProcessEvent) :
    LocalProcess :=
  (s.setRunning processId process).modifySpawned process.session fun spawned =>
    { spawned with events := spawned.events.publish event }

/-- `maybe_emit_closed`. -/
def maybeEmitClosed (processId : ProcessId) : LocalProcess :=
  match (s.running? processId).bind (·.maybeEmitClosed) with
  | some (process, event) => s.publish processId process event
  | none => s

/-! ## `start_process` -/

/-- A start call has come so far. -/
def setPhase (call : ℕ) (phase : StartPhase) : LocalProcess :=
  { s with starts := s.starts.modify call fun start => { start with phase := phase } }

/-- A call of `start_process`, up to its first lock. -/
def callStart (params : ExecParams) : LocalProcess :=
  let phase : StartPhase :=
    if params.argv.isEmpty then .returned (.error (.invalidParams "argv must not be empty".toList))
    else .requested
  { s with starts := s.starts ++ [⟨params, phase⟩] }

/-- The first lock of `start_process`: the id is reserved. -/
def reserve (call : ℕ) : Option LocalProcess := do
  let start ← s.starts[call]?
  let .requested := start.phase | none
  let processId := start.params.processId
  if (s.processes.lookup processId).isSome then
    some (s.setPhase call (.returned (.error (.invalidRequest
      ("process ".toList ++ processId ++ " already exists".toList)))))
  else
    some ({ s with processes := s.processes.insert processId .starting }.setPhase call .reserved)

/-- The process is spawned. -/
def spawnOk (call : ℕ) : Option LocalProcess := do
  let start ← s.starts[call]?
  let .reserved := start.phase | none
  let process : SpawnedProcess :=
    { processId := start.params.processId
      tty := start.params.tty
      stdout := .unstarted
      stderr := .unstarted
      exit := .unstarted
      events := .new processEventChannelCapacity retainedOutputBytesPerProcess
      terminated := false }
  some ({ s with spawned := s.spawned ++ [process] }.setPhase call (.spawned s.spawned.length))

/-- No process is spawned. -/
def spawnErr (call : ℕ) (message : Text) : Option LocalProcess := do
  let start ← s.starts[call]?
  let .reserved := start.phase | none
  some (s.setPhase call (.spawnFailed message))

/-- The lock of the error path of `start_process`. -/
def removeStarting (call : ℕ) : Option LocalProcess := do
  let start ← s.starts[call]?
  let .spawnFailed message := start.phase | none
  let processId := start.params.processId
  let processes :=
    if s.processes.lookup processId = some .starting then s.processes.erase processId
    else s.processes
  some ({ s with processes := processes }.setPhase call (.returned (.error (.internalError message))))

/-- The entry that `start_process` inserts. -/
def startedEntry (params : ExecParams) (session : ℕ) : RunningProcess where
  session := session
  tty := params.tty
  pipeStdin := params.pipeStdin
  output := []
  retainedBytes := 0
  nextSeq := 1
  exitCode := none
  openStreams := 2
  closed := false

/-- The last lock of `start_process`: the entry is inserted, an entry that it replaces is dropped,
and the tasks are spawned. -/
def insert (call : ℕ) : Option LocalProcess := do
  let start ← s.starts[call]?
  let .spawned session := start.phase | none
  let processId := start.params.processId
  let dropped := s.dropEntry (s.processes.lookup processId)
  let started := (dropped.setRunning processId (startedEntry start.params session)).modifySpawned
    session fun process =>
      { process with stdout := .reading, stderr := .reading, exit := .waiting }
  some (started.setPhase call (.returned (.ok processId)))

/-! ## The tasks of a process -/

/-- One chunk in the loop of `stream_output`. -/
def streamChunk (session : ℕ) (source : OutputSource) (chunk : List UInt8) :
    Option LocalProcess := do
  let spawned ← s.spawned[session]?
  let .reading := spawned.task source | none
  match s.running? spawned.processId with
  | none => some (s.modifySpawned session (·.setTask source .finishing))
  | some process =>
    let (process, event) := process.pushOutput (spawned.stream source) chunk
    some (s.publish spawned.processId process event)

/-- The receiver is closed and the loop of `stream_output` ends. -/
def streamEnd (session : ℕ) (source : OutputSource) : Option LocalProcess := do
  let spawned ← s.spawned[session]?
  let .reading := spawned.task source | none
  some (s.modifySpawned session (·.setTask source .finishing))

/-- `finish_output_stream`, up to its call of `maybe_emit_closed`. -/
def finishOutputStream (session : ℕ) (source : OutputSource) : Option LocalProcess := do
  let spawned ← s.spawned[session]?
  let .finishing := spawned.task source | none
  match s.running? spawned.processId with
  | none => some (s.modifySpawned session (·.setTask source .returned))
  | some process =>
    some ((s.setRunning spawned.processId process.finishOutputStream).modifySpawned session
      (·.setTask source .emitting))

/-- `maybe_emit_closed` at the end of `finish_output_stream`. -/
def streamMaybeEmitClosed (session : ℕ) (source : OutputSource) : Option LocalProcess := do
  let spawned ← s.spawned[session]?
  let .emitting := spawned.task source | none
  some ((s.maybeEmitClosed spawned.processId).modifySpawned session (·.setTask source .returned))

/-- `watch_exit`, up to its call of `maybe_emit_closed`. -/
def watchExit (session : ℕ) (exitCode : ℤ) : Option LocalProcess := do
  let spawned ← s.spawned[session]?
  let .waiting := spawned.exit | none
  let advanced := s.modifySpawned session fun process => { process with exit := .emitting exitCode }
  match s.running? spawned.processId with
  | none => some advanced
  | some process =>
    let (process, event) := process.recordExit exitCode
    some (advanced.publish spawned.processId process event)

/-- `maybe_emit_closed` in `watch_exit`. -/
def exitMaybeEmitClosed (session : ℕ) : Option LocalProcess := do
  let spawned ← s.spawned[session]?
  let .emitting exitCode := spawned.exit | none
  some ((s.maybeEmitClosed spawned.processId).modifySpawned session fun process =>
    { process with exit := .sleeping exitCode })

/-- The last lock of `watch_exit`: an entry with its exit code is removed and dropped. -/
def retentionElapsed (session : ℕ) : Option LocalProcess := do
  let spawned ← s.spawned[session]?
  let .sleeping exitCode := spawned.exit | none
  let advanced := s.modifySpawned session fun process => { process with exit := .returned }
  match s.running? spawned.processId with
  | none => some advanced
  | some process =>
    if process.exitCode = some exitCode then
      some ({ advanced with processes := s.processes.erase spawned.processId }.dropEntry
        (some (.running process)))
    else some advanced

/-! ## Requests -/

/-- One round of `exec_read`. -/
def execRead (params : ReadParams) : Except RpcError ReadResponse :=
  match s.processes.lookup params.processId with
  | none => .error (.invalidRequest ("unknown process id ".toList ++ params.processId))
  | some .starting =>
    .error (.invalidRequest ("process id ".toList ++ params.processId ++ " is starting".toList))
  | some (.running process) => .ok (process.read params)

/-- `terminate_process`. -/
def terminateProcess (processId : ProcessId) : LocalProcess :=
  match s.running? processId with
  | some process =>
    if process.exitCode.isSome then s else s.terminateSession process.session
  | none => s

/-- The lock of `shutdown`: the map is emptied, and its running sessions remain to be terminated. -/
def drain : Option LocalProcess :=
  match s.shutdown with
  | .called =>
    let remaining := s.processes.entries.filterMap fun entry =>
      match entry.2 with
      | .starting => none
      | .running process => some process.session
    some { s with processes := ∅, shutdown := .terminating remaining }
  | _ => none

/-- One step of the loop of `shutdown`. -/
def terminateNext : Option LocalProcess :=
  match s.shutdown with
  | .terminating (session :: remaining) =>
    some ({ s with shutdown := .terminating remaining }.terminateSession session)
  | _ => none

/-- The state after an action, if it can happen. -/
def step : Action → Option LocalProcess
  | .call params => some (s.callStart params)
  | .reserve call => s.reserve call
  | .spawnOk call => s.spawnOk call
  | .spawnErr call message => s.spawnErr call message
  | .insert call => s.insert call
  | .removeStarting call => s.removeStarting call
  | .chunk session source chunk => s.streamChunk session source chunk
  | .endOfStream session source => s.streamEnd session source
  | .finishStream session source => s.finishOutputStream session source
  | .streamMaybeEmitClosed session source => s.streamMaybeEmitClosed session source
  | .exit session exitCode => s.watchExit session exitCode
  | .exitMaybeEmitClosed session => s.exitMaybeEmitClosed session
  | .retentionElapsed session => s.retentionElapsed session
  | .read _ => some s
  | .terminate processId => some (s.terminateProcess processId)
  | .callShutdown => match s.shutdown with
    | .idle => some { s with shutdown := .called }
    | _ => none
  | .drain => s.drain
  | .terminateNext => s.terminateNext

end LocalProcess

end Supercodex.ExecServer
