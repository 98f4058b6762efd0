import Supercodex.UnifiedExec.ProcessManager
import Mathlib.Data.Finset.Max

/-!
# Calls of `exec_command` (`core/src/unified_exec/process_manager.rs`)

The calls of one session share the process store. A call reserves an id, starts a process, keeps it in the
store unless it has exited at once, waits for its output, and last gives the id back or leaves the process to
later calls. Each step is one section under the lock of the store or a step of a call that needs no lock, and
the calls take their steps in any order. A process is known by a number; a call may be dropped at any time.
-/

namespace Supercodex.UnifiedExec

namespace ProcessStore

/-- `HashMap::iter_mut` on the processes. -/
def mapEntries (store : ProcessStore) (f : ℤ → ProcessEntry → ProcessEntry) : ProcessStore where
  processes := store.processes.map fun (id, entry) => (id, f id entry)
  reservedProcessIds := store.reservedProcessIds
  nodup := by
    rw [List.map_map]
    exact store.nodup

/-- `HashSet::insert` on the reserved ids. -/
def reserve (store : ProcessStore) (processId : ℤ) : ProcessStore :=
  { store with reservedProcessIds := {processId} ∪ store.reservedProcessIds }

end ProcessStore

/-- The entry, if it is of a process that exits. -/
def ProcessEntry.markExited (entry : ProcessEntry) (process : ℕ) : ProcessEntry :=
  if entry.process.handle = process then { entry with process := ⟨process, true⟩ } else entry

/-- The entry, used at a time. -/
def ProcessEntry.touch (entry : ProcessEntry) (now : ℕ) : ProcessEntry := { entry with lastUsed := now }

/-- The id that `allocate_process_id` tries: the one after the last where ids are deterministic, and
otherwise one that is drawn. -/
def candidateProcessId (deterministic : Bool) (store : ProcessStore) (drawn : ℤ) : ℤ :=
  if deterministic then WithBot.recBotCoe 1000 (fun m => max m 999 + 1) store.reservedProcessIds.max
  else drawn

/-- `ProcessStatus`, without exit codes. -/
inductive ProcessStatus where
  | alive (callId : Text) (processId : ℤ)
  | exited (entry : ProcessEntry)
  | unknown

/-- `refresh_process_state`. -/
def refreshProcessState (store : ProcessStore) (processId : ℤ) : ProcessStatus × ProcessStore :=
  match store.processes.lookup processId with
  | none => (.unknown, store)
  | some entry =>
    if entry.process.hasExited then
      match store.remove entry.processId with
      | (none, store) => (.unknown, store)
      | (some entry, store) => (.exited entry, store)
    else (.alive entry.callId entry.processId, store)

/-- `terminate_all_processes`, on the store. -/
def terminateAllProcesses (_store : ProcessStore) : ProcessStore := .empty

/-- Where a call is: before its process is started, after that, before its process is stored, and while it
waits for output, with whether the process was stored. -/
inductive ExecPhase where
  | reserved
  | opened (process : ℕ)
  | storing (process : ℕ)
  | waiting (process : ℕ) (stored : Bool)
deriving DecidableEq

/-- A call of `exec_command`, from the reservation of its id to its last step on the store. -/
structure ExecCall where
  processId : ℤ
  phase : ExecPhase
deriving DecidableEq

/-- `UnifiedExecProcessManager`, with the calls in progress, the number of processes that were started, and
which of them have exited. -/
structure UnifiedExecProcessManager where
  store : ProcessStore
  calls : ℕ → Option ExecCall
  started : ℕ
  hasExited : ℕ → Bool

namespace UnifiedExecProcessManager

/-- `UnifiedExecProcessManager::new`. -/
def new : UnifiedExecProcessManager := ⟨.empty, fun _ => none, 0, fun _ => false⟩

/-- What a call writes into the entry of its process. -/
structure EntryData where
  callId : Text
  hookCommand : Text
  tty : Bool
  networkApprovalId : Option Text
  session : Option ℕ
  startedAt : ℕ

/-- A step of a call, of a process, or of the session. -/
inductive Action where
  /-- One round of `allocate_process_id`. -/
  | allocateProcessId (call : ℕ) (drawn : ℤ)
  /-- `open_session_with_sandbox` starts a process. -/
  | openSession (call : ℕ)
  /-- There is no process, or the handler declines the command. -/
  | releaseProcessId (call : ℕ)
  /-- `process_started_alive`. -/
  | checkStarted (call : ℕ)
  | storeProcess (call : ℕ) (data : EntryData)
  /-- The process has a `failure_message`. -/
  | fail (call : ℕ)
  /-- The wait is over. -/
  | finish (call : ℕ)
  /-- The future of the call is dropped. -/
  | drop (call : ℕ)
  /-- A process exits. -/
  | exit (process : ℕ)
  /-- `prepare_process_handles` of a later call. -/
  | prepareProcessHandles (processId : ℤ) (now : ℕ)
  | terminateAllProcesses

/-- A call is in another phase. -/
def goto (s : UnifiedExecProcessManager) (call : ℕ) (processId : ℤ) (phase : ExecPhase) :
    UnifiedExecProcessManager :=
  { s with calls := Function.update s.calls call (some ⟨processId, phase⟩) }

/-- A call is over, and leaves a store behind. -/
def done (s : UnifiedExecProcessManager) (call : ℕ) (store : ProcessStore) : UnifiedExecProcessManager :=
  { s with store := store, calls := Function.update s.calls call none }

/-- The entry of a process. -/
def entryOf (s : UnifiedExecProcessManager) (process : ℕ) (processId : ℤ) (data : EntryData) : ProcessEntry where
  process := ⟨process, s.hasExited process⟩
  callId := data.callId
  processId := processId
  hookCommand := data.hookCommand
  tty := data.tty
  networkApprovalId := data.networkApprovalId
  session := data.session
  lastUsed := data.startedAt

/-- One step. -/
def step (deterministic : Bool) (s : UnifiedExecProcessManager) : Action → Option UnifiedExecProcessManager
  | .allocateProcessId call drawn =>
    match s.calls call with
    | some _ => none
    | none =>
      if 1000 ≤ drawn ∧ drawn < 100000 then
        let processId := candidateProcessId deterministic s.store drawn
        if processId ∈ s.store.reservedProcessIds then some s
        else some ({ s with store := s.store.reserve processId }.goto call processId .reserved)
      else none
  | .openSession call =>
    match s.calls call with
    | some ⟨processId, .reserved⟩ =>
      some ({ s with started := s.started + 1 }.goto call processId (.opened s.started))
    | _ => none
  | .releaseProcessId call =>
    match s.calls call with
    | some ⟨processId, .reserved⟩ => some (s.done call (s.store.remove processId).2)
    | _ => none
  | .checkStarted call =>
    match s.calls call with
    | some ⟨processId, .opened process⟩ =>
      some (s.goto call processId
        (if s.hasExited process then .waiting process false else .storing process))
    | _ => none
  | .storeProcess call data =>
    match s.calls call with
    | some ⟨processId, .storing process⟩ =>
      let stored := storeProcess s.store processId (s.entryOf process processId data)
      some ({ s with store := stored.store }.goto call processId (.waiting process true))
    | _ => none
  | .fail call =>
    match s.calls call with
    | some ⟨processId, .waiting _ _⟩ => some (s.done call (s.store.remove processId).2)
    | _ => none
  | .finish call =>
    match s.calls call with
    | some ⟨processId, .waiting _ true⟩ => some (s.done call (refreshProcessState s.store processId).2)
    | some ⟨processId, .waiting _ false⟩ => some (s.done call (s.store.remove processId).2)
    | _ => none
  | .drop call => some { s with calls := Function.update s.calls call none }
  | .exit process =>
    some { s with
      store := s.store.mapEntries fun _ entry => entry.markExited process
      hasExited := Function.update s.hasExited process true }
  | .prepareProcessHandles processId now =>
    some { s with store := s.store.mapEntries fun id entry =>
      if id = processId then entry.touch now else entry }
  | .terminateAllProcesses => some { s with store := terminateAllProcesses s.store }

/-- A step as a relation. -/
def Step (deterministic : Bool) (s : UnifiedExecProcessManager) (action : Action)
    (s' : UnifiedExecProcessManager) : Prop :=
  s.step deterministic action = some s'

end UnifiedExecProcessManager

end Supercodex.UnifiedExec
