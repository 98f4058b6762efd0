import Supercodex.AgentJobs.StateRuntime
import Supercodex.ThreadHistory.ThreadItem
import Supercodex.Library.Runs
import Mathlib.Data.List.AList

/-!
# Running an agent job (`core/src/tools/handlers/agent_jobs.rs`)

The runner of a job spawns a worker for each item, and the workers report their results while it goes
on. Each step of the runner is one statement of the database, one request to the agent control, or local
work between them; a report and the cancellation that it may ask for are one statement each. Waiting for a
status change, the progress messages and what is not written to the job are left out.
-/

namespace Supercodex.AgentJobs

open ThreadHistory (AgentStatus)

/-- `is_final`. -/
def isFinal : AgentStatus → Bool
  | .pendingInit | .running | .interrupted => false
  | _ => true

/-- `DEFAULT_AGENT_JOB_CONCURRENCY`. -/
def defaultAgentJobConcurrency : ℕ := 16

/-- `MAX_AGENT_JOB_CONCURRENCY`. -/
def maxAgentJobConcurrency : ℕ := 64

/-- `DEFAULT_AGENT_JOB_ITEM_TIMEOUT`, in seconds. -/
def defaultAgentJobItemTimeout : ℕ := 60 * 30

/-- `normalize_concurrency`. -/
def normalizeConcurrency (requested maxThreads : Option ℕ) : ℕ :=
  let requested := min (max (requested.getD defaultAgentJobConcurrency) 1) maxAgentJobConcurrency
  match maxThreads with
  | some maxThreads => min requested (max maxThreads 1)
  | none => requested

/-- `job_runtime_timeout`, in seconds. -/
def jobRuntimeTimeout (job : AgentJob) : ℕ := job.maxRuntimeSeconds.getD defaultAgentJobItemTimeout

/-- The error of an item whose worker took too long. -/
def maxRuntimeError (seconds : ℕ) : Text :=
  "worker exceeded max runtime of ".toList ++ (toString seconds).toList ++ "s".toList

/-- `ActiveJobItem`, whose start is in milliseconds. -/
structure ActiveJobItem where
  itemId : Text
  startedAt : ℕ
deriving DecidableEq

/-- A thread that was spawned for an item: the item of its prompt, the status that the agent control
shows, and what has happened: whether the item was assigned to it, since when the runner counts its time,
and whether it came to a final status and has reported by itself. -/
structure Worker where
  itemId : Text
  status : AgentStatus
  assigned : Bool
  startedAt : Option ℕ
  finished : Bool
  reported : Bool

/-- A worker as `spawn_agent` leaves it. -/
def Worker.spawned (itemId : Text) : Worker where
  itemId := itemId
  status := .pendingInit
  assigned := false
  startedAt := none
  finished := false
  reported := false

/-- A worker that comes to another status. -/
def Worker.comeTo (status : AgentStatus) (worker : Worker) : Worker :=
  { worker with status := status, finished := worker.finished || isFinal status }

/-- A worker that reports on an item. -/
def Worker.reportOn (itemId : Text) (worker : Worker) : Worker :=
  { worker with reported := worker.reported || worker.itemId = itemId }

/-- The loop that the runner is in, with what is left of it. -/
inductive Resume where
  | recovering (items : List AgentJobItem)
  | spawning (items : List AgentJobItem)
  | reaping (stale : List (ThreadId × Text))
  | finishing (finished : List (ThreadId × Text))

/-- Does the loop take the threads that it shuts down out of `active_items`? -/
def Resume.removes : Resume → Bool
  | reaping _ | finishing _ => true
  | _ => false

/-- What the runner does next. -/
inductive RunnerPhase where
  | buildingOptions
  | markingRunning
  | listingRunning
  | resuming (rest : Resume)
  | checkingFirst
  | looping
  | listingPending
  | assigning (itemId : Text) (threadId : ThreadId) (items : List AgentJobItem)
  | activating (itemId : Text) (threadId : ThreadId) (items : List AgentJobItem)
  | releasing (itemId : Text)
  | failingItem (itemId errorMessage : Text) (threadId : Option ThreadId) (rest : Resume)
  | completingItem (itemId : Text) (threadId : ThreadId) (rest : Resume)
  | shuttingDown (threadId : ThreadId) (rest : Resume)
  | finalizing (itemId : Text) (threadId : ThreadId) (rest : Resume)
  | reaping
  | searching
  | readingStatus (left found : List (ThreadId × Text))
  | measuring
  | measuringLast
  | exporting
  | recordingExportFailure (errorMessage : Text)
  | checkingLast
  | markingCompleted
  | measuringCompleted
  | markingFailed (errorMessage : Text)
  | returned

/-- A job while it runs: its rows, the clock in milliseconds, the runner, the workers, and the threads
whose accepted report asks to stop the job and has not done so yet. -/
structure JobRun where
  db : StateRuntime
  now : ℕ
  maxConcurrency : ℕ
  phase : RunnerPhase
  activeItems : AList fun _ : ThreadId => ActiveJobItem
  cancelRequested : Bool
  workers : ThreadId → Option Worker
  stopping : List ThreadId

namespace JobRun

/-- A job that was created and is about to be run. -/
def created (now : ℕ) (id : Text) (maxRuntimeSeconds requested maxThreads : Option ℕ)
    (itemIds : { ids : List Text // ids.Nodup }) : JobRun where
  db := StateRuntime.createAgentJob (now / 1000) id maxRuntimeSeconds itemIds
  now := now
  maxConcurrency := normalizeConcurrency requested maxThreads
  phase := .buildingOptions
  activeItems := ∅
  cancelRequested := false
  workers := fun _ => none
  stopping := []

variable (s : JobRun)

/-- `Utc::now().timestamp()`. -/
def timestamp : ℕ := s.now / 1000

/-- `runtime_timeout`, in milliseconds. -/
def runtimeTimeout : ℕ := jobRuntimeTimeout s.db.job * 1000

/-- `get_status`. -/
def getStatus (threadId : ThreadId) : AgentStatus :=
  match s.workers threadId with
  | some worker => worker.status
  | none => .notFound

/-- A change of one worker. -/
def updateWorker (threadId : ThreadId) (f : Worker → Worker) : JobRun :=
  { s with workers := Function.update s.workers threadId ((s.workers threadId).map f) }

/-- A worker comes to another status. -/
def setStatus (threadId : ThreadId) (status : AgentStatus) : JobRun :=
  s.updateWorker threadId (.comeTo status)

/-- `is_item_stale`. -/
def isItemStale (item : AgentJobItem) : Bool :=
  item.updatedAt * 1000 ≤ s.now && s.runtimeTimeout ≤ s.now - item.updatedAt * 1000

/-- `started_at_from_item`. -/
def startedAtFromItem (item : AgentJobItem) : ℕ :=
  if item.updatedAt * 1000 ≤ s.now then item.updatedAt * 1000 else s.now

/-- `active_items.insert`. -/
def activate (threadId : ThreadId) (itemId : Text) (startedAt : ℕ) : JobRun :=
  { s with activeItems := s.activeItems.insert threadId ⟨itemId, startedAt⟩ }.updateWorker threadId
    fun worker => { worker with startedAt := some startedAt }

/-- One turn of the loop in `recover_running_items`. -/
def recoverItem (item : AgentJobItem) (items : List AgentJobItem) : JobRun :=
  if s.isItemStale item then
    { s with phase := .failingItem item.itemId (maxRuntimeError (jobRuntimeTimeout s.db.job))
              item.assignedThreadId (.recovering items) }
  else
    match item.assignedThreadId with
    | none =>
      { s with phase := .failingItem item.itemId "running item is missing assigned_thread_id".toList none
                (.recovering items) }
    | some threadId =>
      if isFinal (s.getStatus threadId) then
        { s with phase := .finalizing item.itemId threadId (.recovering items) }
      else
        { s.activate threadId item.itemId (s.startedAtFromItem item) with
          phase := .resuming (.recovering items) }

/-- The items whose workers ran for too long, in `reap_stale_active_items`. -/
def staleItems : List (ThreadId × Text) :=
  (s.activeItems.entries.filter fun entry => entry.2.startedAt + s.runtimeTimeout ≤ s.now).map
    fun entry => (entry.1, entry.2.itemId)

/-- The items that `find_finished_threads` looks at. -/
def trackedItems : List (ThreadId × Text) :=
  s.activeItems.entries.map fun entry => (entry.1, entry.2.itemId)

/-- The runner goes on with the loop that it is in, if that does not spawn a worker. -/
def resume : Resume → Option JobRun
  | .recovering [] => some { s with phase := .checkingFirst }
  | .recovering (item :: items) => some (s.recoverItem item items)
  | .spawning [] => some { s with phase := .reaping }
  | .spawning (_ :: _) => none
  | .reaping [] => some { s with phase := .searching }
  | .reaping ((threadId, itemId) :: stale) =>
    some { s with phase := .failingItem itemId (maxRuntimeError (jobRuntimeTimeout s.db.job))
                    (some threadId) (.reaping stale) }
  | .finishing [] => some { s with phase := .looping }
  | .finishing ((threadId, itemId) :: finished) =>
    some { s with phase := .finalizing itemId threadId (.finishing finished) }

/-- `mark_agent_job_item_running_with_thread`, and what follows from its answer. -/
def assign (itemId : Text) (threadId : ThreadId) (items : List AgentJobItem) : JobRun :=
  if s.db.items.affects itemId StateRuntime.isPending then
    { s with
      db := s.db.markAgentJobItemRunningWithThread s.timestamp itemId threadId
      phase := .activating itemId threadId items }.updateWorker threadId
        fun worker => { worker with assigned := true }
  else { s with phase := .shuttingDown threadId (.spawning items) }

/-- `finalize_finished_item`, up to what it does with the item. -/
def finalize (itemId : Text) (threadId : ThreadId) (rest : Resume) : JobRun :=
  match s.db.getAgentJobItem itemId with
  | none =>
    { s with phase := .markingFailed
              ("job runner failed: job item not found for finalization: ".toList ++ s.db.job.id ++
                "/".toList ++ itemId) }
  | some item =>
    if item.status = .running then
      if item.resultJson.isSome then { s with phase := .completingItem itemId threadId rest }
      else
        { s with phase := .failingItem itemId
                  "worker finished without calling report_agent_job_result".toList (some threadId) rest }
    else { s with phase := .shuttingDown threadId rest }

/-- `shutdown_live_agent`, and `active_items.remove` where the loop does so. -/
def shutDown (threadId : ThreadId) (rest : Resume) : JobRun :=
  { s.updateWorker threadId fun worker => { worker with status := .notFound } with
    activeItems := if rest.removes then s.activeItems.erase threadId else s.activeItems
    phase := .resuming rest }

/-- The test after a turn without finished threads: is the loop over? -/
def isDrained : Bool :=
  let progress := s.db.getAgentJobProgress
  if s.cancelRequested then progress.runningItems = 0 && s.activeItems.entries.isEmpty
  else progress.pendingItems = 0 && progress.runningItems = 0 && s.activeItems.entries.isEmpty

/-- The next step of the runner, where it has no choice. -/
def proceed : Option JobRun :=
  match s.phase with
  | .buildingOptions => some { s with phase := .markingRunning }
  | .markingRunning =>
    some { s with db := s.db.markAgentJobRunning s.timestamp, phase := .listingRunning }
  | .listingRunning =>
    some { s with phase := .resuming (.recovering (s.db.listAgentJobItems .running none)) }
  | .resuming rest => s.resume rest
  | .checkingFirst => some { s with cancelRequested := s.db.isAgentJobCancelled, phase := .looping }
  | .looping =>
    some { s with
      cancelRequested := s.cancelRequested || s.db.isAgentJobCancelled
      phase := .listingPending }
  | .listingPending =>
    if !s.cancelRequested && decide (s.activeItems.entries.length < s.maxConcurrency) then
      let slots := s.maxConcurrency - s.activeItems.entries.length
      some { s with phase := .resuming (.spawning (s.db.listAgentJobItems .pending (some slots))) }
    else some { s with phase := .reaping }
  | .assigning itemId threadId items => some (s.assign itemId threadId items)
  | .activating itemId threadId items =>
    some { s.activate threadId itemId s.now with phase := .resuming (.spawning items) }
  | .releasing itemId =>
    some { s with db := s.db.markAgentJobItemPending s.timestamp itemId none, phase := .reaping }
  | .failingItem itemId errorMessage threadId rest =>
    some { s with
      db := s.db.markAgentJobItemFailed s.timestamp itemId errorMessage
      phase := match threadId with
        | some threadId => .shuttingDown threadId rest
        | none => .resuming rest }
  | .completingItem itemId threadId rest =>
    some { s with
      db := s.db.markAgentJobItemCompleted s.timestamp itemId
      phase := .shuttingDown threadId rest }
  | .shuttingDown threadId rest => some (s.shutDown threadId rest)
  | .finalizing itemId threadId rest => some (s.finalize itemId threadId rest)
  | .reaping => none
  | .searching => none
  | .readingStatus [] found =>
    some { s with phase := if found = [] then .measuring else .resuming (.finishing found) }
  | .readingStatus ((threadId, itemId) :: left) found =>
    some { s with phase := .readingStatus left
                    (if isFinal (s.getStatus threadId) then found ++ [(threadId, itemId)] else found) }
  | .measuring => some { s with phase := if s.isDrained then .measuringLast else .looping }
  | .measuringLast => some { s with phase := .exporting }
  | .exporting => some { s with phase := .checkingLast }
  | .recordingExportFailure errorMessage =>
    some { s with db := s.db.markAgentJobFailed s.timestamp errorMessage, phase := .returned }
  | .checkingLast =>
    some { s with phase := if s.cancelRequested || s.db.isAgentJobCancelled then .returned
                            else .markingCompleted }
  | .markingCompleted =>
    some { s with db := s.db.markAgentJobCompleted s.timestamp, phase := .measuringCompleted }
  | .measuringCompleted => some { s with phase := .returned }
  | .markingFailed errorMessage =>
    some { s with db := s.db.markAgentJobFailed s.timestamp errorMessage, phase := .returned }
  | .returned => none

/-- `spawn_agents_on_csv::handle`, after `run_agent_job_loop` returned an error. -/
def runnerFailed (error : Text) : JobRun :=
  { s with phase := .markingFailed ("job runner failed: ".toList ++ error) }

/-- The step of the runner when the options, a statement of the database or the export fails. -/
def fail (error : Text) : Option JobRun :=
  match s.phase with
  | .buildingOptions => some { s with phase := .markingFailed error }
  | .exporting =>
    some { s with phase := .recordingExportFailure ("auto-export failed: ".toList ++ error) }
  | .markingRunning | .markingFailed _ => some { s with phase := .returned }
  | .listingRunning | .checkingFirst | .looping | .listingPending | .assigning .. | .releasing _
  | .failingItem .. | .completingItem .. | .finalizing .. | .measuring | .measuringLast
  | .recordingExportFailure _ | .checkingLast | .markingCompleted | .measuringCompleted =>
    some (s.runnerFailed error)
  | .shuttingDown threadId (.finishing finished) =>
    some ((s.shutDown threadId (.finishing finished)).runnerFailed error)
  | _ => none

/-- `spawn_agent` returns a new thread. -/
def spawned (threadId : ThreadId) : Option JobRun :=
  match s.phase with
  | .resuming (.spawning (item :: items)) =>
    if (s.workers threadId).isNone then
      some { s with
        workers := Function.update s.workers threadId (some (.spawned item.itemId))
        phase := .assigning item.itemId threadId items }
    else none
  | _ => none

/-- `spawn_agent` returns `AgentLimitReached`. -/
def agentLimitReached : Option JobRun :=
  match s.phase with
  | .resuming (.spawning (item :: _)) => some { s with phase := .releasing item.itemId }
  | _ => none

/-- `spawn_agent` returns another error. -/
def spawnFailed (error : Text) : Option JobRun :=
  match s.phase with
  | .resuming (.spawning (item :: items)) =>
    some { s with phase := .failingItem item.itemId ("failed to spawn worker: ".toList ++ error) none
                    (.spawning items) }
  | _ => none

/-- The runner goes over `active_items`, in an order of the hash map. -/
def visit (order : List (ThreadId × Text)) : Option JobRun :=
  match s.phase with
  | .reaping => if order.Perm s.staleItems then some { s with phase := .resuming (.reaping order) } else none
  | .searching => if order.Perm s.trackedItems then some { s with phase := .readingStatus order [] } else none
  | _ => none

/-- A thread calls `report_agent_job_result`, up to the request to stop. -/
def report (threadId : ThreadId) (itemId result : Text) (stop : Bool) : JobRun :=
  let accepted := s.db.items.affects itemId (StateRuntime.isAssignedTo threadId)
  { s with
    db := s.db.reportAgentJobItemResult s.timestamp itemId threadId result
    stopping := if accepted && stop then threadId :: s.stopping else s.stopping }.updateWorker threadId
      (.reportOn itemId)

/-- A thread whose report was accepted cancels the job. -/
def cancel (threadId : ThreadId) : Option JobRun :=
  if threadId ∈ s.stopping then
    some { s with
      db := s.db.markAgentJobCancelled s.timestamp "cancelled by worker request".toList
      stopping := s.stopping.erase threadId }
  else none

end JobRun

/-- What happens next. -/
inductive Action where
  | proceed
  | fail (error : Text)
  | spawned (threadId : ThreadId)
  | agentLimitReached
  | spawnFailed (error : Text)
  | visit (order : List (ThreadId × Text))
  | report (threadId : ThreadId) (itemId result : Text) (stop : Bool)
  | cancel (threadId : ThreadId)
  | setStatus (threadId : ThreadId) (status : AgentStatus)
  | elapse (milliseconds : ℕ)

/-- Is it the runner that moves? -/
def Action.isRunner : Action → Bool
  | report .. | cancel _ | setStatus .. | elapse _ => false
  | _ => true

/-- The state after an action, if it can happen. -/
def JobRun.next (s : JobRun) : Action → Option JobRun
  | .proceed => s.proceed
  | .fail error => s.fail error
  | .spawned threadId => s.spawned threadId
  | .agentLimitReached => s.agentLimitReached
  | .spawnFailed error => s.spawnFailed error
  | .visit order => s.visit order
  | .report threadId itemId result stop => some (s.report threadId itemId result stop)
  | .cancel threadId => s.cancel threadId
  | .setStatus threadId status => some (s.setStatus threadId status)
  | .elapse milliseconds => some { s with now := s.now + milliseconds }

/-- One step of a job. -/
def Step (s : JobRun) (action : Action) (s' : JobRun) : Prop := s.next action = some s'

/-- The runs of a job, from its creation. -/
def IsRun (init : JobRun) (ts : List (Runs.Transition JobRun Action)) (s : JobRun) : Prop :=
  (∃ now id maxRuntimeSeconds requested maxThreads itemIds,
    init = .created now id maxRuntimeSeconds requested maxThreads itemIds) ∧ Runs.Run Step init ts s

end Supercodex.AgentJobs
