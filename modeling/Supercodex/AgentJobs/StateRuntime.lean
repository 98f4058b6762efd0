import Supercodex.Library.Table
import Supercodex.Library.Text

/-!
# Agent jobs in the state database (`state/src/runtime/agent_jobs.rs`)

The rows of one job. Each function that writes is one guarded `UPDATE`, given the time it reads from the
clock, and says whether a row was affected where the source asks. A thread is known by a number, where
the source has the text of a UUID.
-/

namespace Supercodex.AgentJobs

/-- `AgentJobStatus`. -/
inductive AgentJobStatus where
  | pending
  | running
  | completed
  | failed
  | cancelled
deriving DecidableEq

/-- `AgentJobItemStatus`. -/
inductive AgentJobItemStatus where
  | pending
  | running
  | completed
  | failed
deriving DecidableEq

/-- `ThreadId`. -/
abbrev ThreadId := ℕ

/-- `AgentJob`. -/
structure AgentJob where
  id : Text
  status : AgentJobStatus
  maxRuntimeSeconds : Option ℕ
  updatedAt : ℕ
  startedAt : Option ℕ
  completedAt : Option ℕ
  lastError : Option Text
deriving DecidableEq

/-- `AgentJobItem`. The result is a JSON object, as text. -/
structure AgentJobItem where
  itemId : Text
  status : AgentJobItemStatus
  assignedThreadId : Option ThreadId
  attemptCount : ℕ
  resultJson : Option Text
  lastError : Option Text
  updatedAt : ℕ
  completedAt : Option ℕ
  reportedAt : Option ℕ
deriving DecidableEq

/-- A table of items, in the order of `row_index`. -/
abbrev Items := Table AgentJobItem AgentJobItem.itemId

/-- `AgentJobProgress`. -/
structure AgentJobProgress where
  totalItems : ℕ
  pendingItems : ℕ
  runningItems : ℕ
  completedItems : ℕ
  failedItems : ℕ
deriving DecidableEq

/-- The rows of one job in `StateRuntime`. -/
structure StateRuntime where
  job : AgentJob
  items : Items

namespace StateRuntime

/-- A row of `agent_job_items` as `create_agent_job` inserts it. -/
def createdItem (now : ℕ) (itemId : Text) : AgentJobItem where
  itemId := itemId
  status := .pending
  assignedThreadId := none
  attemptCount := 0
  resultJson := none
  lastError := none
  updatedAt := now
  completedAt := none
  reportedAt := none

/-- `create_agent_job`, whose items have distinct ids. -/
def createAgentJob (now : ℕ) (id : Text) (maxRuntimeSeconds : Option ℕ)
    (itemIds : { ids : List Text // ids.Nodup }) : StateRuntime where
  job :=
    { id := id
      status := .pending
      maxRuntimeSeconds := maxRuntimeSeconds
      updatedAt := now
      startedAt := none
      completedAt := none
      lastError := none }
  items :=
    { rows := itemIds.val.map (createdItem now)
      unique := by
        rw [List.map_map]
        exact (List.map_id itemIds.val).symm ▸ itemIds.property }

variable (db : StateRuntime) (now : ℕ)

/-- `list_agent_job_items`. -/
def listAgentJobItems (status : AgentJobItemStatus) (limit : Option ℕ) : List AgentJobItem :=
  let rows := db.items.select fun item => item.status = status
  match limit with
  | none => rows
  | some limit => rows.take limit

/-- `get_agent_job_item`. -/
def getAgentJobItem (itemId : Text) : Option AgentJobItem := db.items.get? itemId

/-- `mark_agent_job_running`. -/
def markAgentJobRunning : StateRuntime :=
  { db with job :=
    { db.job with
      status := .running
      updatedAt := now
      startedAt := some (db.job.startedAt.getD now)
      completedAt := none
      lastError := none } }

/-- `mark_agent_job_completed`. -/
def markAgentJobCompleted : StateRuntime :=
  { db with job :=
    { db.job with status := .completed, updatedAt := now, completedAt := some now, lastError := none } }

/-- `mark_agent_job_failed`. -/
def markAgentJobFailed (errorMessage : Text) : StateRuntime :=
  { db with job :=
    { db.job with
      status := .failed
      updatedAt := now
      completedAt := some now
      lastError := some errorMessage } }

/-- The guard of `mark_agent_job_cancelled`, and whether it returns true. -/
def canCancel : Bool := db.job.status = .pending || db.job.status = .running

/-- `mark_agent_job_cancelled`. -/
def markAgentJobCancelled (reason : Text) : StateRuntime :=
  if db.canCancel then
    { db with job :=
      { db.job with
        status := .cancelled
        updatedAt := now
        completedAt := some now
        lastError := some reason } }
  else db

/-- `is_agent_job_cancelled`. -/
def isAgentJobCancelled : Bool := db.job.status = .cancelled

/-- An update of one item where it has a status. -/
def updateItem (itemId : Text) (guard : AgentJobItem → Bool) (set : AgentJobItem → AgentJobItem)
    (hset : ∀ item, (set item).itemId = item.itemId) : StateRuntime :=
  { db with items := db.items.update itemId guard set hset }

/-- The guard of `mark_agent_job_item_running_with_thread`. -/
def isPending (item : AgentJobItem) : Bool := item.status = .pending

/-- The guard of `mark_agent_job_item_pending` and `mark_agent_job_item_failed`. -/
def isRunning (item : AgentJobItem) : Bool := item.status = .running

/-- The guard of `mark_agent_job_item_completed`. -/
def isRunningWithResult (item : AgentJobItem) : Bool := item.status = .running && item.resultJson.isSome

/-- The guard of `report_agent_job_item_result`. -/
def isAssignedTo (threadId : ThreadId) (item : AgentJobItem) : Bool :=
  item.status = .running && item.assignedThreadId = some threadId

/-- `mark_agent_job_item_running_with_thread`. -/
def markAgentJobItemRunningWithThread (itemId : Text) (threadId : ThreadId) : StateRuntime :=
  db.updateItem itemId isPending
    (fun item =>
      { item with
        status := .running
        assignedThreadId := some threadId
        attemptCount := item.attemptCount + 1
        updatedAt := now
        lastError := none })
    fun _ => rfl

/-- `mark_agent_job_item_pending`. -/
def markAgentJobItemPending (itemId : Text) (errorMessage : Option Text) : StateRuntime :=
  db.updateItem itemId isRunning
    (fun item =>
      { item with
        status := .pending
        assignedThreadId := none
        updatedAt := now
        lastError := errorMessage })
    fun _ => rfl

/-- `report_agent_job_item_result`. -/
def reportAgentJobItemResult (itemId : Text) (reportingThreadId : ThreadId) (resultJson : Text) :
    StateRuntime :=
  db.updateItem itemId (isAssignedTo reportingThreadId)
    (fun item =>
      { item with
        status := .completed
        resultJson := some resultJson
        reportedAt := some now
        completedAt := some now
        updatedAt := now
        lastError := none
        assignedThreadId := none })
    fun _ => rfl

/-- `mark_agent_job_item_completed`. -/
def markAgentJobItemCompleted (itemId : Text) : StateRuntime :=
  db.updateItem itemId isRunningWithResult
    (fun item =>
      { item with
        status := .completed
        completedAt := some now
        updatedAt := now
        assignedThreadId := none })
    fun _ => rfl

/-- `mark_agent_job_item_failed`. -/
def markAgentJobItemFailed (itemId errorMessage : Text) : StateRuntime :=
  db.updateItem itemId isRunning
    (fun item =>
      { item with
        status := .failed
        completedAt := some now
        updatedAt := now
        lastError := some errorMessage
        assignedThreadId := none })
    fun _ => rfl

/-- `get_agent_job_progress`. -/
def getAgentJobProgress : AgentJobProgress where
  totalItems := db.items.rows.length
  pendingItems := db.items.rows.countP fun item => item.status = .pending
  runningItems := db.items.rows.countP fun item => item.status = .running
  completedItems := db.items.rows.countP fun item => item.status = .completed
  failedItems := db.items.rows.countP fun item => item.status = .failed

end StateRuntime

end Supercodex.AgentJobs
