import Mathlib.Data.Prod.Lex
import Supercodex.Library.Positions
import Supercodex.Library.Table
import Supercodex.Library.Window

/-!
# Log retention (`state/src/runtime/logs.rs`)

A batch of log entries is inserted in one transaction, which then deletes what is over the budget of the
partitions that the batch has entries of: three statements, each behind a check of its own. A statement
that the database refuses rolls the whole transaction back and is left out.
-/

namespace Supercodex.Logs

open Positions (len)

/-- `LOG_PARTITION_SIZE_LIMIT_BYTES`. -/
def logPartitionSizeLimitBytes : ℕ := 10 * 1024 * 1024

/-- `LOG_PARTITION_ROW_LIMIT`. -/
def logPartitionRowLimit : ℕ := 1000

/-- `LogEntry`. -/
structure LogEntry where
  ts : ℤ
  tsNanos : ℤ
  level : Text
  target : Text
  message : Option Text
  feedbackLogBody : Option Text
  threadId : Option Text
  processUuid : Option Text
  modulePath : Option Text
  file : Option Text
  line : Option ℤ

/-- A row of the `logs` table. The sizes are sums of lengths, and so never negative. -/
structure Row where
  id : ℕ
  ts : ℤ
  tsNanos : ℤ
  level : Text
  target : Text
  feedbackLogBody : Option Text
  threadId : Option Text
  processUuid : Option Text
  modulePath : Option Text
  file : Option Text
  line : Option ℤ
  estimatedBytes : ℕ
deriving DecidableEq

/-- The order of `ORDER BY ts, ts_nanos, id`. -/
def Row.time (row : Row) : ℤ ×ₗ ℤ ×ₗ ℕ := toLex (row.ts, toLex (row.tsNanos, row.id))

/-- `logs_pool`: the `logs` table, with the last id that `AUTOINCREMENT` gave. -/
structure LogsPool where
  table : Table Row Row.id
  sequence : ℕ
  id_le : ∀ row ∈ table.rows, row.id ≤ sequence

/-- The body that is stored of an entry. -/
def LogEntry.storedBody (entry : LogEntry) : Option Text := entry.feedbackLogBody.or entry.message

/-- The `estimated_bytes` of an entry. -/
def LogEntry.estimatedBytes (entry : LogEntry) : ℕ :=
  entry.storedBody.elim 0 len + len entry.level + len entry.target + entry.modulePath.elim 0 len +
    entry.file.elim 0 len

/-- The row that is bound for an entry, under its new id. -/
def LogEntry.row (entry : LogEntry) (id : ℕ) : Row where
  id := id
  ts := entry.ts
  tsNanos := entry.tsNanos
  level := entry.level
  target := entry.target
  feedbackLogBody := entry.storedBody
  threadId := entry.threadId
  processUuid := entry.processUuid
  modulePath := entry.modulePath
  file := entry.file
  line := entry.line
  estimatedBytes := entry.estimatedBytes

/-- `HAVING SUM(estimated_bytes) > ? OR COUNT(*) > ?`. -/
def overLimit (rows : List Row) : Bool :=
  decide (logPartitionSizeLimitBytes < (rows.map Row.estimatedBytes).sum) ||
    decide (logPartitionRowLimit < rows.length)

namespace LogsPool

/-- One row of `INSERT INTO logs`. -/
def insertRow (logs : LogsPool) (entry : LogEntry) : LogsPool where
  table :=
    { rows := logs.table.rows ++ [entry.row (logs.sequence + 1)]
      unique := by
        rw [List.map_append, List.nodup_append]
        refine ⟨logs.table.unique, List.nodup_singleton _, fun a ha b hb => ?_⟩
        obtain ⟨row, hrow, rfl⟩ := List.mem_map.mp ha
        rw [List.mem_singleton.mp hb]
        have hle := logs.id_le row hrow
        show row.id ≠ logs.sequence + 1
        omega }
  sequence := logs.sequence + 1
  id_le := by
    intro row hrow
    rcases List.mem_append.mp hrow with hrow | hrow
    · exact (logs.id_le row hrow).trans (Nat.le_succ _)
    · rw [List.mem_singleton.mp hrow]
      exact le_rfl

/-- `DELETE FROM logs WHERE …`. -/
def delete (logs : LogsPool) (p : Row → Bool) : LogsPool where
  table := logs.table.deleteWhere p
  sequence := logs.sequence
  id_le := fun row hrow => logs.id_le row (List.mem_of_mem_filter hrow)

/-- `DELETE FROM logs WHERE id IN (…)`: the rows of a selection whose cumulative bytes or whose number,
in the window of their column, the newest first, are over a limit. -/
def deleteOverBudget (logs : LogsPool) (column : Row → Option Text) (selected : Row → Bool) : LogsPool :=
  let windows := Window.evaluate column Row.time Row.estimatedBytes (logs.table.select selected)
  let ids := (windows.filter fun (_, cumulativeBytes, rowNumber) =>
    decide (logPartitionSizeLimitBytes < cumulativeBytes) || decide (logPartitionRowLimit < rowNumber)).map
      fun (row, _) => row.id
  logs.delete fun row => row.id ∈ ids

/-- `SELECT column FROM logs WHERE … AND column IN (…) GROUP BY column HAVING …`. -/
def overLimitKeys (logs : LogsPool) (column : Row → Option Text) (among : Row → Bool) (keys : List Text) :
    List Text :=
  keys.filter fun key =>
    let group := logs.table.select fun row => among row && column row = some key
    !group.isEmpty && overLimit group

/-- The pruning of the groups of a column: the check, and the deletion where a group is over a limit. -/
def pruneGroups (logs : LogsPool) (column : Row → Option Text) (among : Row → Bool) (keys : List Text) : LogsPool :=
  if keys.isEmpty then logs
  else
    let overLimitKeys := logs.overLimitKeys column among keys
    if overLimitKeys.isEmpty then logs
    else logs.deleteOverBudget column fun row => among row && overLimitKeys.any fun key => column row = some key

/-- The first part of `prune_logs_after_insert`: `thread_ids` is a `BTreeSet`, of which only the members
are used. -/
def pruneThreads (logs : LogsPool) (entries : List LogEntry) : LogsPool :=
  let threadIds := (entries.filterMap LogEntry.threadId).dedup
  logs.pruneGroups Row.threadId (fun _ => true) threadIds

/-- The second part of `prune_logs_after_insert`. -/
def pruneThreadlessProcesses (logs : LogsPool) (entries : List LogEntry) : LogsPool :=
  let threadlessProcessUuids :=
    ((entries.filter fun entry => entry.threadId.isNone).filterMap LogEntry.processUuid).dedup
  logs.pruneGroups Row.processUuid (fun row => row.threadId.isNone) threadlessProcessUuids

/-- The third part of `prune_logs_after_insert`. -/
def pruneThreadlessNullProcess (logs : LogsPool) (entries : List LogEntry) : LogsPool :=
  let hasThreadlessNullProcessUuid :=
    entries.any fun entry => entry.threadId.isNone && entry.processUuid.isNone
  let selected := fun row : Row => row.threadId.isNone && row.processUuid.isNone
  if hasThreadlessNullProcessUuid then
    if overLimit (logs.table.select selected) then logs.deleteOverBudget Row.processUuid selected else logs
  else logs

/-- `StateRuntime::prune_logs_after_insert`. -/
def pruneLogsAfterInsert (logs : LogsPool) (entries : List LogEntry) : LogsPool :=
  ((logs.pruneThreads entries).pruneThreadlessProcesses entries).pruneThreadlessNullProcess entries

/-- `INSERT INTO logs … VALUES …`. -/
def insertRows (logs : LogsPool) (entries : List LogEntry) : LogsPool := entries.foldl insertRow logs

/-- `StateRuntime::insert_logs`. -/
def insertLogs (logs : LogsPool) (entries : List LogEntry) : LogsPool :=
  if entries.isEmpty then logs else (logs.insertRows entries).pruneLogsAfterInsert entries

/-- `StateRuntime::delete_logs_before`. -/
def deleteLogsBefore (logs : LogsPool) (cutoffTs : ℤ) : LogsPool := logs.delete fun row => decide (row.ts < cutoffTs)

end LogsPool

end Supercodex.Logs
