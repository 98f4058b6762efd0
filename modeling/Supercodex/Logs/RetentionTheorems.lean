import Supercodex.Library.Runs
import Supercodex.Logs.StateRuntime

/-!
# The budgets of the log partitions

Each of the three deletions prunes some partitions and leaves the others alone, and no partition is
pruned by two of them. A check that finds no partition over its limits changes nothing, as a partition
within its limits has no row that exceeds them.
-/

namespace Supercodex.Logs

open Window LogsPool

/-! ## Partitions and their budgets -/

/-- The partitions of the log: one for each thread, and for the rows without a thread one for each
process and one for those without a process. -/
inductive Partition where
  | thread (id : Text)
  | process (uuid : Text)
  | threadless
deriving DecidableEq

/-- The partition by a thread id and a process id. -/
def Partition.of : Option Text → Option Text → Partition
  | some id, _ => .thread id
  | none, some uuid => .process uuid
  | none, none => .threadless

/-- The partition of a row. -/
def Row.partition (row : Row) : Partition := .of row.threadId row.processUuid

/-- The partition of an entry. -/
def LogEntry.partition (entry : LogEntry) : Partition := .of entry.threadId entry.processUuid

/-- The rows of a partition. -/
def LogsPool.rowsOf (logs : LogsPool) (p : Partition) : List Row :=
  logs.table.rows.filter fun row => row.partition = p

/-- A partition is within both limits. -/
structure WithinLimits (rows : List Row) : Prop where
  bytes : (rows.map Row.estimatedBytes).sum ≤ logPartitionSizeLimitBytes
  count : rows.length ≤ logPartitionRowLimit

/-- The running total of a row, the newest first, or its rank exceeds a limit. -/
def Exceeds (rows : List Row) (row : Row) : Prop :=
  logPartitionSizeLimitBytes < runningTotal Row.time Row.estimatedBytes rows row.time ∨
    logPartitionRowLimit < rowNumber Row.time rows row.time

instance (rows : List Row) (row : Row) : Decidable (Exceeds rows row) := inferInstanceAs (Decidable (_ ∨ _))

/-- The rows of a partition that exceed no limit. -/
def retained (rows : List Row) : List Row := rows.filter fun row => ¬Exceeds rows row

/-- Some partitions are left with the rows that exceed no limit, and the others are left alone. -/
def Prunes (logs logs' : LogsPool) (touched : Partition → Prop) : Prop :=
  ∀ p, (touched p → logs'.rowsOf p = retained (logs.rowsOf p)) ∧
    (¬touched p → logs'.rowsOf p = logs.rowsOf p)

section

variable {logs logs' logs'' : LogsPool} {rows : List Row} {row : Row} {entries : List LogEntry}
  {touched touched' : Partition → Prop} {column : Row → Option Text} {among selected : Row → Bool}
  {keys : List Text}

lemma retained_withinLimits (rows : List Row) : WithinLimits (retained rows) := by
  have hkept : ∀ row ∈ retained rows,
      runningTotal Row.time Row.estimatedBytes rows row.time ≤ logPartitionSizeLimitBytes ∧
        rowNumber Row.time rows row.time ≤ logPartitionRowLimit := by
    intro row hrow
    have hnot : ¬Exceeds rows row := of_decide_eq_true (List.mem_filter.mp hrow).2
    rw [Exceeds] at hnot
    omega
  obtain ⟨hbytes, hcount⟩ := within_of_forall List.filter_sublist hkept
  exact ⟨hbytes, hcount⟩

lemma WithinLimits.sublist (h : WithinLimits rows) {part : List Row} (hsub : part.Sublist rows) :
    WithinLimits part where
  bytes := ((hsub.map _).sum_le_sum fun _ _ => Nat.zero_le _).trans h.bytes
  count := hsub.length_le.trans h.count

lemma WithinLimits.not_exceeds (h : WithinLimits rows) (row : Row) : ¬Exceeds rows row := by
  have hupTo : WithinLimits (upTo Row.time row.time rows) := h.sublist List.filter_sublist
  rintro (hbytes | hcount)
  · exact absurd hupTo.bytes (Nat.not_le.mpr hbytes)
  · exact absurd hupTo.count (Nat.not_le.mpr hcount)

lemma WithinLimits.retained_eq (h : WithinLimits rows) : retained rows = rows :=
  List.filter_eq_self.mpr fun row _ => decide_eq_true (h.not_exceeds row)

lemma overLimit_eq_false_iff : overLimit rows = false ↔ WithinLimits rows := by
  rw [overLimit, Bool.or_eq_false_iff, decide_eq_false_iff_not, decide_eq_false_iff_not, Nat.not_lt,
    Nat.not_lt]
  exact ⟨fun h => ⟨h.1, h.2⟩, fun h => ⟨h.bytes, h.count⟩⟩

/-! ## Pruning partitions -/

lemma Prunes.refl (logs : LogsPool) : Prunes logs logs fun _ => False :=
  fun _ => ⟨fun h => h.elim, fun _ => rfl⟩

lemma Prunes.congr (h : Prunes logs logs' touched) (hiff : ∀ p, touched p ↔ touched' p) :
    Prunes logs logs' touched' :=
  fun p => ⟨fun h' => (h p).1 ((hiff p).mpr h'), fun h' => (h p).2 fun h'' => h' ((hiff p).mp h'')⟩

lemma Prunes.widen (h : Prunes logs logs' touched) (hsub : ∀ p, touched p → touched' p)
    (hwithin : ∀ p, touched' p → ¬touched p → WithinLimits (logs.rowsOf p)) : Prunes logs logs' touched' := by
  intro p
  refine ⟨fun htouched' => ?_, fun hnot => (h p).2 fun htouched => hnot (hsub p htouched)⟩
  by_cases htouched : touched p
  · exact (h p).1 htouched
  · rw [(h p).2 htouched, (hwithin p htouched' htouched).retained_eq]

lemma Prunes.trans (h : Prunes logs logs' touched) (h' : Prunes logs' logs'' touched')
    (hdisjoint : ∀ p, touched p → ¬touched' p) : Prunes logs logs'' fun p => touched p ∨ touched' p := by
  intro p
  constructor
  · rintro (htouched | htouched')
    · rw [(h' p).2 (hdisjoint p htouched), (h p).1 htouched]
    · have hnot : ¬touched p := fun htouched => hdisjoint p htouched htouched'
      rw [(h' p).1 htouched', (h p).2 hnot]
  · intro hnot
    rw [(h' p).2 fun htouched' => hnot (.inr htouched'), (h p).2 fun htouched => hnot (.inl htouched)]

lemma nodup_time (logs : LogsPool) : (logs.table.rows.map Row.time).Nodup := by
  apply List.Nodup.of_map fun time => (ofLex (ofLex time).2).2
  rw [List.map_map]
  exact logs.table.unique

lemma rows_deleteOverBudget : (logs.deleteOverBudget column selected).table.rows =
    logs.table.rows.filter fun row => !(selected row && decide (Exceeds
      ((logs.table.select selected).filter fun row' => column row' = column row) row)) := by
  have hkeys : ((logs.table.select selected).map Row.time).Nodup :=
    (nodup_time logs).sublist (List.filter_sublist.map _)
  refine List.filter_congr fun row hrow => congrArg (!·) (Bool.eq_iff_iff.mpr ?_)
  simp only [decide_eq_true_eq, Bool.and_eq_true, List.mem_map, List.mem_filter, Prod.exists,
    Bool.or_eq_true]
  constructor
  · rintro ⟨row', t, n, ⟨hmem, hover⟩, hid⟩
    obtain ⟨hselected, rfl, rfl⟩ := (mem_evaluate hkeys).mp hmem
    obtain ⟨hrow', hselected⟩ := List.mem_filter.mp hselected
    obtain rfl : row' = row := List.inj_on_of_nodup_map logs.table.unique hrow' hrow hid
    exact ⟨hselected, hover⟩
  · rintro ⟨hselected, hover⟩
    exact ⟨row, _, _, ⟨(mem_evaluate hkeys).mpr ⟨List.mem_filter.mpr ⟨hrow, hselected⟩, rfl, rfl⟩, hover⟩, rfl⟩

/-- Where the selected rows are those of some partitions and the column tells these apart, the deletion
prunes them. -/
lemma prunes_deleteOverBudget (hselected : ∀ row, selected row = true ↔ touched row.partition)
    (hcolumn : ∀ row row', selected row = true → selected row' = true →
      (column row' = column row ↔ row'.partition = row.partition)) :
    Prunes logs (logs.deleteOverBudget column selected) touched := by
  intro p
  rw [rowsOf, rows_deleteOverBudget]
  constructor
  · intro htouched
    have hgroup : ∀ row, row.partition = p →
        ((logs.table.select selected).filter fun row' => column row' = column row) = logs.rowsOf p := by
      intro row hrow
      have hrowSelected : selected row = true := (hselected row).mpr (hrow ▸ htouched)
      rw [Table.select, List.filter_filter]
      refine List.filter_congr fun row' _ => Bool.eq_iff_iff.mpr ?_
      rw [Bool.and_eq_true, decide_eq_true_eq, decide_eq_true_eq, ← hrow]
      constructor
      · rintro ⟨hsame, hselected'⟩
        exact (hcolumn row row' hrowSelected hselected').mp hsame
      · intro hsame
        have hselected' : selected row' = true := (hselected row').mpr (hsame ▸ hrow ▸ htouched)
        exact ⟨(hcolumn row row' hrowSelected hselected').mpr hsame, hselected'⟩
    rw [retained, rowsOf, List.filter_filter, List.filter_filter]
    refine List.filter_congr fun row _ => Bool.eq_iff_iff.mpr ?_
    by_cases hrow : row.partition = p
    · have hrowSelected : selected row = true := (hselected row).mpr (hrow ▸ htouched)
      rw [hgroup row hrow, hrowSelected, ← rowsOf]
      simp only [hrow, decide_true, Bool.true_and, Bool.and_true, Bool.not_eq_true',
        decide_eq_false_iff_not, decide_eq_true_eq]
    · simp [hrow]
  · intro hnot
    rw [rowsOf, List.filter_filter]
    refine List.filter_congr fun row _ => Bool.eq_iff_iff.mpr ?_
    by_cases hrow : row.partition = p
    · have hrowSelected : selected row = false := by
        rw [Bool.eq_false_iff]
        exact fun htrue => hnot (hrow ▸ (hselected row).mp htrue)
      simp [hrow, hrowSelected]
    · simp [hrow]

variable (logs column among keys) in
/-- Where the groups of a column are partitions, the pruning of some groups prunes these partitions. -/
lemma prunes_pruneGroups (part : Text → Partition)
    (hpart : ∀ row key, row.partition = part key ↔ among row = true ∧ column row = some key) :
    Prunes logs (logs.pruneGroups column among keys) fun p => ∃ key ∈ keys, p = part key := by
  -- the groups that pass the check are within their limits
  have hwithin : ∀ key ∈ keys, key ∉ logs.overLimitKeys column among keys →
      WithinLimits (logs.rowsOf (part key)) := by
    intro key hkey hnot
    have hgroup : (logs.table.select fun row => among row && decide (column row = some key)) =
        logs.rowsOf (part key) := by
      refine List.filter_congr fun row _ => Bool.eq_iff_iff.mpr ?_
      rw [Bool.and_eq_true, decide_eq_true_eq, decide_eq_true_eq, hpart]
    have hcheck : ¬(!(logs.rowsOf (part key)).isEmpty && overLimit (logs.rowsOf (part key))) = true := by
      intro hcheck
      refine hnot (List.mem_filter.mpr ⟨hkey, ?_⟩)
      rw [hgroup]
      exact hcheck
    rw [Bool.and_eq_true, not_and_or, Bool.not_eq_true', Bool.not_eq_false] at hcheck
    rcases hcheck with hempty | hlimit
    · rw [List.isEmpty_iff.mp hempty]
      exact ⟨Nat.zero_le _, Nat.zero_le _⟩
    · exact overLimit_eq_false_iff.mp (by simpa using hlimit)
  have hall : logs.overLimitKeys column among keys = [] →
      Prunes logs logs fun p => ∃ key ∈ keys, p = part key := by
    intro hnone
    refine (Prunes.refl logs).widen (fun p h => h.elim) ?_
    rintro p ⟨key, hkey, rfl⟩ -
    exact hwithin key hkey (by simp [hnone])
  rw [pruneGroups]
  dsimp only
  split_ifs with hkeys hnone
  · exact hall (by rw [overLimitKeys, List.isEmpty_iff.mp hkeys, List.filter_nil])
  · exact hall (List.isEmpty_iff.mp hnone)
  have hdelete : Prunes logs
      (logs.deleteOverBudget column fun row =>
        among row && (logs.overLimitKeys column among keys).any fun key => column row = some key)
      fun p => ∃ key ∈ logs.overLimitKeys column among keys, p = part key := by
    apply prunes_deleteOverBudget
    · intro row
      simp only [Bool.and_eq_true, List.any_eq_true, decide_eq_true_eq, hpart]
      exact ⟨fun ⟨hamong, key, hkey, hcolumn⟩ => ⟨key, hkey, hamong, hcolumn⟩,
        fun ⟨key, hkey, hamong, hcolumn⟩ => ⟨hamong, key, hkey, hcolumn⟩⟩
    · intro row row' hrow hrow'
      simp only [Bool.and_eq_true, List.any_eq_true, decide_eq_true_eq] at hrow hrow'
      obtain ⟨hamong, key, -, hcolumn⟩ := hrow
      rw [(hpart row key).mpr ⟨hamong, hcolumn⟩, hpart row' key, hcolumn]
      exact ⟨fun h => ⟨hrow'.1, h⟩, fun h => h.2⟩
  refine hdelete.widen ?_ ?_
  · rintro p ⟨key, hkey, rfl⟩
    exact ⟨key, List.mem_of_mem_filter hkey, rfl⟩
  · rintro p ⟨key, hkey, rfl⟩ hnot
    exact hwithin key hkey fun hover => hnot ⟨key, hover, rfl⟩

/-! ## Inserting a batch -/

variable {threadId processUuid : Option Text}

lemma partition_eq_thread_iff {id : Text} :
    Partition.of threadId processUuid = .thread id ↔ threadId = some id := by
  rcases threadId with _ | id' <;> rcases processUuid with _ | uuid <;> simp [Partition.of]

lemma partition_eq_process_iff {uuid : Text} :
    Partition.of threadId processUuid = .process uuid ↔ threadId.isNone = true ∧ processUuid = some uuid := by
  rcases threadId with _ | id <;> rcases processUuid with _ | uuid' <;> simp [Partition.of]

lemma partition_eq_threadless_iff :
    Partition.of threadId processUuid = .threadless ↔
      threadId.isNone = true ∧ processUuid.isNone = true := by
  rcases threadId with _ | id <;> rcases processUuid with _ | uuid <;> simp [Partition.of]

/-- The batch has an entry of a partition. -/
def Touches (entries : List LogEntry) (p : Partition) : Prop := ∃ entry ∈ entries, entry.partition = p

variable (logs entries)

lemma prunes_pruneThreads :
    Prunes logs (logs.pruneThreads entries) fun p => ∃ id, p = .thread id ∧ Touches entries p := by
  have h := prunes_pruneGroups logs Row.threadId (fun _ => true)
    (entries.filterMap LogEntry.threadId).dedup .thread (by
      intro row id
      rw [Row.partition, partition_eq_thread_iff]
      simp)
  refine h.congr fun p => ?_
  simp only [List.mem_dedup, List.mem_filterMap]
  constructor
  · rintro ⟨id, ⟨entry, hentry, hid⟩, rfl⟩
    exact ⟨id, rfl, entry, hentry, partition_eq_thread_iff.mpr hid⟩
  · rintro ⟨id, rfl, entry, hentry, hid⟩
    exact ⟨id, ⟨entry, hentry, partition_eq_thread_iff.mp hid⟩, rfl⟩

lemma prunes_pruneThreadlessProcesses : Prunes logs (logs.pruneThreadlessProcesses entries) fun p =>
    ∃ uuid, p = .process uuid ∧ Touches entries p := by
  have h := prunes_pruneGroups logs Row.processUuid (fun row => row.threadId.isNone)
    ((entries.filter fun entry => entry.threadId.isNone).filterMap LogEntry.processUuid).dedup .process (fun row uuid => partition_eq_process_iff)
  refine h.congr fun p => ?_
  simp only [List.mem_dedup, List.mem_filterMap, List.mem_filter]
  constructor
  · rintro ⟨uuid, ⟨entry, ⟨hentry, hnone⟩, huuid⟩, rfl⟩
    exact ⟨uuid, rfl, entry, hentry, partition_eq_process_iff.mpr ⟨hnone, huuid⟩⟩
  · rintro ⟨uuid, rfl, entry, hentry, hpartition⟩
    obtain ⟨hnone, huuid⟩ := partition_eq_process_iff.mp hpartition
    exact ⟨uuid, ⟨entry, ⟨hentry, hnone⟩, huuid⟩, rfl⟩

lemma prunes_pruneThreadlessNullProcess : Prunes logs (logs.pruneThreadlessNullProcess entries) fun p =>
    p = .threadless ∧ Touches entries p := by
  have hselected : ∀ row : Row, (row.threadId.isNone && row.processUuid.isNone) = true ↔
      row.partition = .threadless := by
    intro row
    rw [Bool.and_eq_true, Row.partition, partition_eq_threadless_iff]
  have htouches : (entries.any fun entry => entry.threadId.isNone && entry.processUuid.isNone) = true ↔
      Touches entries .threadless := by
    simp only [List.any_eq_true, Bool.and_eq_true, Touches, LogEntry.partition,
      partition_eq_threadless_iff]
  rw [pruneThreadlessNullProcess]
  split_ifs with hhas hover
  · have hdelete : Prunes logs
        (logs.deleteOverBudget Row.processUuid fun row => row.threadId.isNone && row.processUuid.isNone)
        fun p => p = .threadless := by
      apply prunes_deleteOverBudget hselected
      intro row row' hrow hrow'
      rw [(hselected row).mp hrow, (hselected row').mp hrow']
      rw [Bool.and_eq_true, Option.isNone_iff_eq_none, Option.isNone_iff_eq_none] at hrow hrow'
      rw [hrow.2, hrow'.2]
      simp
    exact hdelete.congr fun p => ⟨fun h => ⟨h, h ▸ htouches.mp hhas⟩, fun h => h.1⟩
  · refine (Prunes.refl logs).widen (fun p h => h.elim) ?_
    rintro p ⟨rfl, -⟩ -
    rw [Bool.not_eq_true, overLimit_eq_false_iff] at hover
    have hrows : (logs.table.select fun row => row.threadId.isNone && row.processUuid.isNone) =
        logs.rowsOf .threadless := by
      refine List.filter_congr fun row _ => Bool.eq_iff_iff.mpr ?_
      rw [hselected, decide_eq_true_eq]
    rwa [hrows] at hover
  · refine (Prunes.refl logs).congr fun p => ⟨fun h => h.elim, ?_⟩
    rintro ⟨rfl, h⟩
    exact hhas (htouches.mpr h)

/-- The pruning after an insert prunes the partitions that the batch has entries of. -/
theorem prunes_pruneLogsAfterInsert :
    Prunes logs (logs.pruneLogsAfterInsert entries) (Touches entries) := by
  have hthreads := prunes_pruneThreads logs entries
  have hprocesses := prunes_pruneThreadlessProcesses (logs.pruneThreads entries) entries
  have hnull := prunes_pruneThreadlessNullProcess
    ((logs.pruneThreads entries).pruneThreadlessProcesses entries) entries
  have hfirst := hthreads.trans hprocesses (by
    rintro _ ⟨id, rfl, -⟩ ⟨uuid, h, -⟩
    cases h)
  refine (hfirst.trans hnull ?_).congr fun p => ?_
  · rintro _ (⟨id, rfl, -⟩ | ⟨uuid, rfl, -⟩) ⟨h, -⟩ <;> cases h
  · constructor
    · rintro ((⟨_, _, h⟩ | ⟨_, _, h⟩) | ⟨_, h⟩) <;> exact h
    · intro h
      cases p with
      | thread id => exact .inl (.inl ⟨id, rfl, h⟩)
      | process uuid => exact .inl (.inr ⟨uuid, rfl, h⟩)
      | threadless => exact .inr ⟨rfl, h⟩

variable {logs entries}

lemma rows_insertRows (entries : List LogEntry) (logs : LogsPool) :
    (logs.insertRows entries).table.rows =
      logs.table.rows ++ entries.mapIdx fun i entry => entry.row (logs.sequence + 1 + i) := by
  induction entries generalizing logs with
  | nil => simp [insertRows]
  | cons entry entries ih =>
    have hids : (fun i (e : LogEntry) => e.row ((logs.insertRow entry).sequence + 1 + i)) =
        fun i e => e.row (logs.sequence + 1 + (i + 1)) := by
      funext i e
      show e.row (logs.sequence + 1 + 1 + i) = _
      congr 1
      omega
    show ((logs.insertRow entry).insertRows entries).table.rows = _
    rw [ih, hids, List.mapIdx_cons]
    show logs.table.rows ++ [entry.row (logs.sequence + 1)] ++ _ = _
    rw [List.append_assoc]
    rfl

variable {p : Partition}

lemma rowsOf_insertRows_of_not_touches (h : ¬Touches entries p) :
    (logs.insertRows entries).rowsOf p = logs.rowsOf p := by
  rw [rowsOf, rows_insertRows, List.filter_append]
  refine (congrArg _ (List.filter_eq_nil_iff.mpr ?_)).trans (List.append_nil _)
  intro row hrow hp
  obtain ⟨i, hi, rfl⟩ := List.mem_mapIdx.mp hrow
  exact h ⟨entries[i], List.getElem_mem hi, of_decide_eq_true hp⟩

lemma prunes_insertLogs : Prunes (logs.insertRows entries) (logs.insertLogs entries) (Touches entries) := by
  rw [insertLogs]
  split_ifs with hempty
  · rw [List.isEmpty_iff.mp hempty]
    refine (Prunes.refl logs).congr fun p => ⟨fun h => h.elim, ?_⟩
    rintro ⟨entry, hentry, -⟩
    cases hentry
  · exact prunes_pruneLogsAfterInsert _ entries

lemma rowsOf_insertLogs_of_not_touches (h : ¬Touches entries p) :
    (logs.insertLogs entries).rowsOf p = logs.rowsOf p :=
  ((prunes_insertLogs p).2 h).trans (rowsOf_insertRows_of_not_touches h)

/-- A batch keeps every partition within both limits. -/
lemma withinLimits_insertLogs (hlimits : WithinLimits (logs.rowsOf p)) :
    WithinLimits ((logs.insertLogs entries).rowsOf p) := by
  by_cases h : Touches entries p
  · rw [(prunes_insertLogs p).1 h]
    exact retained_withinLimits _
  · rw [rowsOf_insertLogs_of_not_touches h]
    exact hlimits

end

/-- A batch goes behind the rows that are there. It leaves every partition that it has entries of with the
rows that exceed no limit, and the other partitions alone, and so every partition within both limits. -/
theorem insert_logs_keeps_limits (logs : LogsPool) (entries : List LogEntry)
    (hlimits : ∀ p, WithinLimits (logs.rowsOf p)) :
    (logs.insertRows entries).table.rows =
        logs.table.rows ++ entries.mapIdx (fun i entry => entry.row (logs.sequence + 1 + i)) ∧
      (∀ p, WithinLimits ((logs.insertLogs entries).rowsOf p)) ∧
      (∀ p, Touches entries p → (logs.insertLogs entries).rowsOf p =
        ((logs.insertRows entries).rowsOf p).filter fun row =>
          ¬Exceeds ((logs.insertRows entries).rowsOf p) row) ∧
      ∀ p, ¬Touches entries p → (logs.insertLogs entries).rowsOf p = logs.rowsOf p :=
  ⟨rows_insertRows entries logs, fun p => withinLimits_insertLogs (hlimits p),
    fun p => (prunes_insertLogs p).1, fun _ => rowsOf_insertLogs_of_not_touches⟩

/-- An entry of a thread, or of a process where there is no thread. -/
def exampleEntry (threadId processUuid : Option Text) : LogEntry where
  ts := 0
  tsNanos := 0
  level := "INFO".toList
  target := "core".toList
  message := some "started".toList
  feedbackLogBody := none
  threadId := threadId
  processUuid := processUuid
  modulePath := none
  file := none
  line := none

/-- A log without rows. -/
def LogsPool.empty : LogsPool := ⟨⟨[], List.nodup_nil⟩, 0, fun _ h => nomatch h⟩

/-- An entry of a thread at a time, with a body of some bytes. -/
def sizedEntry (ts : ℤ) (bytes : ℕ) : LogEntry :=
  { exampleEntry (some ['t']) none with ts := ts, message := some (List.replicate bytes 'x') }

lemma estimatedBytes_sizedEntry (ts : ℤ) (bytes : ℕ) : (sizedEntry ts bytes).estimatedBytes = bytes + 8 := by
  have hlen : Positions.len (List.replicate bytes 'x') = bytes := by
    induction bytes with
    | zero => rfl
    | succ bytes ih =>
      rw [List.replicate_succ, Positions.len_cons, ih]
      exact Nat.add_comm 1 bytes
  show Positions.len (List.replicate bytes 'x') + 4 + 4 + 0 + 0 = bytes + 8
  rw [hlen]

/-- Of two rows that are together over the limit, the newer one is retained. -/
lemma retained_pair {row earlier : Row} (htime : earlier.time < row.time)
    (hbytes : row.estimatedBytes ≤ logPartitionSizeLimitBytes)
    (hover : logPartitionSizeLimitBytes < row.estimatedBytes + earlier.estimatedBytes) :
    retained [row, earlier] = [row] := by
  have hfirst : ¬Exceeds [row, earlier] row := by
    simp [Exceeds, runningTotal, rowNumber, upTo, htime, hbytes, logPartitionRowLimit]
  have hsecond : Exceeds [row, earlier] earlier := by
    simp [Exceeds, runningTotal, upTo, htime.le, hover]
  simp [retained, hfirst, hsecond]

/-- A thread with a row of six MiB gets one of an earlier time: the new row is over the limit, and goes. -/
theorem insert_logs_keeps_limits_two :
    let row := (sizedEntry 9 (6 * 1024 * 1024)).row 1
    let earlier := (sizedEntry 5 (6 * 1024 * 1024)).row 3
    let logs := LogsPool.empty.insertRows
      [sizedEntry 9 (6 * 1024 * 1024), exampleEntry none (some ['p'])]
    let entries := [sizedEntry 5 (6 * 1024 * 1024), exampleEntry none none]
    (∀ p, WithinLimits (logs.rowsOf p)) ∧ ¬Touches entries (.process ['p']) ∧
      (logs.insertRows entries).rowsOf (.thread ['t']) = [row, earlier] ∧
      (logs.insertLogs entries).rowsOf (.thread ['t']) = [row] ∧
      (logs.insertLogs entries).rowsOf (.process ['p']) = logs.rowsOf (.process ['p']) := by
  intro row earlier logs entries
  have hrow : row.estimatedBytes = 6 * 1024 * 1024 + 8 := estimatedBytes_sizedEntry 9 _
  have hearlier : earlier.estimatedBytes = 6 * 1024 * 1024 + 8 := estimatedBytes_sizedEntry 5 _
  have hlogs : WithinLimits logs.table.rows := by
    refine ⟨?_, by decide⟩
    show row.estimatedBytes + (15 + 0) ≤ logPartitionSizeLimitBytes
    rw [hrow]
    decide
  have hlimits : ∀ p, WithinLimits (logs.rowsOf p) := fun p => hlogs.sublist List.filter_sublist
  have hnot : ¬Touches entries (.process ['p']) := by simp [Touches, entries]; decide
  have htouches : Touches entries (.thread ['t']) := ⟨_, List.mem_cons_self, rfl⟩
  obtain ⟨-, -, hpruned, hkept⟩ := insert_logs_keeps_limits logs entries hlimits
  have hrows : (logs.insertRows entries).rowsOf (.thread ['t']) = [row, earlier] := rfl
  refine ⟨hlimits, hnot, hrows, ?_, hkept _ hnot⟩
  rw [hpruned _ htouches, hrows]
  exact retained_pair (by decide) (by rw [hrow]; decide) (by rw [hrow, hearlier]; decide)

/-! ## Runs -/

/-- What changes the log: a batch, and the maintenance at startup. -/
inductive Operation where
  | insertLogs (entries : List LogEntry)
  | deleteLogsBefore (cutoffTs : ℤ)

/-- One operation on the log. -/
def LogsPool.apply (logs : LogsPool) : Operation → LogsPool
  | .insertLogs entries => logs.insertLogs entries
  | .deleteLogsBefore cutoffTs => logs.deleteLogsBefore cutoffTs

/-- Every operation keeps all partitions within both limits, and with it every run does. -/
theorem run_keeps_limits {init logs : LogsPool} {ts : List (Runs.Transition LogsPool Operation)}
    (run : Runs.Run (fun logs op logs' => logs' = logs.apply op) init ts logs)
    (hinit : ∀ p, WithinLimits (init.rowsOf p)) : ∀ p, WithinLimits (logs.rowsOf p) := by
  have hstep : ∀ (logs : LogsPool) (op : Operation) (logs' : LogsPool), (∀ p, WithinLimits (logs.rowsOf p)) →
      True → logs' = logs.apply op → ∀ p, WithinLimits (logs'.rowsOf p) := by
    rintro logs (entries | cutoffTs) _ hlimits - rfl
    · exact fun p => withinLimits_insertLogs (hlimits p)
    · intro p
      exact (hlimits p).sublist (List.filter_sublist.filter _)
  exact (run.invariant (fun _ _ => True) (fun _ _ => trivial) hinit hstep).1

/-- A batch, the maintenance at startup and another batch, from a log without rows. -/
theorem run_keeps_limits_batches :
    let logs := (empty.insertLogs [exampleEntry (some ['t']) none]).deleteLogsBefore 1
    (∀ p, WithinLimits (empty.rowsOf p)) ∧
      ∀ p, WithinLimits ((logs.insertLogs [exampleEntry none (some ['p'])]).rowsOf p) := by
  intro logs
  have hempty : ∀ p, WithinLimits (empty.rowsOf p) := fun _ => ⟨Nat.zero_le _, Nat.zero_le _⟩
  have hnew : Runs.Run (fun logs op logs' => logs' = logs.apply op) empty [] empty := .nil
  have hfirst := hnew.next (.insertLogs [exampleEntry (some ['t']) none]) rfl
  have hsecond := hfirst.next (.deleteLogsBefore 1) rfl
  have run := hsecond.next (.insertLogs [exampleEntry none (some ['p'])]) rfl
  exact ⟨hempty, run_keeps_limits run hempty⟩

end Supercodex.Logs
