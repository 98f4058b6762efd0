import Supercodex.Library.Text
import Mathlib.Data.Finset.Basic
import Supercodex.Library.Ranking

/-!
# The process store (`core/src/unified_exec/mod.rs`, `core/src/unified_exec/process_manager.rs`)

Processes that a command has started stay open under their ids, which are reserved before. A full store
gives up one of them, by how recently each was used.
-/

namespace Supercodex.UnifiedExec

/-- `UnifiedExecProcess`, as far as the store asks it. -/
structure UnifiedExecProcess where
  handle : ℕ
  hasExited : Bool
deriving DecidableEq

/-- `ProcessEntry`, with its session by a number, if it is still there. -/
structure ProcessEntry where
  process : UnifiedExecProcess
  callId : Text
  processId : ℤ
  hookCommand : Text
  tty : Bool
  networkApprovalId : Option Text
  session : Option ℕ
  lastUsed : ℕ
deriving DecidableEq

/-- `MAX_UNIFIED_EXEC_PROCESSES`. -/
def maxUnifiedExecProcesses : ℕ := 64

/-- `WARNING_UNIFIED_EXEC_PROCESSES`. -/
def warningUnifiedExecProcesses : ℕ := 60

/-- `ProcessStore`: a map, in the order in which it is iterated, and a set. -/
structure ProcessStore where
  processes : List (ℤ × ProcessEntry)
  reservedProcessIds : Finset ℤ
  nodup : (processes.map Prod.fst).Nodup

namespace ProcessStore

/-- `ProcessStore::default`. -/
def empty : ProcessStore := ⟨[], ∅, List.nodup_nil⟩

/-- `ProcessStore::remove`, with the entry that it returns. -/
def remove (store : ProcessStore) (processId : ℤ) : Option ProcessEntry × ProcessStore :=
  (store.processes.lookup processId,
    { processes := store.processes.filter fun (id, _) => id ≠ processId
      reservedProcessIds := store.reservedProcessIds.erase processId
      nodup := store.nodup.sublist (List.filter_sublist.map _) })

/-- `HashMap::insert` on the processes. -/
def insert (store : ProcessStore) (processId : ℤ) (entry : ProcessEntry) : ProcessStore where
  processes := (processId, entry) :: store.processes.filter fun (id, _) => id ≠ processId
  reservedProcessIds := store.reservedProcessIds
  nodup := by
    rw [List.map_cons, List.nodup_cons]
    refine ⟨fun hmem => ?_, store.nodup.sublist (List.filter_sublist.map _)⟩
    obtain ⟨⟨id, _⟩, hentry, heq⟩ := List.mem_map.mp hmem
    exact absurd heq (of_decide_eq_true (List.mem_filter.mp hentry).2)

end ProcessStore

/-- What is known of a process for pruning: its id, when it was used last and whether it has exited. -/
abbrev Meta := ℤ × ℕ × Bool

/-- `process_id_to_prune_from_meta`. -/
def processIdToPruneFromMeta (entries : List Meta) : Option ℤ :=
  if entries.isEmpty then none
  else
    let byRecency := entries.insertionSort fun a b => b.2.1 ≤ a.2.1
    let isProtected := ((byRecency.take 8).map fun entry => entry.1)
    let lru := entries.insertionSort fun a b => a.2.1 ≤ b.2.1
    match lru.find? fun (processId, _, exited) => !isProtected.contains processId && exited with
    | some (processId, _, _) => some processId
    | none => (lru.find? fun (processId, _, _) => !isProtected.contains processId).map Prod.fst

/-- `prune_processes_if_needed`. -/
def pruneProcessesIfNeeded (store : ProcessStore) : Option ProcessEntry × ProcessStore :=
  if store.processes.length < maxUnifiedExecProcesses then (none, store)
  else
    let entries := store.processes.map fun (id, entry) => (id, entry.lastUsed, entry.process.hasExited)
    match processIdToPruneFromMeta entries with
    | some processId => store.remove processId
    | none => (none, store)

/-- What `store_process` makes of the store: the entry that it prunes, whose process is then terminated,
and whether the model is warned. -/
structure StoredProcess where
  store : ProcessStore
  prunedEntry : Option ProcessEntry
  warned : Bool

/-- `store_process`. -/
def storeProcess (store : ProcessStore) (processId : ℤ) (entry : ProcessEntry) : StoredProcess :=
  let (prunedEntry, store) := pruneProcessesIfNeeded store
  let store := store.insert processId entry
  { store := store
    prunedEntry := prunedEntry
    warned := warningUnifiedExecProcesses ≤ store.processes.length }

end Supercodex.UnifiedExec

/-!
# Pruning (`core/src/unified_exec/process_manager.rs`)

A full store gives up one process, and never one of the eight that were used last: of the others the
least recently used one that has exited, or else the least recently used one.
-/

namespace Supercodex.UnifiedExec

open Ranking

/-- The eight entries that were used last, and the others. -/
structure UsedLast (entries recent others : List (ℤ × ProcessEntry)) : Prop where
  perm : (recent ++ others).Perm entries
  length : recent.length = 8
  recent_le : ∀ a ∈ recent, ∀ b ∈ others, b.2.lastUsed ≤ a.2.lastUsed

/-- Of some entries, the least recently used one that has exited if there is one, and otherwise the least
recently used one. -/
structure LeastRecent (entries : List (ℤ × ProcessEntry)) (chosen : ℤ × ProcessEntry) : Prop where
  mem : chosen ∈ entries
  exited : ∀ e ∈ entries, e.2.process.hasExited = true →
    chosen.2.process.hasExited = true ∧ chosen.2.lastUsed ≤ e.2.lastUsed
  running : chosen.2.process.hasExited = false → ∀ e ∈ entries, chosen.2.lastUsed ≤ e.2.lastUsed

/-- What pruning knows of an entry. -/
def metaOf (entry : ℤ × ProcessEntry) : Meta := (entry.1, entry.2.lastUsed, entry.2.process.hasExited)

/-- When an entry was used last. -/
def lastUsedOf (entry : ℤ × ProcessEntry) : ℕ := entry.2.lastUsed

/-- The policy on entries: the ids of the recent ones are protected. -/
lemma processIdToPrune_eq {entries : List (ℤ × ProcessEntry)} (hne : entries ≠ []) :
    processIdToPruneFromMeta (entries.map metaOf) =
      let recent := ((downwards lastUsedOf entries).take 8).map Prod.fst
      let lru := upwards lastUsedOf entries
      ((lru.find? fun e => !recent.contains e.1 && e.2.process.hasExited).or
        (lru.find? fun e => !recent.contains e.1)).map Prod.fst := by
  have hempty : (entries.map metaOf).isEmpty = false := by
    rw [List.isEmpty_eq_false_iff, ne_eq, List.map_eq_nil_iff]
    exact hne
  have hdown : (entries.map metaOf).insertionSort (fun a b => b.2.1 ≤ a.2.1) =
      (downwards lastUsedOf entries).map metaOf := map_downwards metaOf (fun _ => rfl) entries
  have hup : (entries.map metaOf).insertionSort (fun a b => a.2.1 ≤ b.2.1) =
      (upwards lastUsedOf entries).map metaOf := map_upwards metaOf (fun _ => rfl) entries
  rw [processIdToPruneFromMeta, hempty, if_neg Bool.false_ne_true, hdown, hup]
  dsimp only
  have hrecent : (((downwards lastUsedOf entries).map metaOf).take 8).map (fun entry => entry.1) =
      ((downwards lastUsedOf entries).take 8).map Prod.fst := by
    rw [← List.map_take, List.map_map]
    rfl
  rw [hrecent, List.find?_map, List.find?_map]
  split
  · rename_i hfind
    obtain ⟨chosen, hchosen, hmeta⟩ := Option.map_eq_some_iff.mp hfind
    have hchosen : (upwards lastUsedOf entries).find? (fun e =>
        !(((downwards lastUsedOf entries).take 8).map Prod.fst).contains e.1 && e.2.process.hasExited) =
        some chosen := hchosen
    cases hmeta
    rw [hchosen]
    rfl
  · rename_i hfind
    have hfind : (upwards lastUsedOf entries).find? (fun e =>
        !(((downwards lastUsedOf entries).take 8).map Prod.fst).contains e.1 && e.2.process.hasExited) =
        none := Option.map_eq_none_iff.mp hfind
    rw [hfind, Option.none_or, Option.map_map]
    rfl

lemma pruneProcessesIfNeeded_eq_elim (store : ProcessStore) :
    pruneProcessesIfNeeded store =
      if store.processes.length < maxUnifiedExecProcesses then (none, store)
      else (processIdToPruneFromMeta (store.processes.map metaOf)).elim (none, store) store.remove := by
  unfold pruneProcessesIfNeeded
  split
  · rfl
  dsimp only
  split
  · rename_i processId hchoice
    rw [show processIdToPruneFromMeta (store.processes.map metaOf) = some processId from hchoice]
    rfl
  · rename_i hchoice
    rw [show processIdToPruneFromMeta (store.processes.map metaOf) = none from hchoice]
    rfl

/-- A full store has an entry to give up, the least recent one of those that are not protected. -/
lemma exists_processIdToPrune {entries : List (ℤ × ProcessEntry)} (hids : (entries.map Prod.fst).Nodup)
    (hfull : 8 < entries.length) : ∃ recent others chosen, UsedLast entries recent others ∧
      LeastRecent others chosen ∧ processIdToPruneFromMeta (entries.map metaOf) = some chosen.1 := by
  obtain ⟨hperm, hle⟩ := take_downwards lastUsedOf entries 8
  have hne : entries ≠ [] := by
    intro hnil
    rw [hnil, List.length_nil] at hfull
    omega
  rw [processIdToPrune_eq hne]
  dsimp only
  have hlength : ((downwards lastUsedOf entries).take 8).length = 8 := by
    rw [List.length_take, (downwards_perm _ entries).length_eq]
    omega
  generalize (downwards lastUsedOf entries).take 8 = recent at hperm hle hlength ⊢
  generalize (downwards lastUsedOf entries).drop 8 = others at hperm hle
  have hdisjoint : ((recent ++ others).map Prod.fst).Nodup := (hperm.map _).nodup_iff.mpr hids
  rw [List.map_append, List.nodup_append] at hdisjoint
  -- the others are the entries whose ids are not protected
  have hothers : ∀ e ∈ entries, (!(recent.map Prod.fst).contains e.1) = true ↔ e ∈ others := by
    intro e he
    rw [Bool.not_eq_true', ← Bool.not_eq_true, List.contains_iff_mem]
    constructor
    · intro hnot
      apply (List.mem_append.mp (hperm.symm.subset he)).resolve_left
      exact fun hrecent => hnot (List.mem_map_of_mem hrecent)
    · intro hmem hid
      exact hdisjoint.2.2 _ hid _ (List.mem_map_of_mem hmem) rfl
  refine ⟨recent, others, ?_⟩
  have hused : UsedLast entries recent others := ⟨hperm, hlength, hle⟩
  cases hexited : (upwards lastUsedOf entries).find? fun e =>
      !(recent.map Prod.fst).contains e.1 && e.2.process.hasExited with
  | some chosen =>
    obtain ⟨hmem, hchosen, hleast⟩ := find?_upwards hexited
    rw [Bool.and_eq_true, hothers _ hmem] at hchosen
    refine ⟨chosen, hused, ⟨hchosen.1, fun e he hexit => ⟨hchosen.2, ?_⟩, fun hrunning => ?_⟩, rfl⟩
    · have hentry := hperm.subset (List.mem_append_right _ he)
      apply hleast e hentry
      rw [(hothers e hentry).mpr he, hexit]
      rfl
    · rw [hchosen.2] at hrunning
      cases hrunning
  | none =>
    cases hrunning : (upwards lastUsedOf entries).find? fun e => !(recent.map Prod.fst).contains e.1 with
    | some chosen =>
      obtain ⟨hmem, hchosen, hleast⟩ := find?_upwards hrunning
      refine ⟨chosen, hused, ⟨(hothers _ hmem).mp hchosen, fun e he hexit => ?_, fun _ e he => ?_⟩, rfl⟩
      · -- no entry outside the recent ones has exited
        have hentry := hperm.subset (List.mem_append_right _ he)
        have hnot := List.find?_eq_none.mp hexited e ((upwards_perm _ entries).symm.subset hentry)
        rw [(hothers e hentry).mpr he, hexit] at hnot
        exact absurd rfl hnot
      · have hentry := hperm.subset (List.mem_append_right _ he)
        exact hleast e hentry ((hothers e hentry).mpr he)
    | none =>
      -- more than eight entries leave one that is not protected
      exfalso
      have hpos : 0 < others.length := by
        have := hperm.length_eq
        rw [List.length_append] at this
        omega
      obtain ⟨e, he⟩ := List.exists_mem_of_length_pos hpos
      have hentry := hperm.subset (List.mem_append_right _ he)
      have hnot := List.find?_eq_none.mp hrunning e ((upwards_perm _ entries).symm.subset hentry)
      exact hnot ((hothers e hentry).mpr he)

namespace ProcessStore

lemma remove_of_mem (store : ProcessStore) {entry : ℤ × ProcessEntry} (hmem : entry ∈ store.processes) :
    (store.remove entry.1).1 = some entry.2 ∧
      (entry :: (store.remove entry.1).2.processes).Perm store.processes := by
  obtain ⟨before, after, hparts⟩ := List.append_of_mem hmem
  have hids := store.nodup
  rw [hparts, List.map_append, List.map_cons, List.nodup_append] at hids
  obtain ⟨-, hafter, hbefore⟩ := hids
  rw [List.nodup_cons] at hafter
  have hnotBefore : ∀ e ∈ before, e.1 ≠ entry.1 := fun e he =>
    hbefore _ (List.mem_map_of_mem he) _ List.mem_cons_self
  have hnotAfter : ∀ e ∈ after, e.1 ≠ entry.1 := fun e he heq =>
    hafter.1 (heq ▸ List.mem_map_of_mem he)
  constructor
  · show store.processes.lookup entry.1 = some entry.2
    rw [hparts, List.lookup_append, List.lookup_eq_none_iff.mpr fun e he => by
      simpa using (hnotBefore e he).symm]
    rw [Option.none_or, List.lookup_cons_self]
  · show (entry :: store.processes.filter fun e => e.1 ≠ entry.1).Perm store.processes
    rw [hparts, List.filter_append, List.filter_cons_of_neg (by simp),
      List.filter_eq_self.mpr fun e he => decide_eq_true (hnotBefore e he),
      List.filter_eq_self.mpr fun e he => decide_eq_true (hnotAfter e he)]
    exact List.perm_middle.symm

lemma insert_of_notMem (store : ProcessStore) {processId : ℤ} (entry : ProcessEntry)
    (hnew : processId ∉ store.processes.map Prod.fst) :
    (store.insert processId entry).processes = (processId, entry) :: store.processes := by
  show (processId, entry) :: store.processes.filter (fun e => e.1 ≠ processId) = _
  rw [List.filter_eq_self.mpr fun e he => ?_]
  refine decide_eq_true fun heq => hnew ?_
  exact heq ▸ List.mem_map_of_mem he

end ProcessStore

/-- What a full store gives up for a new process. -/
structure Pruned (store : ProcessStore) (processId : ℤ) (entry : ProcessEntry) (stored : StoredProcess)
    (removed : ℤ × ProcessEntry) : Prop where
  policy : ∃ recent others, UsedLast store.processes recent others ∧ LeastRecent others removed
  prunedEntry : stored.prunedEntry = some removed.2
  processes : (removed :: stored.store.processes).Perm ((processId, entry) :: store.processes)
  reservedProcessIds : stored.store.reservedProcessIds = store.reservedProcessIds.erase removed.1

/-- A store that is not full keeps all processes beside the new one, and a full one gives up exactly one,
by the policy, and releases its id alone. -/
theorem store_process_prunes (store : ProcessStore) (hlen : store.processes.length ≤ maxUnifiedExecProcesses)
    (processId : ℤ) (hnew : processId ∉ store.processes.map Prod.fst) (entry : ProcessEntry) :
    let stored := storeProcess store processId entry
    stored.store.processes.length ≤ maxUnifiedExecProcesses ∧
      (store.processes.length < maxUnifiedExecProcesses → stored.prunedEntry = none ∧
        stored.store.processes = (processId, entry) :: store.processes ∧
        stored.store.reservedProcessIds = store.reservedProcessIds) ∧
      (store.processes.length = maxUnifiedExecProcesses →
        ∃ removed, Pruned store processId entry stored removed) := by
  intro stored
  rcases Nat.lt_or_eq_of_le hlen with hlt | hfull
  · have hstored : stored.prunedEntry = none ∧ stored.store = store.insert processId entry := by
      show (storeProcess _ _ _).prunedEntry = _ ∧ (storeProcess _ _ _).store = _
      rw [storeProcess, pruneProcessesIfNeeded, if_pos hlt]
      exact ⟨rfl, rfl⟩
    have hprocesses := store.insert_of_notMem entry hnew
    rw [← hstored.2] at hprocesses
    refine ⟨?_, fun _ => ⟨hstored.1, hprocesses, hstored.2 ▸ rfl⟩, fun heq => absurd heq hlt.ne⟩
    rw [hprocesses, List.length_cons]
    omega
  · have hover : 8 < store.processes.length := by
      rw [hfull, maxUnifiedExecProcesses]
      omega
    obtain ⟨recent, others, removed, hrecent, hleast, hchoice⟩ :=
      exists_processIdToPrune store.nodup hover
    have hmem : removed ∈ store.processes := hrecent.perm.subset (List.mem_append_right _ hleast.mem)
    obtain ⟨hentry, hperm⟩ := store.remove_of_mem hmem
    have hprune : pruneProcessesIfNeeded store = store.remove removed.1 := by
      rw [pruneProcessesIfNeeded_eq_elim, if_neg hfull.not_lt, hchoice]
      rfl
    have hstored : stored.prunedEntry = some removed.2 ∧
        stored.store = (store.remove removed.1).2.insert processId entry := by
      show (storeProcess _ _ _).prunedEntry = _ ∧ (storeProcess _ _ _).store = _
      rw [storeProcess, hprune]
      exact ⟨hentry, rfl⟩
    have hnotMem : processId ∉ (store.remove removed.1).2.processes.map Prod.fst := fun hid =>
      hnew ((hperm.map Prod.fst).subset (List.mem_cons_of_mem _ hid))
    have hprocesses := (store.remove removed.1).2.insert_of_notMem entry hnotMem
    rw [← hstored.2] at hprocesses
    refine ⟨?_, fun hlt => absurd hfull hlt.ne, fun _ => ⟨removed, ⟨recent, others, hrecent, hleast⟩, hstored.1, ?_, ?_⟩⟩
    · have hlength := hperm.length_eq
      rw [hprocesses, List.length_cons, ← hfull, ← hlength, List.length_cons]
    · rw [hprocesses]
      exact (List.Perm.swap _ _ _).trans (hperm.cons _)
    · rw [hstored.2]
      rfl

/-- A process of `cat`, last used at some time; three of them have exited. -/
def catEntry (processId : ℤ) (lastUsed : ℕ) : ProcessEntry where
  process := ⟨lastUsed, lastUsed ∈ [9, 5, 60]⟩
  callId := "call".toList
  processId := processId
  hookCommand := "cat".toList
  tty := true
  networkApprovalId := none
  session := none
  lastUsed := lastUsed

/-- A full store. One of the processes that have exited is among the eight most recent. -/
def fullStore : ProcessStore where
  processes := (List.range 64).map fun n => (Int.ofNat n, catEntry n n)
  reservedProcessIds := {64, 63, 0}
  nodup := by decide +kernel

/-- One more process takes the place of the least recent one that has exited. -/
theorem store_process_prunes_full :
    (storeProcess fullStore 64 (catEntry 64 64)).prunedEntry.map (·.processId) = some 5 ∧
      ∃ removed, Pruned fullStore 64 (catEntry 64 64) (storeProcess fullStore 64 (catEntry 64 64)) removed :=
  ⟨by decide +kernel, (store_process_prunes fullStore (by decide +kernel) 64 (by decide +kernel)
    (catEntry 64 64)).2.2 (by decide +kernel)⟩

end Supercodex.UnifiedExec
