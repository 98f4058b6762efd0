import Mathlib.Data.List.Sort
import Mathlib.Data.List.Dedup
import Mathlib.Data.List.MinMax
import Mathlib.Algebra.Order.BigOperators.Group.List
import Mathlib.Algebra.Order.Ring.Nat

/-!
# Windows over a list of rows

The running totals and the row numbers of a window partitioned by a column and ordered by a key, the
greatest key first. Where no two rows have the same key they are sums over the rows that come no later,
and the rows whose running total and number are within given limits are, together, within them too.
-/

namespace Supercodex.Window

variable {Row K C : Type} [LinearOrder K] [DecidableEq C]

/-- The running total of a weight and the number of each row, going on from those of the rows before. -/
def accumulate (weight : Row → ℕ) : ℕ → ℕ → List Row → List (Row × ℕ × ℕ)
  | _, _, [] => []
  | total, number, row :: rows =>
    (row, total + weight row, number + 1) :: accumulate weight (total + weight row) (number + 1) rows

/-- The rows by their keys, the greatest first. -/
def greatestFirst (key : Row → K) (rows : List Row) : List Row :=
  rows.insertionSort fun row row' => key row' ≤ key row

/-- `SUM(weight) OVER w, ROW_NUMBER() OVER w` with `w` for `PARTITION BY column ORDER BY key DESC`. -/
def evaluate (column : Row → C) (key : Row → K) (weight : Row → ℕ) (rows : List Row) : List (Row × ℕ × ℕ) :=
  (rows.map column).dedup.flatMap fun c =>
    accumulate weight 0 0 (greatestFirst key (rows.filter fun row => column row = c))

/-- The rows that come no later than those with a key. -/
def upTo (key : Row → K) (k : K) (rows : List Row) : List Row := rows.filter fun row => k ≤ key row

/-- The running total at a key. -/
def runningTotal (key : Row → K) (weight : Row → ℕ) (rows : List Row) (k : K) : ℕ :=
  ((upTo key k rows).map weight).sum

/-- The row number at a key. -/
def rowNumber (key : Row → K) (rows : List Row) (k : K) : ℕ := (upTo key k rows).length

variable {column : Row → C} {key : Row → K} {weight : Row → ℕ} {rows : List Row} {row : Row}

lemma mem_accumulate {total number t n : ℕ} :
    (row, t, n) ∈ accumulate weight total number rows ↔
      ∃ before after, rows = before ++ row :: after ∧ t = total + ((before ++ [row]).map weight).sum ∧
        n = number + (before ++ [row]).length := by
  induction rows generalizing total number with
  | nil => simp [accumulate]
  | cons first rows ih =>
    rw [accumulate, List.mem_cons, ih, Prod.mk.injEq, Prod.mk.injEq]
    constructor
    · rintro (⟨rfl, rfl, rfl⟩ | ⟨before, after, rfl, rfl, rfl⟩)
      · exact ⟨[], rows, rfl, by simp, by simp⟩
      · refine ⟨first :: before, after, rfl, ?_, ?_⟩
        · simp [Nat.add_assoc]
        · simp only [List.cons_append, List.length_cons]
          omega
    · rintro ⟨before, after, hrows, rfl, rfl⟩
      cases before with
      | nil =>
        cases hrows
        exact .inl ⟨rfl, by simp, by simp⟩
      | cons _ before =>
        cases hrows
        refine .inr ⟨before, after, rfl, ?_, ?_⟩
        · simp [Nat.add_assoc]
        · simp only [List.cons_append, List.length_cons]
          omega

variable (key rows) in
lemma greatestFirst_perm : (greatestFirst key rows).Perm rows := List.perm_insertionSort _ rows

lemma pairwise_greatestFirst (hkeys : (rows.map key).Nodup) :
    (greatestFirst key rows).Pairwise fun row row' => key row' < key row := by
  have htotal : Std.Total fun row row' : Row => key row' ≤ key row := ⟨fun row row' => le_total ..⟩
  have htrans : IsTrans Row fun row row' => key row' ≤ key row := ⟨fun _ _ _ h h' => h'.trans h⟩
  have hsorted : (greatestFirst key rows).Pairwise fun row row' => key row' ≤ key row :=
    List.pairwise_insertionSort _ rows
  have hdistinct : ((greatestFirst key rows).map key).Nodup :=
    (((greatestFirst_perm key rows).map key).nodup_iff).mpr hkeys
  refine (hsorted.and (List.pairwise_map.mp hdistinct)).imp ?_
  intro row row' h
  exact lt_of_le_of_ne h.1 (Ne.symm h.2)

lemma upTo_of_pairwise {before after : List Row}
    (hsorted : (before ++ row :: after).Pairwise fun row row' => key row' < key row) :
    upTo key (key row) (before ++ row :: after) = before ++ [row] := by
  obtain ⟨-, hafter, hbefore⟩ := List.pairwise_append.mp hsorted
  rw [upTo, List.filter_append, List.filter_cons, if_pos (by simp)]
  congr 1
  · refine List.filter_eq_self.mpr fun row' hrow' => ?_
    exact decide_eq_true (hbefore row' hrow' row List.mem_cons_self).le
  · congr 1
    refine List.filter_eq_nil_iff.mpr fun row' hrow' => ?_
    have hlt := (List.pairwise_cons.mp hafter).1 row' hrow'
    simpa using hlt

variable (weight) in
lemma running_of_parts {before after : List Row} (hkeys : (rows.map key).Nodup)
    (hparts : greatestFirst key rows = before ++ row :: after) :
    runningTotal key weight rows (key row) = ((before ++ [row]).map weight).sum ∧
      rowNumber key rows (key row) = (before ++ [row]).length := by
  have hperm := greatestFirst_perm key rows
  have hsorted := pairwise_greatestFirst hkeys
  rw [hparts] at hperm hsorted
  have hupTo : (upTo key (key row) rows).Perm (before ++ [row]) :=
    (hperm.symm.filter _).trans (List.Perm.of_eq (upTo_of_pairwise hsorted))
  exact ⟨(hupTo.map weight).sum_eq, hupTo.length_eq⟩

lemma mem_accumulate_greatestFirst (hkeys : (rows.map key).Nodup) {t n : ℕ} :
    (row, t, n) ∈ accumulate weight 0 0 (greatestFirst key rows) ↔
      row ∈ rows ∧ t = runningTotal key weight rows (key row) ∧ n = rowNumber key rows (key row) := by
  rw [mem_accumulate]
  simp only [Nat.zero_add]
  constructor
  · rintro ⟨before, after, hparts, rfl, rfl⟩
    obtain ⟨htotal, hnumber⟩ := running_of_parts weight hkeys hparts
    have hrow : row ∈ greatestFirst key rows := by simp [hparts]
    exact ⟨(greatestFirst_perm key rows).subset hrow, htotal.symm, hnumber.symm⟩
  · rintro ⟨hrow, rfl, rfl⟩
    obtain ⟨before, after, hparts⟩ := List.append_of_mem ((greatestFirst_perm key rows).symm.subset hrow)
    obtain ⟨htotal, hnumber⟩ := running_of_parts weight hkeys hparts
    exact ⟨before, after, hparts, htotal, hnumber⟩

/-- What a window says of a row: its total and its number are those of its partition, up to it. -/
theorem mem_evaluate (hkeys : (rows.map key).Nodup) {t n : ℕ} :
    (row, t, n) ∈ evaluate column key weight rows ↔ row ∈ rows ∧
      t = runningTotal key weight (rows.filter fun row' => column row' = column row) (key row) ∧
      n = rowNumber key (rows.filter fun row' => column row' = column row) (key row) := by
  have hpart : ∀ c, ((rows.filter fun row' => column row' = c).map key).Nodup :=
    fun c => hkeys.sublist (List.filter_sublist.map key)
  rw [evaluate, List.mem_flatMap]
  constructor
  · rintro ⟨c, -, hmem⟩
    obtain ⟨hfilter, ht, hn⟩ := (mem_accumulate_greatestFirst (hpart c)).mp hmem
    obtain ⟨hrow, hcolumn⟩ := List.mem_filter.mp hfilter
    obtain rfl : column row = c := of_decide_eq_true hcolumn
    exact ⟨hrow, ht, hn⟩
  · rintro ⟨hrow, ht, hn⟩
    refine ⟨column row, List.mem_dedup.mpr (List.mem_map_of_mem hrow), ?_⟩
    apply (mem_accumulate_greatestFirst (hpart _)).mpr
    exact ⟨List.mem_filter.mpr ⟨hrow, decide_eq_true rfl⟩, ht, hn⟩

/-- The rows whose running total and number are within limits are within them together: they come no
later than the last of them. -/
theorem within_of_forall {bytes count : ℕ} {kept : List Row} (hsub : kept.Sublist rows)
    (hkept : ∀ row ∈ kept, runningTotal key weight rows (key row) ≤ bytes ∧
      rowNumber key rows (key row) ≤ count) :
    (kept.map weight).sum ≤ bytes ∧ kept.length ≤ count := by
  cases hlast : kept.argmin key with
  | none =>
    rw [List.argmin_eq_none.mp hlast]
    exact ⟨Nat.zero_le _, Nat.zero_le _⟩
  | some last =>
    have hupTo : kept.Sublist (upTo key (key last) rows) := by
      have hall : kept.filter (fun row => key last ≤ key row) = kept :=
        List.filter_eq_self.mpr fun row hrow => decide_eq_true (List.le_of_mem_argmin hrow hlast)
      rw [← hall]
      exact hsub.filter _
    obtain ⟨hbytes, hcount⟩ := hkept last (List.argmin_mem hlast)
    refine ⟨le_trans ?_ hbytes, hupTo.length_le.trans hcount⟩
    exact (hupTo.map weight).sum_le_sum fun _ _ => Nat.zero_le _

end Supercodex.Window
