import Mathlib.Data.List.Nodup
import Mathlib.Data.List.Count

/-!
# Tables with a primary key

A table is a list of rows no two of which have the same key. Rows are changed by guarded updates, which
are seen through the row of each key: what an update does to the row of one key says all about it.
-/

namespace Supercodex

/-- Rows with distinct keys. -/
structure Table (Row : Type) {K : Type} (key : Row → K) where
  rows : List Row
  unique : (rows.map key).Nodup

namespace Table

variable {Row K : Type} {key : Row → K} [DecidableEq K]

/-- The row of a key. -/
def get? (t : Table Row key) (k : K) : Option Row := t.rows.find? fun row => key row = k

/-- `UPDATE … SET … WHERE …`. -/
def setWhere (t : Table Row key) (p : Row → Bool) (set : Row → Row) (hset : ∀ row, key (set row) = key row) :
    Table Row key where
  rows := t.rows.map fun row => if p row then set row else row
  unique := by
    have hkeys : (key ∘ fun row => if p row then set row else row) = key := by
      ext row
      show key (if p row then set row else row) = key row
      split
      · exact hset row
      · rfl
    rw [List.map_map, hkeys]
    exact t.unique

/-- `UPDATE … SET … WHERE key = ? AND …`. -/
def update (t : Table Row key) (k : K) (guard : Row → Bool) (set : Row → Row)
    (hset : ∀ row, key (set row) = key row) : Table Row key :=
  t.setWhere (fun row => key row = k && guard row) set hset

/-- `rows_affected() > 0` of a guarded update. -/
def affects (t : Table Row key) (k : K) (guard : Row → Bool) : Bool :=
  t.rows.any fun row => key row = k && guard row

/-- `DELETE … WHERE …`. -/
def deleteWhere (t : Table Row key) (p : Row → Bool) : Table Row key where
  rows := t.rows.filter fun row => !p row
  unique := t.unique.sublist (List.filter_sublist.map key)

/-- `SELECT … WHERE …`. -/
def select (t : Table Row key) (p : Row → Bool) : List Row := t.rows.filter p

variable {t : Table Row key} {k : K} {row : Row}

lemma get?_eq_some_iff : t.get? k = some row ↔ row ∈ t.rows ∧ key row = k := by
  constructor
  · intro h
    exact ⟨List.mem_of_find?_eq_some h, by simpa using List.find?_some h⟩
  · rintro ⟨hmem, rfl⟩
    cases h : t.get? (key row) with
    | none =>
      have := List.find?_eq_none.mp h row hmem
      simp at this
    | some row' =>
      have hkey : key row' = key row := by simpa using List.find?_some h
      rw [List.inj_on_of_nodup_map t.unique (List.mem_of_find?_eq_some h) hmem hkey]

lemma key_of_get? (h : t.get? k = some row) : key row = k := (get?_eq_some_iff.mp h).2

lemma get?_key (h : row ∈ t.rows) : t.get? (key row) = some row := get?_eq_some_iff.mpr ⟨h, rfl⟩

section

variable {p guard : Row → Bool} {set : Row → Row} {hset : ∀ row, key (set row) = key row}

lemma get?_setWhere :
    (t.setWhere p set hset).get? k = (t.get? k).map fun row => if p row then set row else row := by
  have hcomp : ((fun row => decide (key row = k)) ∘ fun row => if p row then set row else row) =
      fun row => decide (key row = k) := by
    ext row
    rw [Function.comp_apply]
    split
    · rw [hset]
    · rfl
  rw [get?, setWhere, List.find?_map, hcomp]
  rfl

lemma get?_update_self :
    (t.update k guard set hset).get? k = (t.get? k).map fun row => if guard row then set row else row := by
  rw [update, get?_setWhere]
  refine Option.map_congr fun row hrow => ?_
  simp [key_of_get? hrow]

lemma get?_update_of_ne {k' : K} (h : k' ≠ k) : (t.update k guard set hset).get? k' = t.get? k' := by
  rw [update, get?_setWhere]
  refine (Option.map_congr fun row hrow => ?_).trans (congrFun Option.map_id _)
  simp [key_of_get? hrow, h]

lemma get?_update {k' : K} :
    (t.update k guard set hset).get? k' =
      if k' = k then (t.get? k).map fun row => if guard row then set row else row else t.get? k' := by
  split
  · rename_i h
    rw [h, get?_update_self]
  · rename_i h
    exact get?_update_of_ne h

lemma affects_eq : t.affects k guard = (t.get? k).any guard := by
  rw [Bool.eq_iff_iff, affects, List.any_eq_true, Option.any_eq_true]
  constructor
  · rintro ⟨row, hmem, h⟩
    rw [Bool.and_eq_true, decide_eq_true_eq] at h
    exact ⟨row, get?_eq_some_iff.mpr ⟨hmem, h.1⟩, h.2⟩
  · rintro ⟨row, hrow, hguard⟩
    obtain ⟨hmem, hkey⟩ := get?_eq_some_iff.mp hrow
    exact ⟨row, hmem, by simp [hkey, hguard]⟩

lemma update_of_not_affects (h : t.affects k guard = false) : t.update k guard set hset = t := by
  have hrows : (t.update k guard set hset).rows = t.rows := by
    rw [affects, List.any_eq_false] at h
    refine (List.map_congr_left fun row hrow => ?_).trans (List.map_id _)
    rw [if_neg (h row hrow)]
    rfl
  cases t
  cases hrows' : update _ k guard set hset
  rw [hrows'] at hrows
  cases hrows
  rfl

end

end Table

end Supercodex
