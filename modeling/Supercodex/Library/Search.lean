import Mathlib.Data.List.Infix

/-!
# Searching a stream for one list

The first occurrence of a needle in a list, and how much of the end of a list may be the start of an
occurrence that is not complete yet. A stream can be searched in parts: if the needle does not occur in
what has arrived, only the longest end that starts the needle has to be kept.
-/

namespace Supercodex.Search

variable {α : Type} [DecidableEq α]

/-- Where the needle occurs first. -/
def find (needle : List α) : List α → Option ℕ
  | [] => if needle = [] then some 0 else none
  | a :: as => if needle.isPrefixOf (a :: as) then some 0 else (find needle as).map (· + 1)

/-- The longest start of the needle of at most some length that ends a list. -/
def longestFrom (as needle : List α) : ℕ → ℕ
  | 0 => 0
  | k + 1 => if (needle.take (k + 1)).isSuffixOf as then k + 1 else longestFrom as needle k

/-- The longest proper start of the needle that ends a list. -/
def longestSuffixStart (as needle : List α) : ℕ :=
  longestFrom as needle (min as.length (needle.length - 1))

/-! ## Occurrences -/

variable {needle as : List α}

lemma find_of_starts (h : needle <+: as) : find needle as = some 0 := by
  cases as with
  | nil => rw [find, if_pos (List.prefix_nil.mp h)]
  | cons a as => rw [find, if_pos (List.isPrefixOf_iff_prefix.mpr h)]

lemma find_cons_of_not_starts {a : α} (h : ¬ needle <+: a :: as) :
    find needle (a :: as) = (find needle as).map (· + 1) := by
  rw [find, if_neg (mt List.isPrefixOf_iff_prefix.mp h)]

lemma length_of_find {i : ℕ} (h : find needle as = some i) :
    i + needle.length ≤ as.length := by
  induction as generalizing i with
  | nil =>
    rw [find] at h
    split at h
    · rename_i hnil
      cases h
      rw [hnil]
      exact Nat.le_refl 0
    · cases h
  | cons a as ih =>
    by_cases hstart : needle <+: a :: as
    · rw [find_of_starts hstart] at h
      cases h
      have := hstart.length_le
      omega
    · rw [find_cons_of_not_starts hstart] at h
      obtain ⟨j, hj, rfl⟩ := Option.map_eq_some_iff.mp h
      have := ih hj
      rw [List.length_cons]
      omega

/-- A first occurrence stays the first one when more arrives. -/
lemma find_append {i : ℕ} (h : find needle as = some i) (bs : List α) :
    find needle (as ++ bs) = some i := by
  induction as generalizing i with
  | nil =>
    have hlen := length_of_find h
    have hnil : needle = [] := List.length_eq_zero_iff.mp (by rw [List.length_nil] at hlen; omega)
    rw [find, if_pos hnil] at h
    cases h
    exact find_of_starts (hnil ▸ List.nil_prefix)
  | cons a as ih =>
    by_cases hstart : needle <+: a :: as
    · rw [find_of_starts hstart] at h
      cases h
      exact find_of_starts (hstart.trans (List.prefix_append _ bs))
    · rw [find_cons_of_not_starts hstart] at h
      obtain ⟨j, hj, rfl⟩ := Option.map_eq_some_iff.mp h
      have hlen := length_of_find hj
      -- the needle is not longer than what was there, so it cannot start here now either
      have hstart' : ¬ needle <+: a :: (as ++ bs) := by
        intro h'
        apply hstart
        rw [← List.cons_append] at h'
        exact List.prefix_of_prefix_length_le h' (List.prefix_append _ bs) (by
          rw [List.length_cons]
          omega)
      rw [List.cons_append, find_cons_of_not_starts hstart', ih hj]
      rfl

lemma not_starts_of_find (h : find needle as = none) (i : ℕ)
    (hne : needle ≠ []) : ¬ needle <+: as.drop i := by
  induction as generalizing i with
  | nil =>
    rw [List.drop_nil, List.prefix_nil]
    exact hne
  | cons a as ih =>
    have hstart : ¬ needle <+: a :: as := by
      intro hstart
      rw [find_of_starts hstart] at h
      cases h
    rw [find_cons_of_not_starts hstart, Option.map_eq_none_iff] at h
    cases i with
    | zero => exact hstart
    | succ i => exact ih h i

lemma find_spec {i : ℕ} (h : find needle as = some i) :
    needle <+: as.drop i ∧ ∀ j < i, ¬ needle <+: as.drop j := by
  induction as generalizing i with
  | nil =>
    rw [find] at h
    split_ifs at h with hnil
    cases h
    exact ⟨hnil ▸ List.nil_prefix, fun j hj => absurd hj (Nat.not_lt_zero j)⟩
  | cons a as ih =>
    by_cases hstart : needle <+: a :: as
    · rw [find_of_starts hstart] at h
      cases h
      exact ⟨hstart, fun j hj => absurd hj (Nat.not_lt_zero j)⟩
    · rw [find_cons_of_not_starts hstart] at h
      obtain ⟨k, hk, rfl⟩ := Option.map_eq_some_iff.mp h
      obtain ⟨hstarts, hfirst⟩ := ih hk
      refine ⟨hstarts, fun j hj => ?_⟩
      cases j with
      | zero => exact hstart
      | succ j => exact hfirst j (by omega)

lemma find_drop {d : ℕ} (hd : d ≤ as.length) (h : ∀ i < d, ¬ needle <+: as.drop i) :
    find needle as = (find needle (as.drop d)).map (· + d) := by
  induction d generalizing as with
  | zero => simp
  | succ d ih =>
    cases as with
    | nil =>
      rw [List.length_nil] at hd
      omega
    | cons a as =>
      have hstart : ¬ needle <+: a :: as := h 0 (Nat.zero_lt_succ d)
      have hrest : ∀ i < d, ¬ needle <+: as.drop i := fun i hi => h (i + 1) (Nat.succ_lt_succ hi)
      rw [List.length_cons] at hd
      rw [find_cons_of_not_starts hstart, ih (by omega) hrest, Option.map_map, List.drop_succ_cons]
      congr 1

/-! ## Starts of an occurrence -/

lemma longestFrom_le (as needle : List α) (k : ℕ) : longestFrom as needle k ≤ k := by
  induction k with
  | zero => exact Nat.le_refl 0
  | succ k ih =>
    rw [longestFrom]
    split
    · exact Nat.le_refl _
    · omega

lemma take_longestFrom_ends (as needle : List α) (k : ℕ) :
    needle.take (longestFrom as needle k) <:+ as := by
  induction k with
  | zero => exact List.nil_suffix
  | succ k ih =>
    rw [longestFrom]
    split
    · rename_i h
      exact List.isSuffixOf_iff_suffix.mp h
    · exact ih

lemma le_longestFrom {j k : ℕ} (hj : j ≤ k) (h : needle.take j <:+ as) :
    j ≤ longestFrom as needle k := by
  induction k with
  | zero => omega
  | succ k ih =>
    rw [longestFrom]
    split
    · exact hj
    rename_i hnot
    apply ih
    have hne : j ≠ k + 1 := by
      rintro rfl
      exact hnot (List.isSuffixOf_iff_suffix.mpr h)
    omega

lemma longestSuffixStart_le_length (as needle : List α) :
    longestSuffixStart as needle ≤ as.length :=
  (longestFrom_le as needle _).trans (Nat.min_le_left _ _)

variable {needle : List α}

lemma longestSuffixStart_lt (as : List α) (hne : needle ≠ []) :
    longestSuffixStart as needle < needle.length := by
  have hle := longestFrom_le as needle (min as.length (needle.length - 1))
  have hpos := List.length_pos_iff.mpr hne
  unfold longestSuffixStart
  omega

lemma take_longestSuffixStart_ends (as needle : List α) :
    needle.take (longestSuffixStart as needle) <:+ as :=
  take_longestFrom_ends as needle _

lemma le_longestSuffixStart {j : ℕ} (hj : j < needle.length)
    (h : needle.take j <:+ as) : j ≤ longestSuffixStart as needle := by
  have hlen := h.length_le
  rw [List.length_take_of_le (Nat.le_of_lt hj)] at hlen
  apply le_longestFrom _ h
  omega

/-! ## Searching in parts -/

/-- What may be let go: all but the longest end that starts the needle. -/
def settledLength (as needle : List α) : ℕ := as.length - longestSuffixStart as needle

lemma settledLength_le (as needle : List α) : settledLength as needle ≤ as.length :=
  Nat.sub_le _ _

lemma length_drop_settledLength (as needle : List α) :
    (as.drop (settledLength as needle)).length = longestSuffixStart as needle := by
  have := longestSuffixStart_le_length as needle
  rw [List.length_drop, settledLength]
  omega

lemma not_starts_in_settled (hne : needle ≠ []) (h : find needle as = none) (bs : List α)
    {i : ℕ} (hi : i < settledLength as needle) : ¬ needle <+: as.drop i ++ bs := by
  intro hstart
  have hle := settledLength_le as needle
  by_cases hlong : needle.length ≤ (as.drop i).length
  · exact not_starts_of_find h i hne
      (List.prefix_of_prefix_length_le hstart (List.prefix_append _ bs) hlong)
  -- the end of the list starts the needle and is longer than what was kept
  have hend : as.drop i <+: needle :=
    List.prefix_of_prefix_length_le (List.prefix_append _ bs) hstart (by omega)
  have hends : needle.take (as.drop i).length <:+ as := by
    rw [← List.prefix_iff_eq_take.mp hend]
    exact List.drop_suffix i as
  have hmax := le_longestSuffixStart (by omega) hends
  rw [List.length_drop] at hmax
  unfold settledLength at hi
  omega

lemma find_append_settled (hne : needle ≠ []) (h : find needle as = none) (bs : List α) :
    find needle (as ++ bs) =
      (find needle (as.drop (settledLength as needle) ++ bs)).map
        (· + settledLength as needle) := by
  have hle := settledLength_le as needle
  rw [← List.drop_append_of_le_length hle]
  refine find_drop (by rw [List.length_append]; omega) ?_
  intro i hi hstart
  rw [List.drop_append_of_le_length (by omega)] at hstart
  exact not_starts_in_settled hne h bs hi hstart

lemma longestSuffixStart_mono {as bs needle : List α} (hne : needle ≠ []) (h : as <:+ bs) :
    longestSuffixStart as needle ≤ longestSuffixStart bs needle :=
  le_longestSuffixStart (longestSuffixStart_lt as hne) ((take_longestSuffixStart_ends as needle).trans h)

/-- What is kept decides what is kept when more arrives. -/
lemma longestSuffixStart_append (as bs : List α) (hne : needle ≠ []) :
    longestSuffixStart (as ++ bs) needle =
      longestSuffixStart (as.drop (settledLength as needle) ++ bs) needle := by
  have hdrop : as.drop (settledLength as needle) ++ bs <:+ as ++ bs := by
    rw [← List.drop_append_of_le_length (settledLength_le as needle)]
    exact List.drop_suffix _ _
  apply Nat.le_antisymm
  · have hlt := longestSuffixStart_lt (as ++ bs) hne
    have hends := take_longestSuffixStart_ends (as ++ bs) needle
    generalize longestSuffixStart (as ++ bs) needle = k at hlt hends ⊢
    apply le_longestSuffixStart hlt
    apply List.suffix_of_suffix_length_le hends hdrop
    rw [List.length_take_of_le (Nat.le_of_lt hlt), List.length_append, length_drop_settledLength]
    by_contra hgt
    -- the part of the longer start that lies in the first list would have been kept
    obtain ⟨front, hfront⟩ := hends
    have hk : (needle.take k).length = k := List.length_take_of_le (Nat.le_of_lt hlt)
    have hsplit : needle.take k = needle.take (k - bs.length) ++ bs := by
      have htail : bs <:+ needle.take k := by
        apply List.suffix_of_suffix_length_le (List.suffix_append as bs) ⟨front, hfront⟩
        omega
      obtain ⟨start, hstart⟩ := htail
      have hlen := congrArg List.length hstart
      rw [List.length_append, hk] at hlen
      have htake : needle.take (k - bs.length) = start := by
        have := congrArg (List.take (k - bs.length)) hstart
        rw [List.take_take, Nat.min_eq_left (Nat.sub_le _ _)] at this
        rw [← this, List.take_left' (by omega)]
      rw [htake, hstart]
    have hends' : needle.take (k - bs.length) <:+ as := by
      refine ⟨front, ?_⟩
      rw [hsplit, ← List.append_assoc] at hfront
      exact List.append_cancel_right hfront
    have := le_longestSuffixStart (by omega) hends'
    omega
  · exact longestSuffixStart_mono hne hdrop

lemma longestSuffixStart_append_of_le (as bs : List α) (hne : needle ≠ []) {d : ℕ}
    (hd : d ≤ settledLength as needle) :
    longestSuffixStart (as ++ bs) needle = longestSuffixStart (as.drop d ++ bs) needle := by
  have hsettled := settledLength_le as needle
  have hkept : as.drop (settledLength as needle) ++ bs <:+ as.drop d ++ bs := by
    rw [← List.drop_append_of_le_length hsettled, ← List.drop_append_of_le_length (hd.trans hsettled)]
    exact List.drop_suffix_drop_left _ hd
  have hall : as.drop d ++ bs <:+ as ++ bs := by
    rw [← List.drop_append_of_le_length (hd.trans hsettled)]
    exact List.drop_suffix _ _
  apply Nat.le_antisymm
  · rw [longestSuffixStart_append as bs hne]
    exact longestSuffixStart_mono hne hkept
  · exact longestSuffixStart_mono hne hall

end Supercodex.Search
