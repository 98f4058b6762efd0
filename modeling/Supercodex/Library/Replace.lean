import Supercodex.Library.Text

/-!
# Replacing a pattern in text

The occurrences of a pattern are replaced from left to right, and none of them inside another one.
-/

namespace Supercodex.Text

/-- `str::contains`. -/
def contains (pattern : Text) : Text → Bool
  | [] => pattern.isEmpty
  | c :: t => pattern.isPrefixOf (c :: t) || contains pattern t

/-- The replacement after some characters that belong to an occurrence. -/
def replaceFrom (pattern new : Text) : ℕ → Text → Text
  | _, [] => []
  | skip + 1, _ :: t => replaceFrom pattern new skip t
  | 0, c :: t =>
    if pattern.isPrefixOf (c :: t) then new ++ replaceFrom pattern new (pattern.length - 1) t
    else c :: replaceFrom pattern new 0 t

/-- `str::replace`, of a pattern that is not empty. -/
def replace (pattern new t : Text) : Text := replaceFrom pattern new 0 t

variable {pattern new : Text}

@[simp] lemma replaceFrom_nil (skip : ℕ) : replaceFrom pattern new skip [] = [] := by
  cases skip <;> rfl

lemma replaceFrom_skip (skipped t : Text) :
    replaceFrom pattern new skipped.length (skipped ++ t) = replaceFrom pattern new 0 t := by
  induction skipped with
  | nil => rfl
  | cons c skipped ih => exact ih

lemma replace_append (hpattern : pattern ≠ []) (t : Text) :
    replace pattern new (pattern ++ t) = new ++ replace pattern new t := by
  obtain ⟨c, rest, rfl⟩ := List.exists_cons_of_ne_nil hpattern
  rw [List.cons_append, replace, replaceFrom, if_pos, List.length_cons, Nat.add_sub_cancel, replaceFrom_skip,
    replace]
  rw [List.isPrefixOf_iff_prefix]
  exact ⟨t, rfl⟩

variable {t : Text}

lemma replace_cons {c : Char} (h : ¬pattern <+: c :: t) :
    replace pattern new (c :: t) = c :: replace pattern new t := by
  rw [replace, replaceFrom, if_neg, replace]
  rwa [List.isPrefixOf_iff_prefix]

lemma replace_of_notMem {c : Char} (h : c ∉ t) : replace (c :: pattern) new t = t := by
  induction t with
  | nil => rfl
  | cons c' t ih =>
    rw [List.mem_cons, not_or] at h
    rw [replace_cons, ih h.2]
    rintro ⟨v, hv⟩
    rw [List.cons_append, List.cons.injEq] at hv
    exact h.1 hv.1

lemma contains_iff : contains pattern t = true ↔ ∃ u v, t = u ++ pattern ++ v := by
  induction t with
  | nil =>
    rw [contains, List.isEmpty_iff]
    constructor
    · rintro rfl
      exact ⟨[], [], rfl⟩
    · rintro ⟨u, v, h⟩
      have hnil := List.append_eq_nil_iff.mp h.symm
      exact (List.append_eq_nil_iff.mp hnil.1).2
  | cons c t ih =>
    rw [contains, Bool.or_eq_true, List.isPrefixOf_iff_prefix, ih]
    constructor
    · rintro (⟨v, h⟩ | ⟨u, v, rfl⟩)
      · exact ⟨[], v, h.symm⟩
      · exact ⟨c :: u, v, rfl⟩
    · rintro ⟨u, v, h⟩
      cases u with
      | nil => exact .inl ⟨v, h.symm⟩
      | cons c' u =>
        rw [List.cons_append, List.cons_append, List.cons.injEq] at h
        exact .inr ⟨u, v, h.2⟩

lemma replace_of_not_contains (h : contains pattern t = false) : replace pattern new t = t := by
  induction t with
  | nil => rfl
  | cons c t ih =>
    rw [contains, Bool.or_eq_false_iff] at h
    rw [replace_cons, ih h.2]
    rw [← List.isPrefixOf_iff_prefix, h.1]
    exact Bool.false_ne_true

section

variable (hnew : new.length < pattern.length)
include hnew

lemma length_replaceFrom_le (skip : ℕ) (t : Text) :
    (replaceFrom pattern new skip t).length ≤ t.length - skip := by
  induction t generalizing skip with
  | nil => simp
  | cons c t ih =>
    cases skip with
    | succ skip =>
      rw [replaceFrom, List.length_cons, Nat.add_sub_add_right]
      exact ih skip
    | zero =>
      rw [replaceFrom]
      split_ifs with hpattern
      · have hlength := (List.isPrefixOf_iff_prefix.mp hpattern).length_le
        have hrest := ih (pattern.length - 1)
        rw [List.length_cons] at hlength
        rw [List.length_append, List.length_cons]
        omega
      · have hrest := ih 0
        rw [List.length_cons, List.length_cons]
        omega

lemma length_replace_le (t : Text) :
    (replace pattern new t).length ≤ t.length := length_replaceFrom_le hnew 0 t

lemma length_replace_lt (h : contains pattern t = true) :
    (replace pattern new t).length < t.length := by
  induction t with
  | nil =>
    rw [contains, List.isEmpty_iff] at h
    rw [h] at hnew
    exact absurd hnew (Nat.not_lt_zero _)
  | cons c t ih =>
    by_cases hpattern : pattern.isPrefixOf (c :: t) = true
    · have hlength := (List.isPrefixOf_iff_prefix.mp hpattern).length_le
      have hrest := length_replaceFrom_le hnew (pattern.length - 1) t
      rw [List.length_cons] at hlength
      rw [replace, replaceFrom, if_pos hpattern, List.length_append, List.length_cons]
      omega
    · have hrest := ih (by simpa [contains, hpattern] using h)
      rw [replace_cons (by rwa [← List.isPrefixOf_iff_prefix]), List.length_cons, List.length_cons]
      omega

end

end Supercodex.Text
