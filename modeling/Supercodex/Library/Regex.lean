import Mathlib.Computability.Language

/-!
# Regular expressions over an ordered alphabet

An expression is built from the empty word and character classes by concatenation, alternation and
repetition. Its meaning is a language of Mathlib; the matcher takes derivatives and decides
membership.
-/

namespace Supercodex

open scoped Computability

/-- Regular expressions. A class lists ranges of characters and may be negated. -/
inductive Regex (α : Type) where
  | epsilon
  | chars (negated : Bool) (ranges : List (α × α))
  | cat (r s : Regex α)
  | alt (r s : Regex α)
  | star (r : Regex α)
deriving DecidableEq

namespace Regex

variable {α : Type}

/-- The one character. -/
def char (c : α) : Regex α := chars false [(c, c)]

/-- Any character. -/
def any : Regex α := chars true []

/-- Any character but this one. -/
def other (c : α) : Regex α := chars true [(c, c)]

/-- The expression or the empty word. -/
def opt (r : Regex α) : Regex α := alt epsilon r

/-- One expression after the other. -/
def seq : List (Regex α) → Regex α
  | [] => epsilon
  | r :: rs => cat r (seq rs)

variable [LinearOrder α]

/-- Is the character in one of the ranges? -/
def inRanges (ranges : List (α × α)) (c : α) : Bool :=
  ranges.any fun range => range.1 ≤ c && c ≤ range.2

/-- Is the character in the class? -/
def inClass (negated : Bool) (ranges : List (α × α)) (c : α) : Bool :=
  negated ^^ inRanges ranges c

/-- The words that an expression stands for. -/
def language : Regex α → Language α
  | epsilon => 1
  | chars negated ranges => {w | ∃ c, inClass negated ranges c = true ∧ w = [c]}
  | cat r s => r.language * s.language
  | alt r s => r.language + s.language
  | star r => r.language∗

/-! ## Membership -/

variable {r s : Regex α} {w : List α} {c : α}

@[simp] lemma mem_epsilon : w ∈ (epsilon : Regex α).language ↔ w = [] := Iff.rfl

lemma mem_chars {negated : Bool} {ranges : List (α × α)} :
    w ∈ (chars negated ranges).language ↔ ∃ c, inClass negated ranges c = true ∧ w = [c] :=
  Iff.rfl

@[simp] lemma mem_cat :
    w ∈ (cat r s).language ↔ ∃ u ∈ r.language, ∃ v ∈ s.language, u ++ v = w :=
  Language.mem_mul

@[simp] lemma mem_alt : w ∈ (alt r s).language ↔ w ∈ r.language ∨ w ∈ s.language := Iff.rfl

@[simp] lemma mem_char : w ∈ (char c).language ↔ w = [c] := by
  constructor
  · rintro ⟨d, hd, rfl⟩
    have hcd : c ≤ d ∧ d ≤ c := by simpa [inClass, inRanges] using hd
    rw [le_antisymm hcd.2 hcd.1]
  · rintro rfl
    exact ⟨c, by simp [inClass, inRanges], rfl⟩

@[simp] lemma mem_any : w ∈ (any : Regex α).language ↔ ∃ c, w = [c] := by
  simp [any, mem_chars, inClass, inRanges]

lemma mem_star_any (w : List α) : w ∈ (star (any : Regex α)).language := by
  refine ⟨w.map fun c => [c], by simp [← List.flatMap_def], ?_⟩
  intro u hu
  obtain ⟨c, _, rfl⟩ := List.mem_map.mp hu
  exact mem_any.mpr ⟨c, rfl⟩

lemma language_seq_append (rs ss : List (Regex α)) :
    (seq (rs ++ ss)).language = (seq rs).language * (seq ss).language := by
  induction rs with
  | nil => exact (one_mul _).symm
  | cons r rs ih =>
    show r.language * (seq (rs ++ ss)).language = r.language * (seq rs).language * _
    rw [ih, mul_assoc]

lemma language_seq_singleton (r : Regex α) : (seq [r]).language = r.language :=
  mul_one r.language

/-! ## Matching by derivatives -/

/-- Does the expression take the empty word? -/
def nullable : Regex α → Bool
  | epsilon => true
  | chars _ _ => false
  | cat r s => r.nullable && s.nullable
  | alt r s => r.nullable || s.nullable
  | star _ => true

/-- What may follow `c` in a word of the expression. -/
def derivative (c : α) : Regex α → Regex α
  | epsilon => chars false []
  | chars negated ranges => if inClass negated ranges c then epsilon else chars false []
  | cat r s =>
    if r.nullable then alt (cat (r.derivative c) s) (s.derivative c) else cat (r.derivative c) s
  | alt r s => alt (r.derivative c) (s.derivative c)
  | star r => cat (r.derivative c) (star r)

/-- Does the expression take the word? -/
def accepts (r : Regex α) : List α → Bool
  | [] => r.nullable
  | c :: w => (r.derivative c).accepts w

lemma nullable_iff (r : Regex α) : r.nullable = true ↔ [] ∈ r.language := by
  induction r with
  | epsilon => simp [nullable]
  | chars negated ranges => simp [nullable, mem_chars]
  | cat r s ihr ihs => simp [nullable, ihr, ihs, mem_cat]
  | alt r s ihr ihs => simp [nullable, ihr, ihs]
  | star r => exact iff_of_true rfl (Language.nil_mem_kstar r.language)

lemma notMem_chars_nil : w ∉ (chars false [] : Regex α).language := by
  simp [mem_chars, inClass, inRanges]

lemma cons_mem_star :
    c :: w ∈ (star r).language ↔ ∃ u v, c :: u ∈ r.language ∧ v ∈ (star r).language ∧ u ++ v = w := by
  constructor
  · intro h
    obtain ⟨words, hw, hmem⟩ := Language.mem_kstar_iff_exists_nonempty.mp h
    cases words with
    | nil => simp at hw
    | cons first words =>
      obtain ⟨hfirst, hne⟩ := hmem first (by simp)
      obtain ⟨d, u, rfl⟩ := List.exists_cons_of_ne_nil hne
      have heq : c = d ∧ w = u ++ words.flatten := by simpa using hw
      refine ⟨u, words.flatten, heq.1 ▸ hfirst, ?_, heq.2.symm⟩
      exact Language.join_mem_kstar fun y hy => (hmem y (List.mem_cons_of_mem _ hy)).1
  · rintro ⟨u, v, hu, ⟨words, rfl, hmem⟩, rfl⟩
    exact ⟨(c :: u) :: words, by simp, List.forall_mem_cons.mpr ⟨hu, hmem⟩⟩

lemma mem_derivative (r : Regex α) (w : List α) :
    w ∈ (r.derivative c).language ↔ c :: w ∈ r.language := by
  induction r generalizing w with
  | epsilon => simp [derivative, notMem_chars_nil]
  | chars negated ranges =>
    by_cases h : inClass negated ranges c = true
    · simp [derivative, h, mem_chars]
    have hnone : c :: w ∉ (chars negated ranges).language := by
      rintro ⟨d, hd, heq⟩
      exact h ((List.cons.inj heq).1 ▸ hd)
    simp [derivative, h, notMem_chars_nil, hnone]
  | cat r s ihr ihs =>
    have hcat : w ∈ (cat (r.derivative c) s).language ↔
        ∃ u v, c :: u ∈ r.language ∧ v ∈ s.language ∧ u ++ v = w := by
      simp [mem_cat, ihr]
    have hsplit : c :: w ∈ (cat r s).language ↔
        (∃ u v, c :: u ∈ r.language ∧ v ∈ s.language ∧ u ++ v = w) ∨
          ([] ∈ r.language ∧ c :: w ∈ s.language) := by
      rw [mem_cat]
      constructor
      · rintro ⟨u, hu, v, hv, huv⟩
        cases u with
        | nil => exact .inr ⟨hu, huv ▸ hv⟩
        | cons d u =>
          have heq : d = c ∧ u ++ v = w := by simpa using huv
          exact .inl ⟨u, v, heq.1 ▸ hu, hv, heq.2⟩
      · rintro (⟨u, v, hu, hv, rfl⟩ | ⟨hr, hs⟩)
        · exact ⟨c :: u, hu, v, hv, rfl⟩
        · exact ⟨[], hr, c :: w, hs, rfl⟩
    rw [hsplit, ← hcat, ← nullable_iff]
    by_cases hr : r.nullable = true <;> simp [derivative, hr, ihs]
  | alt r s ihr ihs => simp [derivative, ihr, ihs]
  | star r ih =>
    rw [cons_mem_star]
    simp [derivative, mem_cat, ih]

/-- The matcher decides membership. -/
theorem accepts_iff (r : Regex α) (w : List α) : r.accepts w = true ↔ w ∈ r.language := by
  induction w generalizing r with
  | nil => exact nullable_iff r
  | cons c w ih => rw [accepts, ih, mem_derivative]

end Regex

end Supercodex
