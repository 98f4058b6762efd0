import Mathlib.Data.List.Infix

/-!
# Keeping the latest

What is kept of a list is its longest suffix that meets a condition. Giving up the oldest elements, until
the condition is met, finds it, and it need not be found anew when the list grows at its end.
-/

namespace Supercodex.Retention

variable {α : Type} {p : List α → Prop} {l s t : List α} {a : α}

/-- The longest suffix of a list that meets a condition. -/
structure LongestSuffix (p : List α → Prop) (l s : List α) : Prop where
  suffix : s <:+ l
  holds : p s
  longest : ∀ t, t <:+ l → p t → t <:+ s

lemma LongestSuffix.of_holds (h : p l) : LongestSuffix p l l :=
  ⟨List.suffix_rfl, h, fun _ ht _ => ht⟩

lemma LongestSuffix.cons (hnot : ¬p (a :: l)) (h : LongestSuffix p l s) : LongestSuffix p (a :: l) s where
  suffix := h.suffix.trans (List.suffix_cons a l)
  holds := h.holds
  longest := by
    intro t ht hp
    rcases List.suffix_cons_iff.mp ht with rfl | ht
    · exact absurd hp hnot
    · exact h.longest t ht hp

/-- What was given up before need not be looked at again, if the condition only gets harder to meet with
one more element at the end. -/
theorem LongestSuffix.append (hshorter : ∀ u, p (u ++ [a]) → p u) (h : LongestSuffix p l s)
    (hnew : LongestSuffix p (s ++ [a]) t) : LongestSuffix p (l ++ [a]) t where
  suffix := by
    obtain ⟨before, rfl⟩ := h.suffix
    rw [List.append_assoc]
    exact hnew.suffix.trans (List.suffix_append before _)
  holds := hnew.holds
  longest := by
    intro u hu hp
    apply hnew.longest u _ hp
    rcases List.suffix_concat_iff.mp hu with rfl | ⟨u, rfl, hbefore⟩
    · exact List.nil_suffix
    · exact List.suffix_append_self_iff.mpr (h.longest u hbefore (hshorter u hp))

/-- Where the last element is kept first, the condition is one on what comes before it. -/
theorem LongestSuffix.snoc {q : List α → Prop} (hq : ∀ u, p (u ++ [a]) ↔ q u) (h : LongestSuffix q l s) :
    LongestSuffix p (l ++ [a]) (s ++ [a]) where
  suffix := List.suffix_append_self_iff.mpr h.suffix
  holds := (hq s).mpr h.holds
  longest := by
    intro t ht hp
    rcases List.suffix_concat_iff.mp ht with rfl | ⟨u, rfl, hbefore⟩
    · exact List.nil_suffix
    · exact List.suffix_append_self_iff.mpr (h.longest u hbefore ((hq u).mp hp))

end Supercodex.Retention
