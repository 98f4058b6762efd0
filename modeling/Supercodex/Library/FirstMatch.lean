import Mathlib.Data.List.Basic

/-!
# Changing the first element that matches

`iter_mut().find(..)` and an assignment to what was found.
-/

namespace Supercodex.FirstMatch

variable {α : Type}

/-- The list with its first match changed, if it has a match. -/
def modifyFirst (matches' : α → Bool) (change : α → α) : List α → Option (List α)
  | [] => none
  | a :: rest =>
    if matches' a then some (change a :: rest) else (modifyFirst matches' change rest).map (a :: ·)

variable {matches' : α → Bool} {change : α → α} {l l' : List α}

lemma modifyFirst_eq_none : modifyFirst matches' change l = none ↔ ∀ a ∈ l, matches' a = false := by
  induction l with
  | nil => simp [modifyFirst]
  | cons a rest ih =>
    rw [modifyFirst]
    cases h : matches' a with
    | true => simp [h]
    | false => simp [h, ih]

lemma modifyFirst_eq_some (h : modifyFirst matches' change l = some l') :
    ∃ before a after, l = before ++ a :: after ∧ l' = before ++ change a :: after ∧
      matches' a = true ∧ ∀ b ∈ before, matches' b = false := by
  induction l generalizing l' with
  | nil => cases h
  | cons a rest ih =>
    rw [modifyFirst] at h
    cases hmatch : matches' a with
    | true =>
      rw [hmatch, if_pos rfl] at h
      exact ⟨[], a, rest, rfl, (Option.some.inj h).symm, hmatch, by simp⟩
    | false =>
      rw [hmatch, if_neg Bool.false_ne_true, Option.map_eq_some_iff] at h
      obtain ⟨rest', hrest, rfl⟩ := h
      obtain ⟨before, b, after, rfl, rfl, hb, hbefore⟩ := ih hrest
      refine ⟨a :: before, b, after, rfl, rfl, hb, ?_⟩
      intro c hc
      rcases List.mem_cons.mp hc with rfl | hc
      · exact hmatch
      · exact hbefore c hc

end Supercodex.FirstMatch
