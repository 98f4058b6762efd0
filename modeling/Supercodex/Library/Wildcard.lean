import Mathlib.Data.List.Infix

/-!
# Wildcard patterns

A pattern is a list of tokens: a letter, any one letter, or any word. Letters are compared after a
fold, such as lower case.
-/

namespace Supercodex.Wildcard

/-- A token of a pattern. -/
inductive Token (α : Type) where
  | lit (a : α)
  | one
  | many

variable {α β : Type} [DecidableEq β] (fold : α → β)

/-- Does the pattern take the word? -/
def accepts : List (Token α) → List α → Bool
  | [], w => w.isEmpty
  | .lit a :: p, w =>
    match w with
    | [] => false
    | b :: w => fold a == fold b && accepts p w
  | .one :: p, w =>
    match w with
    | [] => false
    | _ :: w => accepts p w
  | .many :: p, w => w.tails.any (accepts p)

variable {fold} {p q : List (Token α)} {w : List α}

@[simp] lemma accepts_nil : accepts fold [] w = true ↔ w = [] := by simp [accepts]

lemma accepts_lit {a : α} :
    accepts fold (.lit a :: p) w = true ↔
      ∃ b v, w = b :: v ∧ fold a = fold b ∧ accepts fold p v = true := by
  cases w <;> simp [accepts]

lemma accepts_one :
    accepts fold (.one :: p) w = true ↔ ∃ b v, w = b :: v ∧ accepts fold p v = true := by
  cases w <;> simp [accepts]

lemma accepts_many :
    accepts fold (.many :: p) w = true ↔ ∃ u v, w = u ++ v ∧ accepts fold p v = true := by
  simp only [accepts, List.any_eq_true, List.mem_tails]
  constructor
  · rintro ⟨v, ⟨u, rfl⟩, hv⟩
    exact ⟨u, v, rfl, hv⟩
  · rintro ⟨u, v, rfl, hv⟩
    exact ⟨v, List.suffix_append u v, hv⟩

/-- A pattern after another takes the words of the one followed by words of the other. -/
lemma accepts_append :
    accepts fold (p ++ q) w = true ↔
      ∃ u v, w = u ++ v ∧ accepts fold p u = true ∧ accepts fold q v = true := by
  induction p generalizing w with
  | nil => simp
  | cons token p ih =>
    cases token with
    | lit a =>
      rw [List.cons_append, accepts_lit]
      simp only [ih, accepts_lit]
      constructor
      · rintro ⟨b, _, rfl, hab, u, v, rfl, hu, hv⟩
        exact ⟨b :: u, v, rfl, ⟨b, u, rfl, hab, hu⟩, hv⟩
      · rintro ⟨_, v, rfl, ⟨b, u, rfl, hab, hu⟩, hv⟩
        exact ⟨b, u ++ v, rfl, hab, u, v, rfl, hu, hv⟩
    | one =>
      rw [List.cons_append, accepts_one]
      simp only [ih, accepts_one]
      constructor
      · rintro ⟨b, _, rfl, u, v, rfl, hu, hv⟩
        exact ⟨b :: u, v, rfl, ⟨b, u, rfl, hu⟩, hv⟩
      · rintro ⟨_, v, rfl, ⟨b, u, rfl, hu⟩, hv⟩
        exact ⟨b, u ++ v, rfl, u, v, rfl, hu, hv⟩
    | many =>
      rw [List.cons_append, accepts_many]
      simp only [ih, accepts_many]
      constructor
      · rintro ⟨s, _, rfl, u, v, rfl, hu, hv⟩
        exact ⟨s ++ u, v, (List.append_assoc s u v).symm, ⟨s, u, rfl, hu⟩, hv⟩
      · rintro ⟨_, v, rfl, ⟨s, u, rfl, hu⟩, hv⟩
        exact ⟨s, u ++ v, List.append_assoc s u v, u, v, rfl, hu, hv⟩

lemma accepts_map_lit {letters : List α} :
    accepts fold (letters.map .lit) w = true ↔ w.map fold = letters.map fold := by
  induction letters generalizing w with
  | nil => simp
  | cons a letters ih =>
    rw [List.map_cons, accepts_lit]
    cases w with
    | nil => simp
    | cons b w =>
      simp only [List.map_cons, List.cons.injEq, ← ih]
      constructor
      · rintro ⟨_, _, ⟨rfl, rfl⟩, hab, hw⟩
        exact ⟨hab.symm, hw⟩
      · rintro ⟨hab, hw⟩
        exact ⟨b, w, ⟨rfl, rfl⟩, hab.symm, hw⟩

lemma ne_nil_of_accepts (hp : ∃ token ∈ p, token ≠ .many) (h : accepts fold p w = true) :
    w ≠ [] := by
  induction p generalizing w with
  | nil => simp at hp
  | cons token p ih =>
    cases token with
    | lit a =>
      obtain ⟨b, v, rfl, _⟩ := accepts_lit.mp h
      exact List.cons_ne_nil b v
    | one =>
      obtain ⟨b, v, rfl, _⟩ := accepts_one.mp h
      exact List.cons_ne_nil b v
    | many =>
      obtain ⟨u, v, rfl, hv⟩ := accepts_many.mp h
      have hp' : ∃ token ∈ p, token ≠ .many := by simpa using hp
      exact List.append_ne_nil_of_right_ne_nil u (ih hp' hv)

end Supercodex.Wildcard
