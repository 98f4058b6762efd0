import Mathlib.Data.Finset.Card

/-!
# Fresh names by retrying

A name is proposed for each attempt, and the first attempt whose name is not in use is taken. The
search ends as soon as the proposals hold more distinct names than are in use.
-/

namespace Supercodex.FreshNames

variable {α : Type} [DecidableEq α]

/-- The first of `rounds` attempts from `attempt` on whose name is not in use. -/
def firstFresh (name : ℕ → α) (used : Finset α) : ℕ → ℕ → Option ℕ
  | 0, _ => none
  | rounds + 1, attempt =>
    if name attempt ∈ used then firstFresh name used rounds (attempt + 1) else some attempt

variable {name : ℕ → α} {used : Finset α} {rounds start attempt : ℕ}

lemma firstFresh_notMem (h : firstFresh name used rounds start = some attempt) :
    name attempt ∉ used := by
  induction rounds generalizing start with
  | zero => cases h
  | succ rounds ih =>
    rw [firstFresh] at h
    split at h
    · exact ih h
    · rename_i hfresh
      rw [← Option.some.inj h]
      exact hfresh

lemma firstFresh_isSome (hge : start ≤ attempt) (hlt : attempt < start + rounds)
    (hfresh : name attempt ∉ used) : (firstFresh name used rounds start).isSome := by
  induction rounds generalizing start with
  | zero => omega
  | succ rounds ih =>
    rw [firstFresh]
    split
    · rename_i hused
      have hne : start ≠ attempt := by
        rintro rfl
        exact hfresh hused
      exact ih (by omega) (by omega)
    · rfl

/-- More distinct proposals than names in use leave one of the proposals fresh. -/
theorem firstFresh_isSome_of_card {attempts : Finset ℕ} (hbound : ∀ a ∈ attempts, a < rounds)
    (hcard : used.card < attempts.card) (hinj : Set.InjOn name attempts) :
    (firstFresh name used rounds 0).isSome := by
  have hlt : used.card < (attempts.image name).card := by
    rw [Finset.card_image_of_injOn hinj]
    exact hcard
  obtain ⟨proposal, hproposal, hfresh⟩ := Finset.exists_mem_notMem_of_card_lt_card hlt
  obtain ⟨a, ha, rfl⟩ := Finset.mem_image.mp hproposal
  have hle : a < 0 + rounds := by
    have := hbound a ha
    omega
  exact firstFresh_isSome (Nat.zero_le a) hle hfresh

end Supercodex.FreshNames
