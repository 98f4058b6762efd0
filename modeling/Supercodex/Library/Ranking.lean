import Mathlib.Data.List.Sort

/-!
# Choosing by a rank

A list is sorted by a rank, upwards or downwards, and then searched or cut. What is found first has the
least rank of all that match, and what is before a cut outranks what comes after it.
-/

namespace Supercodex.Ranking

variable {α : Type} (rank : α → ℕ)

/-- The elements by rank, the lowest first. -/
def upwards (l : List α) : List α := l.insertionSort fun a b => rank a ≤ rank b

/-- The elements by rank, the highest first. -/
def downwards (l : List α) : List α := l.insertionSort fun a b => rank b ≤ rank a

lemma upwards_perm (l : List α) : (upwards rank l).Perm l := List.perm_insertionSort _ l

lemma downwards_perm (l : List α) : (downwards rank l).Perm l := List.perm_insertionSort _ l

lemma pairwise_upwards (l : List α) : (upwards rank l).Pairwise fun a b => rank a ≤ rank b := by
  have htotal : Std.Total fun a b : α => rank a ≤ rank b := ⟨fun a b => Nat.le_total ..⟩
  have htrans : IsTrans α fun a b => rank a ≤ rank b := ⟨fun a b c => Nat.le_trans⟩
  exact List.pairwise_insertionSort _ l

lemma pairwise_downwards (l : List α) : (downwards rank l).Pairwise fun a b => rank b ≤ rank a := by
  have htotal : Std.Total fun a b : α => rank b ≤ rank a := ⟨fun a b => Nat.le_total ..⟩
  have htrans : IsTrans α fun a b => rank b ≤ rank a := ⟨fun a b c hab hbc => Nat.le_trans hbc hab⟩
  exact List.pairwise_insertionSort _ l

variable {rank}

/-- What is found first among the lowest has the least rank of all that match. -/
theorem find?_upwards {l : List α} {p : α → Bool} {a : α} (h : (upwards rank l).find? p = some a) :
    a ∈ l ∧ p a = true ∧ ∀ b ∈ l, p b = true → rank a ≤ rank b := by
  obtain ⟨hp, before, after, hparts, hbefore⟩ := List.find?_eq_some_iff_append.mp h
  have hperm := upwards_perm rank l
  have hsorted := pairwise_upwards rank l
  rw [hparts] at hperm hsorted
  refine ⟨hperm.subset (by simp), hp, fun b hb hpb => ?_⟩
  rcases List.mem_append.mp (hperm.symm.subset hb) with hb | hb
  · -- nothing before the first match matches
    have hnot := hbefore b hb
    rw [hpb] at hnot
    cases hnot
  · rcases List.mem_cons.mp hb with rfl | hb
    · exact le_rfl
    · exact (List.pairwise_cons.mp (List.pairwise_append.mp hsorted).2.1).1 b hb

variable (rank) in
/-- The first of the highest outrank all others. -/
theorem take_downwards (l : List α) (n : ℕ) : ((downwards rank l).take n ++ (downwards rank l).drop n).Perm l ∧
    ∀ a ∈ (downwards rank l).take n, ∀ b ∈ (downwards rank l).drop n, rank b ≤ rank a := by
  have hsorted := pairwise_downwards rank l
  rw [← List.take_append_drop n (downwards rank l)] at hsorted
  rw [List.take_append_drop]
  exact ⟨downwards_perm rank l, (List.pairwise_append.mp hsorted).2.2⟩

variable (rank) in
/-- Elements of one rank stay in their order. -/
theorem filter_upwards (l : List α) (n : ℕ) :
    (upwards rank l).filter (fun a => rank a = n) = l.filter fun a => rank a = n := by
  have htotal : Std.Total fun a b : α => rank a ≤ rank b := ⟨fun a b => Nat.le_total ..⟩
  have htrans : IsTrans α fun a b => rank a ≤ rank b := ⟨fun a b c => Nat.le_trans⟩
  have hsame : (l.filter fun a => rank a = n).Pairwise fun a b => rank a ≤ rank b := by
    apply List.pairwise_of_forall_mem_list
    intro a ha b hb
    rw [of_decide_eq_true (List.mem_filter.mp ha).2, of_decide_eq_true (List.mem_filter.mp hb).2]
  have hsub := (List.sublist_insertionSort hsame List.filter_sublist).filter fun a => rank a = n
  simp only [List.filter_filter, Bool.and_self] at hsub
  exact (hsub.eq_of_length ((upwards_perm rank l).symm.filter _).length_eq).symm

lemma map_upwards {β : Type} {rank' : β → ℕ} (f : α → β) (h : ∀ a, rank' (f a) = rank a) (l : List α) :
    upwards rank' (l.map f) = (upwards rank l).map f := by
  refine (List.map_insertionSort _ _ f l fun a _ b _ => ?_).symm
  rw [h, h]

lemma map_downwards {β : Type} {rank' : β → ℕ} (f : α → β) (h : ∀ a, rank' (f a) = rank a) (l : List α) :
    downwards rank' (l.map f) = (downwards rank l).map f := by
  refine (List.map_insertionSort _ _ f l fun a _ b _ => ?_).symm
  rw [h, h]

end Supercodex.Ranking
