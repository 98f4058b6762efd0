import Mathlib.Data.List.Sort
import Mathlib.Data.List.Lex
import Mathlib.Data.Prod.Lex

/-!
# Sorted lists that show a tree

The elements of a tree are listed in the order of a key and shown with their depth only, so that an element
seems to lie below the last element before it that is less deep. The list shows the tree, however equal
keys are ordered, exactly if no less deep element can come between an element and its parent.
-/

namespace Supercodex.Nesting

variable {α κ : Type} [LinearOrder κ] (key : α → κ) (depth : α → ℕ) (parentOf : α → α → Prop)

/-- Each element that is not on top comes after its parent, and no less deep element is between them. -/
def Nested (l : List α) : Prop :=
  ∀ before a after, l = before ++ a :: after → 0 < depth a →
    ∃ outer parent between, before = outer ++ parent :: between ∧ parentOf parent a ∧
      ∀ b ∈ between, depth a ≤ depth b

/-- The key of a parent comes before the one of its child, and no other less deep element has a key
between them. -/
def Apart (l : List α) : Prop :=
  ∀ parent ∈ l, ∀ a ∈ l, 0 < depth a → parentOf parent a → key parent < key a ∧
    ∀ b ∈ l, b ≠ parent → depth b < depth a → ¬(key parent ≤ key b ∧ key b ≤ key a)

instance [DecidableEq α] [DecidableRel parentOf] (l : List α) : Decidable (Apart key depth parentOf l) :=
  inferInstanceAs (Decidable (∀ parent ∈ l, ∀ a ∈ l, 0 < depth a → parentOf parent a → key parent < key a ∧
    ∀ b ∈ l, b ≠ parent → depth b < depth a → ¬(key parent ≤ key b ∧ key b ≤ key a)))

/-- Sorted by a key, and by a rank where keys are equal. -/
def sortRanked (rank : α → ℕ) (l : List α) : List α :=
  l.insertionSort fun a b => toLex (key a, rank a) ≤ toLex (key b, rank b)

variable {key depth parentOf} {l sorted : List α}

/-- A sorted list of elements that are apart shows the tree. -/
theorem nested_of_apart (hperm : sorted.Perm l) (hsorted : sorted.Pairwise fun a b => key a ≤ key b)
    (hnodup : l.Nodup) (hparent : ∀ a ∈ l, 0 < depth a → ∃ parent ∈ l, parentOf parent a)
    (hapart : Apart key depth parentOf l) : Nested depth parentOf sorted := by
  intro before a after hparts hdepth
  rw [hparts] at hperm hsorted
  have ha : a ∈ l := hperm.subset (by simp)
  obtain ⟨parent, hmem, hparentOf⟩ := hparent a ha hdepth
  obtain ⟨hlt, hbetween⟩ := hapart parent hmem a ha hdepth hparentOf
  obtain ⟨-, hafter, hbefore⟩ := List.pairwise_append.mp hsorted
  -- the parent does not come after its child
  have hparentBefore : parent ∈ before := by
    rcases List.mem_append.mp (hperm.symm.subset hmem) with h | h
    · exact h
    exfalso
    rcases List.mem_cons.mp h with rfl | h
    · exact lt_irrefl _ hlt
    · exact absurd ((List.pairwise_cons.mp hafter).1 parent h) (not_le.mpr hlt)
  obtain ⟨outer, between, rfl⟩ := List.append_of_mem hparentBefore
  refine ⟨outer, parent, between, rfl, hparentOf, fun b hb => ?_⟩
  by_contra hdeep
  have hnodup' := (hperm.nodup_iff).mpr hnodup
  have hne : b ≠ parent := by
    rintro rfl
    have hinner := (List.nodup_append.mp (List.nodup_append.mp hnodup').1).2.1
    exact (List.nodup_cons.mp hinner).1 hb
  refine hbetween b (hperm.subset (by simp [hb])) hne (not_le.mp hdeep) ⟨?_, ?_⟩
  · have hinner := (List.pairwise_append.mp (List.pairwise_append.mp hsorted).1).2.1
    exact (List.pairwise_cons.mp hinner).1 b hb
  · exact hbefore b (by simp [hb]) a List.mem_cons_self

variable (key) in
lemma sortRanked_perm (rank : α → ℕ) (l : List α) : (sortRanked key rank l).Perm l :=
  List.perm_insertionSort _ l

variable (key) in
lemma pairwise_sortRanked (rank : α → ℕ) (l : List α) :
    (sortRanked key rank l).Pairwise fun a b => toLex (key a, rank a) ≤ toLex (key b, rank b) := by
  have htotal : Std.Total fun a b : α => toLex (key a, rank a) ≤ toLex (key b, rank b) :=
    ⟨fun a b => le_total ..⟩
  have htrans : IsTrans α fun a b => toLex (key a, rank a) ≤ toLex (key b, rank b) :=
    ⟨fun a b c => le_trans⟩
  exact List.pairwise_insertionSort _ l

lemma pairwise_key_sortRanked (rank : α → ℕ) (l : List α) :
    (sortRanked key rank l).Pairwise fun a b => key a ≤ key b :=
  (pairwise_sortRanked key rank l).imp fun h => (Prod.Lex.toLex_le_toLex.mp h).elim le_of_lt fun h => h.1.le

lemma rank_of_before {rank : α → ℕ} {before after : List α} {a b : α}
    (hparts : sortRanked key rank l = before ++ a :: after) (hb : b ∈ before) :
    key b < key a ∨ key b = key a ∧ rank b ≤ rank a := by
  have hsorted := pairwise_sortRanked key rank l
  rw [hparts] at hsorted
  exact Prod.Lex.toLex_le_toLex.mp ((List.pairwise_append.mp hsorted).2.2 b hb a List.mem_cons_self)

/-- If every sorted list shows the tree, the elements are apart. -/
theorem apart_of_nested [DecidableEq α] (hunique : ∀ parent ∈ l, ∀ parent' ∈ l, ∀ a ∈ l, parentOf parent a →
      parentOf parent' a → parent = parent') (hirrefl : ∀ a ∈ l, ¬parentOf a a)
    (hnested : ∀ sorted : List α, sorted.Perm l → (sorted.Pairwise fun a b => key a ≤ key b) →
      Nested depth parentOf sorted) : Apart key depth parentOf l := by
  intro parent hparent a ha hdepth hparentOf
  have hpa : parent ≠ a := fun h => hirrefl a ha (h ▸ hparentOf)
  -- where the parent stands in a sorted list
  have hplace : ∀ rank, ∃ outer between after,
      sortRanked key rank l = outer ++ parent :: between ++ a :: after ∧ ∀ b ∈ between, depth a ≤ depth b := by
    intro rank
    have hmem := (sortRanked_perm key rank l).symm.subset ha
    obtain ⟨before, after, hparts⟩ := List.append_of_mem hmem
    obtain ⟨outer, parent', between, rfl, hparentOf', hbetween⟩ :=
      hnested _ (sortRanked_perm key rank l) (pairwise_key_sortRanked rank l) before a after hparts hdepth
    have hparent' : parent' ∈ l := (sortRanked_perm key rank l).subset (by rw [hparts]; simp)
    obtain rfl := hunique parent' hparent' parent hparent a ha hparentOf' hparentOf
    exact ⟨outer, between, after, hparts, hbetween⟩
  constructor
  · -- ranked behind its child, the parent still comes first
    obtain ⟨rank, hparentRank, haRank⟩ : ∃ rank : α → ℕ, rank parent = 1 ∧ rank a = 0 :=
      ⟨fun b => if b = a then 0 else 1, if_neg hpa, if_pos rfl⟩
    obtain ⟨outer, between, after, hparts, -⟩ := hplace rank
    rcases rank_of_before hparts (b := parent) (by simp) with hlt | ⟨-, hrank⟩
    · exact hlt
    · omega
  · rintro b hb hne hshallow ⟨hle, hle'⟩
    have hba : b ≠ a := fun h => lt_irrefl _ (h ▸ hshallow)
    -- the parent, the element and the child are ranked in this order
    obtain ⟨rank, hparentRank, hbRank, haRank⟩ :
        ∃ rank : α → ℕ, rank parent = 0 ∧ rank b = 1 ∧ rank a = 2 :=
      ⟨fun c => if c = parent then 0 else if c = b then 1 else 2, by simp, by simp [hne], by simp [hpa.symm, hba.symm]⟩
    obtain ⟨outer, between, after, hparts, hbetween⟩ := hplace rank
    have hmem := (sortRanked_perm key rank l).symm.subset hb
    rw [hparts] at hmem
    simp only [List.mem_append, List.mem_cons] at hmem
    rcases hmem with (houter | rfl | hin) | rfl | hafter
    · rw [List.append_assoc] at hparts
      rcases rank_of_before hparts houter with hlt | ⟨-, hrank⟩
      · exact absurd hle (not_le.mpr hlt)
      · omega
    · exact hne rfl
    · exact absurd (hbetween b hin) (not_le.mpr hshallow)
    · exact hba rfl
    · obtain ⟨mid, rest, rfl⟩ := List.append_of_mem hafter
      have hparts' : sortRanked key rank l = (outer ++ parent :: between ++ a :: mid) ++ b :: rest := by
        rw [hparts]
        simp
      rcases rank_of_before hparts' (b := a) (by simp) with hlt | ⟨-, hrank⟩
      · exact absurd hle' (not_le.mpr hlt)
      · omega

end Supercodex.Nesting
