import Mathlib.Data.List.AList

/-!
# Counting the entries of a map

How many values of a finite map meet a test, and how the number changes when an entry is written or
erased.
-/

namespace Supercodex.EntryCount

variable {α β : Type} (p : β → Bool)

/-- The number of entries whose value meets the test. -/
def count (s : AList fun _ : α => β) : ℕ := s.entries.countP fun entry => p entry.2

/-- What one entry, if there is one, adds to the count. -/
def weight : Option β → ℕ
  | some value => (p value).toNat
  | none => 0

@[simp] lemma weight_none : weight p none = 0 := rfl

@[simp] lemma weight_some (value : β) : weight p (some value) = (p value).toNat := rfl

variable [DecidableEq α]

lemma lookup_insert_eq (key key' : α) (value : β) (s : AList fun _ : α => β) :
    (s.insert key value).lookup key' = if key' = key then some value else s.lookup key' := by
  split
  · rename_i hkey
    rw [hkey, AList.lookup_insert]
  · exact AList.lookup_insert_ne ‹_›

lemma lookup_erase_eq (key key' : α) (s : AList fun _ : α => β) :
    (s.erase key).lookup key' = if key' = key then none else s.lookup key' := by
  split
  · rename_i hkey
    rw [hkey, AList.lookup_erase]
  · exact AList.lookup_erase_ne ‹_›

lemma countP_kerase (key : α) (l : List (Σ _ : α, β)) :
    (l.kerase key).countP (fun entry => p entry.2) + weight p (l.dlookup key) =
      l.countP fun entry => p entry.2 := by
  induction l with
  | nil => rfl
  | cons entry l ih =>
    obtain ⟨key', value⟩ := entry
    by_cases hkey : key = key'
    · subst hkey
      have hkerase : List.kerase key (⟨key, value⟩ :: l : List (Σ _ : α, β)) = l :=
        List.kerase_cons_eq rfl
      rw [hkerase, List.dlookup_cons_eq, List.countP_cons, weight_some]
      cases p value <;> rfl
    · rw [List.kerase_cons_ne hkey, List.dlookup_cons_ne _ _ hkey, List.countP_cons,
        List.countP_cons]
      omega

lemma count_erase (key : α) (s : AList fun _ : α => β) :
    count p (s.erase key) + weight p (s.lookup key) = count p s :=
  countP_kerase p key s.entries

lemma count_insert (key : α) (value : β) (s : AList fun _ : α => β) :
    count p (s.insert key value) + weight p (s.lookup key) = count p s + (p value).toNat := by
  have hkerase := countP_kerase p key s.entries
  have hinsert : count p (s.insert key value) =
      (s.entries.kerase key).countP (fun entry => p entry.2) + (p value).toNat := by
    unfold count
    rw [AList.entries_insert, List.countP_cons]
    cases p value <;> rfl
  unfold count AList.lookup at *
  omega

end Supercodex.EntryCount
