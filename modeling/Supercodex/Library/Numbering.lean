import Mathlib.Data.List.Nodup

/-!
# Names drawn from a counter

Groups of names are kept in order. Some names are drawn from a counter for the newest group, others
come from outside and may join any group. When the newest groups are dropped, the counter starts again
behind the number of names that are left. Every drawn name has a number no larger than the count of
names up to its own group, and so the names stay different.
-/

namespace Supercodex.Numbering

variable {ι : Type}

/-- The groups have different names, and the counter is ahead of the names drawn from it. -/
structure Numbered (draw : ℕ → ι) (groups : List (List ι)) (next : ℕ) : Prop where
  nodup : groups.flatten.Nodup
  below : ∀ n, draw n ∈ groups.flatten → n < next
  early : ∀ k n, draw n ∈ (groups.take k).flatten → n ≤ (groups.take k).flatten.length
  next_le : next ≤ groups.flatten.length + 1

variable {draw : ℕ → ι} {groups before after : List (List ι)} {group : List ι} {next : ℕ}

lemma Numbered.nil : Numbered draw [] 1 :=
  ⟨by simp, by simp, by simp, by simp⟩

lemma Numbered.open (h : Numbered draw groups next) : Numbered draw (groups ++ [[]]) next := by
  have hflat : (groups ++ [[]]).flatten = groups.flatten := by simp
  have htake : ∀ k, ((groups ++ [[]]).take k).flatten = (groups.take k).flatten := by
    intro k
    rw [List.take_append, List.flatten_append]
    cases k - groups.length <;> simp
  refine ⟨by rw [hflat]; exact h.nodup, by rw [hflat]; exact h.below, ?_,
    by rw [hflat]; exact h.next_le⟩
  intro k n
  rw [htake]
  exact h.early k n

lemma take_change (before after : List (List ι)) (group group' : List ι) (k : ℕ) :
    (before ++ group :: after).take k = before.take k ∧
        (before ++ group' :: after).take k = before.take k ∨
      ∃ rest, (before ++ group :: after).take k = before ++ group :: rest ∧
        (before ++ group' :: after).take k = before ++ group' :: rest := by
  by_cases hk : k ≤ before.length
  · left
    rw [List.take_append_of_le_length hk, List.take_append_of_le_length hk]
    exact ⟨rfl, rfl⟩
  · right
    obtain ⟨m, hm⟩ : ∃ m, k = before.length + (m + 1) := ⟨k - before.length - 1, by omega⟩
    refine ⟨after.take m, ?_⟩
    rw [hm, List.take_length_add_append, List.take_length_add_append]
    exact ⟨rfl, rfl⟩

lemma flatten_snoc_perm (before after : List (List ι)) (group : List ι) (name : ι) :
    (before ++ (group ++ [name]) :: after).flatten.Perm
      (name :: (before ++ group :: after).flatten) := by
  simp only [List.flatten_append, List.flatten_cons, List.append_assoc, List.singleton_append]
  rw [← List.append_assoc, ← List.append_assoc]
  exact List.perm_middle

/-- A name from outside that is not in use may join any group. -/
lemma Numbered.join (h : Numbered draw (before ++ group :: after) next) {name : ι}
    (hnew : name ∉ (before ++ group :: after).flatten) (hdraw : ∀ n, name ≠ draw n) :
    Numbered draw (before ++ (group ++ [name]) :: after) next := by
  have hperm := flatten_snoc_perm before after group name
  refine ⟨?_, ?_, ?_, ?_⟩
  · rw [hperm.nodup_iff]
    exact List.nodup_cons.mpr ⟨hnew, h.nodup⟩
  · intro n hn
    rw [hperm.mem_iff] at hn
    exact h.below n ((List.mem_cons.mp hn).resolve_left fun heq => hdraw n heq.symm)
  · intro k n hn
    have hearly := h.early k n
    rcases take_change before after group (group ++ [name]) k with ⟨hold, hchanged⟩ |
      ⟨rest, hold, hchanged⟩
    · rw [hchanged] at hn ⊢
      rw [hold] at hearly
      exact hearly hn
    · have hrest := flatten_snoc_perm before rest group name
      rw [hchanged, hrest.mem_iff] at hn
      rw [hold] at hearly
      have := hearly ((List.mem_cons.mp hn).resolve_left fun heq => hdraw n heq.symm)
      rw [hchanged, hrest.length_eq, List.length_cons]
      omega
  · have := h.next_le
    rw [hperm.length_eq, List.length_cons]
    omega

/-- The next name of the counter joins the newest group. -/
lemma Numbered.drawNext (hinj : Function.Injective draw)
    (h : Numbered draw (before ++ [group]) next) :
    Numbered draw (before ++ [group ++ [draw next]]) (next + 1) := by
  have hperm := flatten_snoc_perm before [] group (draw next)
  have hnext := h.next_le
  have hlength := hperm.length_eq
  rw [List.length_cons] at hlength
  refine ⟨?_, ?_, ?_, by omega⟩
  · rw [hperm.nodup_iff]
    exact List.nodup_cons.mpr ⟨fun hin => Nat.lt_irrefl next (h.below next hin), h.nodup⟩
  · intro n hn
    rw [hperm.mem_iff] at hn
    rcases List.mem_cons.mp hn with heq | hold
    · rw [hinj heq]
      exact Nat.lt_succ_self next
    · have := h.below n hold
      omega
  · intro k n hn
    have hearly := h.early k n
    rcases take_change before [] group (group ++ [draw next]) k with ⟨hold, hchanged⟩ |
      ⟨rest, hold, hchanged⟩
    · rw [hchanged] at hn ⊢
      rw [hold] at hearly
      exact hearly hn
    · -- the newest group is among them, so these are all names
      have hrest : rest = [] := by
        have := congrArg List.length hold
        rw [List.length_take, List.length_append, List.length_append] at this
        simp only [List.length_cons, List.length_nil] at this
        exact List.length_eq_zero_iff.mp (by omega)
      subst hrest
      rw [hchanged, hperm.mem_iff] at hn
      rw [hchanged]
      rcases List.mem_cons.mp hn with heq | hin
      · rw [hinj heq]
        omega
      · rw [hold] at hearly
        have := hearly hin
        omega

lemma Numbered.truncate (h : Numbered draw groups next) (k : ℕ) :
    Numbered draw (groups.take k) ((groups.take k).flatten.length + 1) := by
  refine ⟨?_, ?_, ?_, Nat.le_refl _⟩
  · have hnodup := h.nodup
    rw [← List.take_append_drop k groups, List.flatten_append] at hnodup
    exact hnodup.of_append_left
  · intro n hn
    have := h.early k n hn
    omega
  · intro j n
    rw [List.take_take]
    exact h.early _ n

end Supercodex.Numbering
