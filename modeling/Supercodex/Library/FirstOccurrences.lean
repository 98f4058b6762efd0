import Mathlib.Data.List.Nodup
import Mathlib.Data.List.Infix

/-!
# First occurrences

The list of the first occurrences in a list, in order. How it splits over appended lists says where
an entry may be moved or repeated without a change.
-/

namespace Supercodex

variable {α : Type} [BEq α] [LawfulBEq α]

/-- The first occurrence of each element stays. -/
def firstOccurrences (xs : List α) : List α :=
  xs.foldl (fun seen x => if x ∈ seen then seen else seen ++ [x]) []

namespace FirstOccurrences

variable {x : α} {xs ys zs : List α} {p : α → Bool}

lemma concat_eq (xs : List α) (x : α) :
    firstOccurrences (xs ++ [x]) =
      if x ∈ firstOccurrences xs then firstOccurrences xs else firstOccurrences xs ++ [x] := by
  conv_lhs => rw [firstOccurrences, List.foldl_concat]
  rfl

@[simp] lemma mem_iff : x ∈ firstOccurrences xs ↔ x ∈ xs := by
  induction xs using List.reverseRecOn with
  | nil => rfl
  | append_singleton xs y ih =>
    rw [concat_eq, List.mem_append, List.mem_singleton]
    split
    · rename_i hy
      constructor
      · intro h
        exact .inl (ih.mp h)
      · rintro (h | rfl)
        · exact ih.mpr h
        · exact hy
    · rw [List.mem_append, List.mem_singleton, ih]

lemma nodup (xs : List α) : (firstOccurrences xs).Nodup := by
  induction xs using List.reverseRecOn with
  | nil => exact List.nodup_nil
  | append_singleton xs y ih =>
    rw [concat_eq]
    split
    · exact ih
    · rename_i hy
      rw [← List.concat_eq_append]
      exact ih.concat hy

lemma append_eq (xs ys : List α) :
    firstOccurrences (xs ++ ys) =
      firstOccurrences xs ++ (firstOccurrences ys).filter (· ∉ xs) := by
  induction ys using List.reverseRecOn with
  | nil => simp [firstOccurrences]
  | append_singleton ys y ih =>
    rw [← List.append_assoc, concat_eq, concat_eq, ih]
    by_cases hxs : y ∈ xs
    · have hin : y ∈ firstOccurrences xs ++ (firstOccurrences ys).filter (· ∉ xs) := by simp [hxs]
      rw [if_pos hin]
      split
      · rfl
      · simp [List.filter_append, hxs]
    · by_cases hys : y ∈ ys
      · have hin : y ∈ firstOccurrences xs ++ (firstOccurrences ys).filter (· ∉ xs) := by
          simp [hxs, hys]
        rw [if_pos hin, if_pos (mem_iff.mpr hys)]
      · have hnin : y ∉ firstOccurrences xs ++ (firstOccurrences ys).filter (· ∉ xs) := by
          simp [hxs, hys]
        rw [if_neg hnin, if_neg (by simpa using hys), List.filter_append, ← List.append_assoc]
        simp [hxs]

lemma filter_eq (xs : List α) :
    firstOccurrences (xs.filter p) = (firstOccurrences xs).filter p := by
  induction xs using List.reverseRecOn with
  | nil => rfl
  | append_singleton xs y ih =>
    rw [List.filter_append, append_eq, ih, append_eq xs, List.filter_append]
    by_cases hp : p y = true
    · by_cases hy : y ∈ xs <;> simp [hp, hy, firstOccurrences]
    · by_cases hy : y ∈ xs <;> simp [hp, hy, firstOccurrences]

lemma eq_of_nodup (h : xs.Nodup) : firstOccurrences xs = xs := by
  induction xs using List.reverseRecOn with
  | nil => rfl
  | append_singleton xs y ih =>
    obtain ⟨hxs, -, hdisjoint⟩ := List.nodup_append.mp h
    have hy : y ∉ xs := fun hmem => hdisjoint y hmem y (List.mem_singleton_self y) rfl
    rw [concat_eq, ih hxs, if_neg hy]

lemma append_congr (h : ys.filter (· ∉ xs) = zs.filter (· ∉ xs)) :
    firstOccurrences (xs ++ ys) = firstOccurrences (xs ++ zs) := by
  rw [append_eq, append_eq, ← filter_eq, ← filter_eq, h]

lemma append_left_congr (h : firstOccurrences xs = firstOccurrences ys) :
    firstOccurrences (xs ++ zs) = firstOccurrences (ys ++ zs) := by
  have hmem : ∀ x, x ∈ xs ↔ x ∈ ys := by
    intro x
    have hmem : x ∈ firstOccurrences xs ↔ x ∈ firstOccurrences ys := by rw [h]
    rwa [mem_iff, mem_iff] at hmem
  rw [append_eq, append_eq, h]
  congr 1
  exact List.filter_congr fun x _ => by simp [hmem x]

lemma idem (xs : List α) : firstOccurrences (firstOccurrences xs) = firstOccurrences xs :=
  eq_of_nodup (nodup xs)

lemma append_right_congr (h : firstOccurrences ys = firstOccurrences zs) :
    firstOccurrences (xs ++ ys) = firstOccurrences (xs ++ zs) := by
  rw [append_eq, append_eq, h]

lemma move_front_iff (h : xs.Nodup) : ys ++ xs.filter (· ∉ ys) = xs ↔ ys <+: xs := by
  constructor
  · intro heq
    exact ⟨_, heq⟩
  · rintro ⟨rest, rfl⟩
    obtain ⟨-, -, hdisjoint⟩ := List.nodup_append.mp h
    have hfront : ys.filter (· ∉ ys) = [] := by simp
    have hrest : rest.filter (· ∉ ys) = rest := by
      rw [List.filter_eq_self]
      intro x hx
      simpa using fun hy => hdisjoint x hy x hx rfl
    rw [List.filter_append, hfront, hrest, List.nil_append]

lemma insert_eq_iff (hnodup : ys.Nodup) (hnew : ∀ y ∈ ys, y ∉ xs) :
    firstOccurrences (xs ++ (ys ++ zs)) = firstOccurrences (xs ++ zs) ↔
      ys <+: (firstOccurrences zs).filter (· ∉ xs) := by
  have hys : ys.filter (· ∉ xs) = ys := by
    rw [List.filter_eq_self]
    intro y hy
    simpa using hnew y hy
  have hleft : firstOccurrences (xs ++ (ys ++ zs)) = firstOccurrences xs ++
      (ys ++ ((firstOccurrences zs).filter (· ∉ xs)).filter (· ∉ ys)) := by
    rw [append_eq, append_eq, eq_of_nodup hnodup, List.filter_append, hys, List.filter_filter,
      List.filter_filter]
    simp only [Bool.and_comm]
  rw [hleft, append_eq, List.append_cancel_left_eq]
  exact move_front_iff ((nodup zs).filter _)

lemma insert_filter_eq {ws : List α} (hnodup : ys.Nodup) (hnew : ∀ y ∈ ys, y ∉ xs)
    (hlead : ys <+: (firstOccurrences (ws ++ zs)).filter (· ∉ xs)) (hws : ∀ w ∈ ws, p w = false) :
    firstOccurrences ((xs ++ (ys ++ zs)).filter p) = firstOccurrences ((xs ++ zs).filter p) := by
  have hskip : (ws ++ zs).filter p = zs.filter p := by
    have hnone : ws.filter p = [] := by
      rw [List.filter_eq_nil_iff]
      intro w hw
      simp [hws w hw]
    rw [List.filter_append, hnone, List.nil_append]
  have hfilter : ((firstOccurrences (ws ++ zs)).filter (· ∉ xs)).filter p =
      (firstOccurrences (zs.filter p)).filter (· ∉ xs.filter p) := by
    rw [← hskip, filter_eq, List.filter_filter, List.filter_filter]
    apply List.filter_congr
    intro x _
    by_cases hp : p x = true <;> simp [hp]
  rw [List.filter_append, List.filter_append, List.filter_append]
  apply (insert_eq_iff (hnodup.filter p) _).mpr
  · rw [← hfilter]
    exact hlead.filter p
  · intro y hy hxs
    exact hnew y (List.mem_of_mem_filter hy) (List.mem_of_mem_filter hxs)

lemma append_eq_left (h : ∀ y ∈ ys, y ∈ xs) :
    firstOccurrences (xs ++ ys) = firstOccurrences xs := by
  have hnone : (firstOccurrences ys).filter (· ∉ xs) = [] := by
    rw [List.filter_eq_nil_iff]
    intro y hy
    simpa using h y (mem_iff.mp hy)
  rw [append_eq, hnone, List.append_nil]

lemma flatMap_eq {f : α → List α} (xs : List α) :
    firstOccurrences ((firstOccurrences xs).flatMap f) = firstOccurrences (xs.flatMap f) := by
  induction xs using List.reverseRecOn with
  | nil => rfl
  | append_singleton xs x ih =>
    rw [concat_eq, List.flatMap_append, List.flatMap_singleton]
    split
    · rename_i hx
      rw [ih, append_eq_left]
      intro y hy
      exact List.mem_flatMap.mpr ⟨x, mem_iff.mp hx, hy⟩
    · rw [List.flatMap_append, List.flatMap_singleton]
      exact append_left_congr ih

end FirstOccurrences

end Supercodex
