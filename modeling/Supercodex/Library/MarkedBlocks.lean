import Mathlib.Data.List.DropRight
import Mathlib.Data.List.Infix

/-!
# Dropping the last blocks of a list

Some elements of a list are marks, and a block goes from a mark to the next one. Dropping the last blocks
cuts the list before a mark, and takes back elements right before the cut that only lead up to the mark. One
block after the other or all at once, the same is left.
-/

namespace Supercodex.MarkedBlocks

variable {α : Type}

/-- The elements before the mark with a number. -/
def beforeMark (mark : α → Bool) : ℕ → List α → List α
  | _, [] => []
  | 0, a :: l => if mark a then [] else a :: beforeMark mark 0 l
  | j + 1, a :: l => a :: beforeMark mark (if mark a then j else j + 1) l

/-- Drop the last blocks. Before the first mark nothing is taken back. -/
def dropBlocks (mark leading : α → Bool) (n : ℕ) (l : List α) : List α :=
  if n = 0 ∨ l.countP mark = 0 then l
  else if l.countP mark ≤ n then beforeMark mark 0 l
  else (beforeMark mark (l.countP mark - n) l).rdropWhile leading

variable {mark leading : α → Bool} {i j m n : ℕ} {a : α} {l l' : List α}

/-! ## Before a mark -/

lemma beforeMark_initial (j : ℕ) (l : List α) : beforeMark mark j l <+: l := by
  induction l generalizing j with
  | nil => exact List.nil_prefix
  | cons a l ih =>
    cases j with
    | zero =>
      rw [beforeMark]
      split
      · exact List.nil_prefix
      · exact (List.cons_prefix_cons).mpr ⟨rfl, ih 0⟩
    | succ j => exact (List.cons_prefix_cons).mpr ⟨rfl, ih _⟩

lemma countP_beforeMark (h : j ≤ l.countP mark) : (beforeMark mark j l).countP mark = j := by
  induction l generalizing j with
  | nil =>
    rw [List.countP_nil] at h
    rw [beforeMark, List.countP_nil]
    omega
  | cons a l ih =>
    rw [List.countP_cons] at h
    cases j with
    | zero =>
      rw [beforeMark]
      split
      · rfl
      · rename_i ha
        rw [List.countP_cons_of_neg ha, ih (Nat.zero_le _)]
    | succ j =>
      rw [beforeMark, List.countP_cons]
      cases ha : mark a with
      | true =>
        rw [ha, if_pos rfl] at h
        rw [if_pos rfl, if_pos rfl, ih (by omega)]
      | false =>
        rw [ha, if_neg Bool.false_ne_true] at h
        rw [if_neg Bool.false_ne_true, if_neg Bool.false_ne_true, ih (by omega)]

/-- The elements before a mark are those of any beginning of the list with that mark. -/
lemma beforeMark_of_initial (h : l' <+: l) (hj : j < l'.countP mark) :
    beforeMark mark j l' = beforeMark mark j l := by
  induction l' generalizing j l with
  | nil =>
    rw [List.countP_nil] at hj
    omega
  | cons a l' ih =>
    obtain ⟨rest, rfl⟩ := h
    have hinitial : l' <+: l' ++ rest := List.prefix_append _ _
    rw [List.countP_cons] at hj
    rw [List.cons_append]
    cases j with
    | zero =>
      rw [beforeMark, beforeMark]
      split
      · rfl
      · rename_i ha
        rw [if_neg ha] at hj
        rw [ih hinitial hj]
    | succ j =>
      rw [beforeMark, beforeMark]
      cases ha : mark a with
      | true =>
        rw [ha, if_pos rfl] at hj
        rw [if_pos rfl, ih hinitial (by omega)]
      | false =>
        rw [ha, if_neg Bool.false_ne_true] at hj
        rw [if_neg Bool.false_ne_true, ih hinitial (by omega)]

lemma beforeMark_zero (l : List α) : beforeMark mark 0 l = l.takeWhile fun a => !mark a := by
  induction l with
  | nil => rfl
  | cons a l ih =>
    rw [List.takeWhile_cons, beforeMark, ih]
    cases mark a <;> rfl

lemma length_beforeMark_lt (hij : i < j) (hj : j ≤ l.countP mark) :
    (beforeMark mark i l).length < (beforeMark mark j l).length := by
  have hcount := countP_beforeMark hj
  have hwithin : beforeMark mark i l <+: beforeMark mark j l := by
    have hlater : i < (beforeMark mark j l).countP mark := by omega
    rw [← beforeMark_of_initial (beforeMark_initial j l) hlater]
    exact beforeMark_initial i _
  by_contra hlength
  have hequal := hwithin.eq_of_length_le (Nat.le_of_not_lt hlength)
  rw [← hequal, countP_beforeMark (by omega)] at hcount
  omega

lemma getElem?_length_beforeMark (hj : j < l.countP mark) :
    ∃ a, l[(beforeMark mark j l).length]? = some a ∧ mark a = true := by
  induction l generalizing j with
  | nil => cases hj
  | cons a l ih =>
    rw [List.countP_cons] at hj
    cases ha : mark a with
    | true =>
      rw [ha, if_pos rfl] at hj
      cases j with
      | zero => exact ⟨a, by rw [beforeMark, if_pos ha]; rfl, ha⟩
      | succ j =>
        rw [beforeMark, if_pos ha]
        exact ih (by omega)
    | false =>
      have hnot : ¬mark a = true := by rw [ha]; exact Bool.false_ne_true
      rw [if_neg hnot] at hj
      cases j with
      | zero | succ j =>
        rw [beforeMark, if_neg hnot]
        exact ih hj

lemma getElem?_positions (mark : α → Bool) (start j : ℕ) (l : List α) :
    (((l.zipIdx start).filter fun entry => mark entry.1).map Prod.snd)[j]? =
      if j < l.countP mark then some (start + (beforeMark mark j l).length) else none := by
  induction l generalizing start j with
  | nil => rfl
  | cons a l ih =>
    rw [List.zipIdx_cons, List.countP_cons, List.filter_cons]
    cases ha : mark a with
    | true =>
      rw [if_pos rfl, List.map_cons, if_pos rfl]
      cases j with
      | zero =>
        rw [List.getElem?_cons_zero, if_pos (Nat.succ_pos _), beforeMark, if_pos ha]
        rfl
      | succ j =>
        rw [List.getElem?_cons_succ, ih, beforeMark, if_pos ha, List.length_cons]
        simp only [Nat.add_lt_add_iff_right, Nat.add_assoc, Nat.add_comm 1]
    | false =>
      have hskip : beforeMark mark j (a :: l) = a :: beforeMark mark j l := by
        cases j with
        | zero | succ j => rw [beforeMark, if_neg (by rw [ha]; exact Bool.false_ne_true)]
      rw [if_neg Bool.false_ne_true, ih, hskip, List.length_cons]
      simp only [Bool.false_eq_true, if_false, Nat.add_zero, Nat.add_assoc, Nat.add_comm 1]

lemma length_positions (mark : α → Bool) (start : ℕ) (l : List α) :
    (((l.zipIdx start).filter fun entry => mark entry.1).map Prod.snd).length = l.countP mark := by
  have hall : (l.zipIdx start).map Prod.fst = l := List.zipIdx_map_fst start l
  conv_rhs => rw [← hall, List.countP_map]
  rw [List.length_map, ← List.countP_eq_length_filter]
  rfl

/-! ## Taking back -/

lemma countP_rdropWhile (hleading : ∀ a, leading a = true → mark a = false) (l : List α) :
    (l.rdropWhile leading).countP mark = l.countP mark := by
  induction l using List.reverseRecOn with
  | nil => rfl
  | append_singleton l a ih =>
    cases ha : leading a with
    | true => rw [List.rdropWhile_concat_pos _ _ _ ha, ih, List.countP_append, List.countP_singleton, hleading a ha]; rfl
    | false => rw [List.rdropWhile_concat_neg _ _ _ (by rw [ha]; exact Bool.false_ne_true)]

/-! ## Dropping blocks -/

lemma dropBlocks_zero (l : List α) : dropBlocks mark leading 0 l = l := if_pos (.inl rfl)

lemma dropBlocks_of_no_mark (h : l.countP mark = 0) (n : ℕ) : dropBlocks mark leading n l = l := if_pos (.inr h)

lemma dropBlocks_of_le (hn : 0 < n) (h : l.countP mark ≤ n) : dropBlocks mark leading n l = beforeMark mark 0 l := by
  by_cases hcount : l.countP mark = 0
  · have hall : ∀ a ∈ l, (!mark a) = true := by
      simpa [List.countP_eq_zero] using hcount
    rw [dropBlocks_of_no_mark hcount, beforeMark_zero, List.takeWhile_eq_self_iff.mpr hall]
  · rw [dropBlocks, if_neg (by omega), if_pos h]

lemma dropBlocks_of_lt (hn : 0 < n) (h : n < l.countP mark) :
    dropBlocks mark leading n l = (beforeMark mark (l.countP mark - n) l).rdropWhile leading := by
  rw [dropBlocks, if_neg (by omega), if_neg (by omega)]

lemma dropBlocks_initial (n : ℕ) (l : List α) : dropBlocks mark leading n l <+: l := by
  unfold dropBlocks
  split
  · exact List.prefix_refl l
  split
  · exact beforeMark_initial 0 l
  · exact (List.rdropWhile_prefix leading _).trans (beforeMark_initial _ l)

section

variable (hleading : ∀ a, leading a = true → mark a = false)
include hleading

lemma countP_dropBlocks (n : ℕ) (l : List α) :
    (dropBlocks mark leading n l).countP mark = l.countP mark - n := by
  unfold dropBlocks
  split
  · omega
  split
  · rw [countP_beforeMark (Nat.zero_le _)]
    omega
  · rw [countP_rdropWhile hleading, countP_beforeMark (Nat.sub_le _ _)]

lemma takeWhile_dropBlocks (n : ℕ) (l : List α) :
    l.takeWhile (fun a => !mark a) <+: dropBlocks mark leading n l := by
  obtain rfl | hn := Nat.eq_zero_or_pos n
  · rw [dropBlocks_zero]
    exact List.takeWhile_prefix _
  rw [← beforeMark_zero]
  by_cases hall : l.countP mark ≤ n
  · rw [dropBlocks_of_le hn hall]
  have hcount := countP_dropBlocks hleading n l
  have hleft : 0 < (dropBlocks mark leading n l).countP mark := by omega
  rw [← beforeMark_of_initial (dropBlocks_initial n l) hleft]
  exact beforeMark_initial 0 _

/-- Two drops in a row are one drop of all their blocks. -/
theorem dropBlocks_dropBlocks (m n : ℕ) (l : List α) :
    dropBlocks mark leading n (dropBlocks mark leading m l) = dropBlocks mark leading (m + n) l := by
  obtain rfl | hm := Nat.eq_zero_or_pos m
  · rw [dropBlocks_zero, Nat.zero_add]
  obtain rfl | hn := Nat.eq_zero_or_pos n
  · rw [dropBlocks_zero, Nat.add_zero]
  have hcount := countP_dropBlocks hleading m l
  have hinitial : dropBlocks mark leading m l <+: l := dropBlocks_initial m l
  by_cases hall : l.countP mark ≤ m
  · -- the first drop leaves no mark
    rw [dropBlocks_of_no_mark (by omega), dropBlocks_of_le hm hall, dropBlocks_of_le (by omega) (by omega)]
  by_cases hrest : l.countP mark ≤ m + n
  · rw [dropBlocks_of_le hn (by omega), beforeMark_of_initial hinitial (by omega),
      dropBlocks_of_le (by omega) hrest]
  · rw [dropBlocks_of_lt hn (by omega), beforeMark_of_initial hinitial (by omega), hcount,
      dropBlocks_of_lt (by omega) (by omega), Nat.sub_sub]

end

end Supercodex.MarkedBlocks
