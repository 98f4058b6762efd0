import Mathlib.Data.List.Sort
import Mathlib.Data.List.Infix

/-!
# Splicing ranges of a list

Edits that follow one another in a list may be made all at once, or one by one from the last to the first:
each leaves what comes before it as it was. Edits that lie apart follow one another once they are sorted
by where they start.
-/

namespace Supercodex.Splice

variable {α : Type}

/-- New items for a range of a list. -/
structure Edit (α : Type) where
  start : ℕ
  length : ℕ
  items : List α

/-- The end of the range. -/
def Edit.stop (e : Edit α) : ℕ := e.start + e.length

/-- The list with one range replaced. -/
def replaceRange (e : Edit α) (l : List α) : List α := l.take e.start ++ e.items ++ l.drop e.stop

/-- The list from a position on with all ranges replaced at once. -/
def splice (l : List α) : ℕ → List (Edit α) → List α
  | pos, [] => l.drop pos
  | pos, e :: es => (l.take e.start).drop pos ++ e.items ++ splice l e.stop es

/-- What the edits leave of the list from a position on. -/
def untouched (l : List α) : ℕ → List (Edit α) → List α
  | pos, [] => l.drop pos
  | pos, e :: es => (l.take e.start).drop pos ++ untouched l e.stop es

/-- The edits follow one another. -/
def Ordered (es : List (Edit α)) : Prop := es.Pairwise fun e e' => e.stop ≤ e'.start

variable {l : List α} {e : Edit α} {es : List (Edit α)} {pos : ℕ}

lemma splice_eq_take_append (hstart : ∀ e ∈ es, pos ≤ e.start) (hstop : ∀ e ∈ es, e.stop ≤ l.length)
    (hpos : pos ≤ l.length) {start : ℕ} (h : start ≤ pos) :
    splice l start es = (l.take pos).drop start ++ splice l pos es := by
  cases es with
  | nil =>
    rw [splice, splice]
    calc l.drop start = (l.take pos ++ l.drop pos).drop start := by rw [List.take_append_drop]
      _ = (l.take pos).drop start ++ l.drop pos := by
        rw [List.drop_append_of_le_length]
        rw [List.length_take]
        omega
  | cons e es =>
    have hle := hstart e List.mem_cons_self
    have hend : e.start ≤ l.length := (Nat.le_add_right _ _).trans (hstop e List.mem_cons_self)
    have hcut : (l.take e.start).drop start = (l.take pos).drop start ++ (l.take e.start).drop pos := by
      calc (l.take e.start).drop start = ((l.take e.start).take pos ++ (l.take e.start).drop pos).drop start := by
            rw [List.take_append_drop]
        _ = (l.take pos).drop start ++ (l.take e.start).drop pos := by
          rw [List.take_take, min_eq_left hle, List.drop_append_of_le_length]
          rw [List.length_take]
          omega
    rw [splice, splice, hcut, List.append_assoc, List.append_assoc, List.append_assoc]

/-- Edits that follow one another are made one by one, from the last to the first. -/
theorem foldr_replaceRange (hordered : Ordered es) (hstop : ∀ e ∈ es, e.stop ≤ l.length) :
    es.foldr replaceRange l = splice l 0 es := by
  induction es with
  | nil => rfl
  | cons e es ih =>
    obtain ⟨hfirst, hrest⟩ := List.pairwise_cons.mp hordered
    rw [List.forall_mem_cons] at hstop
    have hlength : (l.take e.stop).length = e.stop := by
      rw [List.length_take]
      exact min_eq_left hstop.1
    have hstart : e.start ≤ e.stop := Nat.le_add_right _ _
    rw [List.foldr_cons, ih hrest hstop.2, splice_eq_take_append hfirst hstop.2 hstop.1 (Nat.zero_le _), List.drop_zero,
      replaceRange, splice, List.drop_zero, List.take_append_of_le_length (by omega), List.take_take, min_eq_left hstart,
      List.drop_append_of_le_length hlength.ge, List.drop_eq_nil_of_le hlength.le, List.nil_append]

lemma splice_concat (hordered : Ordered (es ++ [e])) (l : List α) (pos : ℕ) :
    splice l pos (es ++ [e]) = splice (l.take e.start) pos es ++ e.items ++ l.drop e.stop := by
  induction es generalizing pos with
  | nil => rfl
  | cons first es ih =>
    rw [List.cons_append, Ordered, List.pairwise_cons] at hordered
    have hle : first.start ≤ e.start :=
      (Nat.le_add_right _ _).trans (hordered.1 e (List.mem_append_right _ List.mem_cons_self))
    rw [List.cons_append, splice, splice, ih hordered.2, List.take_take, min_eq_left hle]
    simp only [List.append_assoc]

/-- What no edit touches is kept, in order. -/
theorem untouched_sublist (l : List α) (pos : ℕ) (es : List (Edit α)) : (untouched l pos es).Sublist (splice l pos es) := by
  induction es generalizing pos with
  | nil => exact List.Sublist.refl _
  | cons e es ih =>
    rw [untouched, splice]
    exact (List.sublist_append_left _ _).append (ih e.stop)

/-- The new items of each edit are kept, side by side. -/
theorem items_infix (l : List α) (pos : ℕ) (h : e ∈ es) : e.items <:+: splice l pos es := by
  induction es generalizing pos with
  | nil => cases h
  | cons first es ih =>
    rw [splice]
    rcases List.mem_cons.mp h with rfl | h
    · exact List.infix_append _ _ _
    · exact (ih first.stop h).trans (List.suffix_append _ _).isInfix

/-! ## Sorting edits -/

/-- Two edits lie apart, the first one before the other, or after it and not where it starts. -/
def Apart (e e' : Edit α) : Prop := e.stop ≤ e'.start ∨ e'.stop ≤ e.start ∧ e'.start < e.start

/-- Edits that lie apart follow one another when they are sorted by where they start. -/
theorem ordered_insertionSort (h : es.Pairwise Apart) :
    Ordered (es.insertionSort fun e e' => e.start ≤ e'.start) := by
  induction es with
  | nil => exact List.Pairwise.nil
  | cons e es ih =>
    obtain ⟨hfirst, hrest⟩ := List.pairwise_cons.mp h
    have hsorted := ih hrest
    have hperm := List.perm_insertionSort (fun e e' : Edit α => e.start ≤ e'.start) es
    rw [List.insertionSort_cons]
    generalize es.insertionSort (fun e e' => e.start ≤ e'.start) = sorted at hsorted hperm
    have hapart : ∀ e' ∈ sorted, Apart e e' := fun e' he' => hfirst e' (hperm.subset he')
    clear hperm ih hfirst hrest h
    induction sorted with
    | nil => exact List.pairwise_singleton _ _
    | cons first sorted ih =>
      obtain ⟨hbefore, hafter⟩ := List.pairwise_cons.mp hsorted
      rw [List.forall_mem_cons] at hapart
      rw [List.orderedInsert_cons]
      have hwidth : e.start ≤ e.stop := Nat.le_add_right _ _
      have hwidth' : first.start ≤ first.stop := Nat.le_add_right _ _
      split_ifs with hle
      · -- the new edit is not after the first one, so it ends before all of them
        refine List.pairwise_cons.mpr ⟨List.forall_mem_cons.mpr ⟨?_, fun e' he' => ?_⟩, hsorted⟩
        · rcases hapart.1 with hstop | ⟨-, hlt⟩
          · exact hstop
          · omega
        · have hnext := hbefore e' he'
          rcases hapart.2 e' he' with hstop | ⟨-, hlt⟩
          · exact hstop
          · omega
      · refine List.pairwise_cons.mpr ⟨fun e' he' => ?_, ih hafter hapart.2⟩
        rcases List.mem_cons.mp ((List.perm_orderedInsert _ _ _).subset he') with rfl | he'
        · rcases hapart.1 with hstop | ⟨hstop, -⟩
          · omega
          · exact hstop
        · exact hbefore e' he'

end Supercodex.Splice
