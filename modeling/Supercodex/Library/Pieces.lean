import Mathlib.Data.List.Infix

/-!
# Splitting after a separator

A list is cut after each occurrence of a separator, so that every piece but perhaps the last ends
in it. The pieces of a complete list, which is empty or ends in the separator, are not changed by
what is appended to it.
-/

namespace Supercodex.Pieces

variable {α : Type} (sep : α)

/-- A list without a last piece that lacks its separator. -/
def Complete (as : List α) : Prop := ∀ a ∈ as.getLast?, a = sep

/-- A list with the separator at its end and nowhere else. -/
def IsPiece (as : List α) : Prop := ∃ init, sep ∉ init ∧ as = init ++ [sep]

variable {sep} {as : List α}

lemma Complete.of_cons {a b : α} (h : Complete sep (a :: b :: as)) :
    Complete sep (b :: as) := by
  unfold Complete at h ⊢
  rwa [List.getLast?_cons_cons] at h

lemma IsPiece.complete (h : IsPiece sep as) : Complete sep as := by
  obtain ⟨init, -, rfl⟩ := h
  simp [Complete]

lemma Complete.append {as bs : List α} (has : Complete sep as) (hbs : Complete sep bs) :
    Complete sep (as ++ bs) := by
  unfold Complete at *
  rw [List.getLast?_append]
  cases hb : bs.getLast? with
  | none => simpa using has
  | some b => simpa [hb] using hbs

variable {ps : List (List α)}

lemma complete_flatten (h : ∀ p ∈ ps, IsPiece sep p) :
    Complete sep ps.flatten := by
  induction ps with
  | nil => simp [Complete]
  | cons p ps ih =>
    rw [List.flatten_cons]
    exact (h p List.mem_cons_self).complete.append
      (ih fun q hq => h q (List.mem_cons_of_mem _ hq))

variable [DecidableEq α] (sep)

/-- The pieces of a list, each with the separator that ends it. -/
def pieces : List α → List (List α)
  | [] => []
  | a :: as =>
    if a = sep then [a] :: pieces as
    else
      match pieces as with
      | [] => [[a]]
      | p :: ps => (a :: p) :: ps

variable {sep}

@[simp] lemma pieces_nil : pieces sep [] = [] := rfl

lemma pieces_cons_sep (as : List α) : pieces sep (sep :: as) = [sep] :: pieces sep as := by
  rw [pieces, if_pos rfl]

lemma pieces_cons_nil {a : α} (ha : a ≠ sep) (h : pieces sep as = []) :
    pieces sep (a :: as) = [[a]] := by
  rw [pieces, if_neg ha, h]

variable {as p : List α}

lemma pieces_cons_cons {a : α} (ha : a ≠ sep)
    (h : pieces sep as = p :: ps) : pieces sep (a :: as) = (a :: p) :: ps := by
  rw [pieces, if_neg ha, h]

lemma pieces_of_not_mem (hne : as ≠ []) (h : sep ∉ as) : pieces sep as = [as] := by
  induction as with
  | nil => exact absurd rfl hne
  | cons a as ih =>
    have ha : a ≠ sep := fun heq => h (heq ▸ List.mem_cons_self)
    by_cases has : as = []
    · rw [has]
      exact pieces_cons_nil ha rfl
    · exact pieces_cons_cons ha (ih has fun hmem => h (List.mem_cons_of_mem a hmem))

/-- In a piece the separator is at the end at most. -/
lemma not_mem_dropLast_of_mem_pieces (h : p ∈ pieces sep as) : sep ∉ p.dropLast := by
  induction as generalizing p with
  | nil => cases h
  | cons a as ih =>
    by_cases ha : a = sep
    · rw [ha, pieces_cons_sep] at h
      rcases List.mem_cons.mp h with rfl | h
      · exact List.not_mem_nil
      · exact ih h
    · cases hpieces : pieces sep as with
      | nil =>
        rw [pieces_cons_nil ha hpieces, List.mem_singleton] at h
        rw [h]
        exact List.not_mem_nil
      | cons q qs =>
        rw [pieces_cons_cons ha hpieces] at h
        rcases List.mem_cons.mp h with rfl | h
        · intro hmem
          have hq := ih (hpieces ▸ List.mem_cons_self)
          cases q with
          | nil => exact List.not_mem_nil hmem
          | cons b q =>
            rw [List.dropLast_cons_cons] at hmem
            rcases List.mem_cons.mp hmem with heq | hmem
            · exact ha heq.symm
            · exact hq hmem
        · exact ih (hpieces ▸ List.mem_cons_of_mem q h)

lemma pieces_eq_nil_iff : pieces sep as = [] ↔ as = [] := by
  cases as with
  | nil => simp
  | cons a as =>
    refine iff_of_false ?_ (List.cons_ne_nil a as)
    by_cases ha : a = sep
    · rw [ha, pieces_cons_sep]
      simp
    · cases h : pieces sep as with
      | nil => simp [pieces_cons_nil ha h]
      | cons p ps => simp [pieces_cons_cons ha h]

lemma flatten_pieces (as : List α) : (pieces sep as).flatten = as := by
  induction as with
  | nil => rfl
  | cons a as ih =>
    by_cases ha : a = sep
    · rw [ha, pieces_cons_sep, List.flatten_cons, ih, List.singleton_append]
    cases h : pieces sep as with
    | nil =>
      rw [pieces_cons_nil ha h, pieces_eq_nil_iff.mp h]
      rfl
    | cons p ps =>
      rw [h, List.flatten_cons] at ih
      rw [pieces_cons_cons ha h, List.flatten_cons, List.cons_append, ih]

lemma pieces_append (has : Complete sep as) (bs : List α) :
    pieces sep (as ++ bs) = pieces sep as ++ pieces sep bs := by
  induction as with
  | nil => rfl
  | cons a as ih =>
    cases as with
    | nil =>
      have ha : a = sep := has a rfl
      rw [ha, List.cons_append, pieces_cons_sep, pieces_cons_sep, pieces_nil]
      rfl
    | cons b as =>
      have ih := ih has.of_cons
      rw [List.cons_append]
      by_cases ha : a = sep
      · rw [ha, pieces_cons_sep, pieces_cons_sep, ih, List.cons_append]
      obtain ⟨p, ps, hp⟩ := List.exists_cons_of_ne_nil
        (mt pieces_eq_nil_iff.mp (List.cons_ne_nil b as))
      rw [pieces_cons_cons ha hp, pieces_cons_cons ha (by rw [ih, hp, List.cons_append]),
        List.cons_append]

lemma IsPiece.pieces (h : IsPiece sep as) : pieces sep as = [as] := by
  obtain ⟨init, hinit, rfl⟩ := h
  induction init with
  | nil => exact pieces_cons_sep []
  | cons a init ih =>
    rw [List.mem_cons, not_or] at hinit
    rw [List.cons_append, pieces_cons_cons (Ne.symm hinit.1) (ih hinit.2)]

lemma pieces_flatten (h : ∀ p ∈ ps, IsPiece sep p) :
    pieces sep ps.flatten = ps := by
  induction ps with
  | nil => rfl
  | cons p ps ih =>
    have hp := h p List.mem_cons_self
    rw [List.flatten_cons, pieces_append hp.complete, hp.pieces,
      ih fun q hq => h q (List.mem_cons_of_mem _ hq), List.singleton_append]

/-- A list has no separator, or a separator after a first stretch without one. -/
theorem split_induction {c : α} {motive : List α → Prop} (last : ∀ as, c ∉ as → motive as)
    (separated : ∀ first rest, c ∉ first → motive rest → motive (first ++ c :: rest))
    (as : List α) : motive as := by
  by_cases h : c ∈ as
  · obtain ⟨first, rest, hsplit, hfirst⟩ := List.eq_append_cons_of_mem h
    have hlt : rest.length < as.length := by
      rw [hsplit, List.length_append, List.length_cons]
      omega
    rw [hsplit]
    exact separated first rest hfirst (split_induction last separated rest)
  · exact last as h
termination_by as.length

lemma splitOn_reverse (as : List α) :
    as.reverse.splitOn sep = ((as.splitOn sep).map List.reverse).reverse := by
  induction as using split_induction (c := sep) with
  | last as h =>
    rw [List.splitOn_eq_singleton h, List.splitOn_eq_singleton (List.mem_reverse.not.mpr h)]
    rfl
  | separated first rest h ih =>
    rw [List.splitOn_append_cons_self_of_not_mem h, List.reverse_append, List.reverse_cons,
      List.append_assoc, List.singleton_append, List.splitOn_append_cons_self, ih,
      List.splitOn_eq_singleton (List.mem_reverse.not.mpr h), List.map_cons, List.reverse_cons]

lemma pieces_append_cons {first : List α} (h : sep ∉ first) (rest : List α) :
    pieces sep (first ++ sep :: rest) = (first ++ [sep]) :: pieces sep rest := by
  have hfirst : IsPiece sep (first ++ [sep]) := ⟨first, h, rfl⟩
  rw [List.append_cons, pieces_append hfirst.complete, hfirst.pieces, List.singleton_append]

/-- Every piece of a complete list ends in its separator. -/
lemma isPiece_of_mem_pieces (h : Complete sep as) (hp : p ∈ pieces sep as) :
    IsPiece sep p := by
  induction as generalizing p with
  | nil => cases hp
  | cons a as ih =>
    have hrest : Complete sep as := by
      cases as with
      | nil => simp [Complete]
      | cons b as => exact h.of_cons
    by_cases ha : a = sep
    · rw [ha, pieces_cons_sep, List.mem_cons] at hp
      rcases hp with rfl | hp
      · exact ⟨[], List.not_mem_nil, rfl⟩
      · exact ih hrest hp
    · cases hq : Pieces.pieces sep as with
      | nil =>
        rw [pieces_eq_nil_iff.mp hq] at h
        exact absurd (h a rfl) ha
      | cons q qs =>
        rw [pieces_cons_cons ha hq, List.mem_cons] at hp
        rcases hp with rfl | hp
        · obtain ⟨init, hinit, heq⟩ := ih hrest (hq ▸ List.mem_cons_self)
          refine ⟨a :: init, ?_, by rw [heq, List.cons_append]⟩
          rw [List.mem_cons, not_or]
          exact ⟨Ne.symm ha, hinit⟩
        · exact ih hrest (hq ▸ List.mem_cons_of_mem _ hp)

/-- Pieces that are ended by a separator stay when more is appended. -/
lemma getElem?_pieces_append (as bs : List α) {k : ℕ} (hk : k < as.count sep) :
    (pieces sep (as ++ bs))[k]? = (pieces sep as)[k]? := by
  induction as generalizing k with
  | nil => simp at hk
  | cons a as ih =>
    rw [List.cons_append]
    by_cases ha : a = sep
    · rw [ha, pieces_cons_sep, pieces_cons_sep]
      cases k with
      | zero => rfl
      | succ k =>
        rw [ha, List.count_cons_self] at hk
        rw [List.getElem?_cons_succ, List.getElem?_cons_succ]
        exact ih (by omega)
    · rw [List.count_cons_of_ne ha] at hk
      have hne : ∀ cs, as ++ cs ≠ [] := by
        intro cs hnil
        rw [(List.append_eq_nil_iff.mp hnil).1] at hk
        simp at hk
      have hpieces : ∀ cs, pieces sep (as ++ cs) ≠ [] := fun cs => mt pieces_eq_nil_iff.mp (hne cs)
      obtain ⟨p, ps, hp⟩ := List.exists_cons_of_ne_nil (List.append_nil as ▸ hpieces [])
      obtain ⟨q, qs, hq⟩ := List.exists_cons_of_ne_nil (hpieces bs)
      have hk' := ih hk
      rw [pieces_cons_cons ha hp, pieces_cons_cons ha hq]
      rw [hp, hq] at hk'
      cases k with
      | zero =>
        rw [List.getElem?_cons_zero, List.getElem?_cons_zero, Option.some.injEq] at hk' ⊢
        rw [hk']
      | succ k => exact hk'

end Supercodex.Pieces
