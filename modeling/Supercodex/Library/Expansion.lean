import Supercodex.Library.Document
import Supercodex.Library.Replace

/-!
# Expanding atoms

Some atoms of a document stand for longer texts, which their own texts are the labels of. Replacing a
label wherever it occurs in the text expands its atoms if it occurs nowhere else.
-/

namespace Supercodex.Document

open Positions Text

variable {L : Type}

/-- The atoms whose texts stand for something give way to it. -/
def expand (texts : Text → Option Text) : List (Piece L) → List (Piece L)
  | [] => []
  | .char c :: d => .char c :: expand texts d
  | .atom id t :: d =>
    match texts t with
    | some actual => plain actual ++ expand texts d
    | none => .atom id t :: expand texts d

/-- The atoms with one label give way. -/
def expandLabel (label actual : Text) : List (Piece L) → List (Piece L) :=
  expand fun t => if t = label then some actual else none

/-- A label occurs in a document only as an atom. -/
def OnlyAtom (label : Text) (d : List (Piece L)) : Prop :=
  ∀ u v, textOf d = u ++ label ++ v → ∃ d₁ id d₂, d = d₁ ++ .atom id label :: d₂ ∧ textOf d₁ = u

variable {texts texts' : Text → Option Text} {label actual : Text} {d d' : List (Piece L)}

@[simp] lemma expand_char (c : Char) : expand texts (.char c :: d) = .char c :: expand texts d := rfl

lemma expand_atom_some {id : L} {t : Text} (h : texts t = some actual) :
    expand texts (.atom id t :: d) = plain actual ++ expand texts d := by
  rw [expand, h]

lemma expand_atom_none {id : L} {t : Text} (h : texts t = none) :
    expand texts (.atom id t :: d) = .atom id t :: expand texts d := by
  rw [expand, h]

@[simp] lemma expand_append : expand texts (d ++ d') = expand texts d ++ expand texts d' := by
  induction d with
  | nil => rfl
  | cons piece d ih =>
    cases piece with
    | char c => rw [List.cons_append, expand_char, expand_char, ih, List.cons_append]
    | atom id t =>
      cases h : texts t with
      | some actual => rw [List.cons_append, expand_atom_some h, expand_atom_some h, ih, List.append_assoc]
      | none => rw [List.cons_append, expand_atom_none h, expand_atom_none h, ih, List.cons_append]

@[simp] lemma expand_plain (t : Text) : expand texts (plain t : List (Piece L)) = plain t := by
  induction t with
  | nil => rfl
  | cons c t ih => exact congrArg (.char c :: ·) ih

lemma expand_congr (h : ∀ a ∈ atoms d, texts a.2 = texts' a.2) : expand texts d = expand texts' d := by
  induction d with
  | nil => rfl
  | cons piece d ih =>
    cases piece with
    | char c => rw [expand_char, expand_char, ih h]
    | atom id t =>
      have hrest := ih fun a ha => h a (List.mem_cons_of_mem _ ha)
      have hfirst : texts t = texts' t := h (id, t) List.mem_cons_self
      rw [expand, expand, hfirst, hrest]

lemma expand_eq_self (h : ∀ a ∈ atoms d, texts a.2 = none) : expand texts d = d := by
  induction d with
  | nil => rfl
  | cons piece d ih =>
    cases piece with
    | char c => rw [expand_char, ih h]
    | atom id t =>
      rw [expand_atom_none (h (id, t) List.mem_cons_self), ih fun a ha => h a (List.mem_cons_of_mem _ ha)]

lemma atoms_expand : atoms (expand texts d) = (atoms d).filter fun a => (texts a.2).isNone := by
  induction d with
  | nil => rfl
  | cons piece d ih =>
    cases piece with
    | char c => exact ih
    | atom id t =>
      cases h : texts t with
      | some actual =>
        rw [expand_atom_some h, atoms_append, atoms_plain, List.nil_append, ih, atoms,
          List.filter_cons_of_neg (by simp [h])]
      | none => rw [expand_atom_none h, atoms, ih, atoms, List.filter_cons_of_pos (by simp [h])]

lemma solid_expand (h : Solid d) : Solid (expand texts d) := by
  induction d with
  | nil => exact h
  | cons piece d ih =>
    have hrest : Solid d := fun id t ht => h id t (List.mem_cons_of_mem _ ht)
    cases piece with
    | char c =>
      intro id t ht
      exact ih hrest id t ((List.mem_cons.mp ht).resolve_left (by simp))
    | atom id t =>
      cases hlookup : texts t with
      | some actual =>
        rw [expand_atom_some hlookup]
        exact solid_append.mpr ⟨solid_plain actual, ih hrest⟩
      | none =>
        rw [expand_atom_none hlookup]
        exact solid_cons (h id t List.mem_cons_self) (ih hrest)

/-! ## One label after another -/

lemma foldl_expandLabel (entries : List (Text × Text)) (d : List (Piece L)) :
    entries.foldl (fun d entry => expandLabel entry.1 entry.2 d) d = expand (fun t => entries.lookup t) d := by
  induction entries generalizing d with
  | nil => exact (expand_eq_self fun a _ => rfl).symm
  | cons entry entries ih =>
    obtain ⟨label, actual⟩ := entry
    rw [List.foldl_cons, ih]
    induction d with
    | nil => rfl
    | cons piece d ihd =>
      cases piece with
      | char c => exact congrArg (.char c :: ·) ihd
      | atom id t =>
        by_cases ht : t = label
        · have hfirst : List.lookup t ((label, actual) :: entries) = some actual := by
            rw [ht, List.lookup_cons, beq_self_eq_true]
          rw [expandLabel, expand_atom_some (if_pos ht), expand_append, expand_plain, expand_atom_some hfirst]
          exact congrArg (plain actual ++ ·) ihd
        · have hlater : List.lookup t ((label, actual) :: entries) = List.lookup t entries := by
            rw [List.lookup_cons, beq_false_of_ne ht]
          rw [expandLabel, expand_atom_none (if_neg ht), expand, expand, hlater]
          split
          · exact congrArg (plain _ ++ ·) ihd
          · exact congrArg (.atom id t :: ·) ihd

/-! ## Replacing labels in the text -/

lemma replace_skip (actual rest : Text) {t : Text}
    (h : ∀ a b, t = a ++ b → b ≠ [] → ¬label <+: b ++ rest) :
    replace label actual (t ++ rest) = t ++ replace label actual rest := by
  induction t with
  | nil => rfl
  | cons c t ih =>
    have hfirst : ¬label <+: c :: (t ++ rest) := h [] (c :: t) rfl (List.cons_ne_nil c t)
    rw [List.cons_append, replace_cons hfirst, ih, List.cons_append]
    intro a b ht hb
    exact h (c :: a) b (by rw [ht, List.cons_append]) hb

lemma OnlyAtom.tail {piece : Piece L} (h : OnlyAtom label (piece :: d)) (hpiece : piece.text ≠ []) :
    OnlyAtom label d := by
  intro u v htext
  obtain ⟨d₁, id, d₂, hd, hu⟩ := h (piece.text ++ u) v (by
    rw [textOf, List.flatMap_cons, ← textOf, htext]
    simp only [List.append_assoc])
  cases d₁ with
  | nil =>
    rw [textOf_nil] at hu
    exact absurd (List.append_eq_nil_iff.mp hu.symm).1 hpiece
  | cons piece' d₁ =>
    rw [List.cons_append, List.cons.injEq] at hd
    obtain ⟨rfl, rfl⟩ := hd
    rw [textOf, List.flatMap_cons, ← textOf] at hu
    exact ⟨d₁, id, d₂, rfl, List.append_cancel_left hu⟩

/-- A label that starts with a character of its own occurs only where an atom of its length does. -/
lemma onlyAtom_of_head {c : Char} (hlabel : label.head? = some c) (hchar : .char c ∉ d)
    (hatom : ∀ e ∈ atoms d, e.2.head? = some c ∧ c ∉ e.2.tail ∧ e.2.length = label.length) :
    OnlyAtom label d := by
  obtain ⟨rest, rfl⟩ := List.head?_eq_some_iff.mp hlabel
  induction d with
  | nil =>
    intro u v htext
    simp at htext
  | cons piece d ih =>
    rw [List.mem_cons, not_or] at hchar
    have htail : OnlyAtom (c :: rest) d := by
      refine ih hchar.2 fun e he => hatom e ?_
      cases piece with
      | char c' => exact he
      | atom id t => exact List.mem_cons_of_mem _ he
    intro u v htext
    -- an occurrence is at the first piece, or begins after it
    have hafter : ∀ u', u = piece.text ++ u' → ∃ d₁ id d₂, piece :: d = d₁ ++ .atom id (c :: rest) :: d₂ ∧
        textOf d₁ = u := by
      rintro u' rfl
      rw [textOf, List.flatMap_cons, ← textOf, List.append_assoc, List.append_assoc] at htext
      obtain ⟨d₁, id, d₂, rfl, rfl⟩ := htail u' v (by
        rw [List.append_assoc]
        exact List.append_cancel_left htext)
      exact ⟨piece :: d₁, id, d₂, rfl, rfl⟩
    cases piece with
    | char c' =>
      cases u with
      | nil => exact absurd (congrArg Piece.char (List.cons.inj htext).1.symm) hchar.1
      | cons _ u =>
        obtain ⟨rfl, -⟩ := List.cons.inj htext
        exact hafter u rfl
    | atom id t =>
      obtain ⟨hhead, hnot, hlength⟩ := hatom (id, t) List.mem_cons_self
      obtain ⟨t, rfl⟩ := List.head?_eq_some_iff.mp hhead
      cases u with
      | nil =>
        rw [textOf_atom, List.nil_append] at htext
        rw [List.append_inj_left htext hlength]
        exact ⟨[], id, d, rfl, rfl⟩
      | cons _ u =>
        rw [textOf_atom, List.append_assoc] at htext
        obtain ⟨rfl, hrest⟩ := List.cons.inj htext
        obtain ⟨u', rfl⟩ : t <+: u := by
          rcases List.append_eq_append_iff.mp hrest with ⟨u', rfl, -⟩ | ⟨_ | ⟨_, t'⟩, rfl, hmark⟩
          · exact List.prefix_append t u'
          · rw [List.append_nil]
          · obtain ⟨rfl, -⟩ := List.cons.inj hmark
            simp at hnot
        exact hafter u' rfl

/-- A search for a label from left to right finds it at its atoms and nowhere else. -/
def FoundOnly (label : Text) : List (Piece L) → Prop
  | [] => True
  | .char c :: d => ¬label <+: c :: textOf d ∧ FoundOnly label d
  | .atom _ t :: d => (t = label ∨ ∀ s ∈ t.tails, s ≠ [] → ¬label <+: s ++ textOf d) ∧ FoundOnly label d

instance decidableFoundOnly (label : Text) : (d : List (Piece L)) → Decidable (FoundOnly label d)
  | [] => isTrue trivial
  | .char _ :: d =>
    have := decidableFoundOnly label d
    inferInstanceAs (Decidable (_ ∧ _))
  | .atom _ _ :: d =>
    have := decidableFoundOnly label d
    inferInstanceAs (Decidable (_ ∧ _))

/-- A label that only occurs as an atom is found only there. -/
lemma OnlyAtom.foundOnly (hsolid : Solid d) (h : OnlyAtom label d) : FoundOnly label d := by
  induction d with
  | nil => trivial
  | cons piece d ih =>
    have hrest : Solid d := fun id t ht => hsolid id t (List.mem_cons_of_mem _ ht)
    cases piece with
    | char c =>
      refine ⟨?_, ih hrest (h.tail (List.cons_ne_nil c []))⟩
      rintro ⟨v, hv⟩
      obtain ⟨d₁, id, d₂, hd, hnil⟩ := h [] v hv.symm
      cases d₁ with
      | nil => cases hd
      | cons piece d₁ =>
        rw [List.cons_append, List.cons.injEq] at hd
        rw [← hd.1] at hnil
        cases hnil
    | atom id t =>
      refine ⟨?_, ih hrest (h.tail (hsolid id t List.mem_cons_self))⟩
      by_cases heq : t = label
      · exact .inl heq
      -- an occurrence that begins within the atom is not one of an atom
      refine .inr fun b htail hb => ?_
      obtain ⟨a, rfl⟩ := (List.mem_tails b t).mp htail
      rintro ⟨v, hv⟩
      obtain ⟨d₁, id', d₂, hd, ha⟩ := h a v (by
        rw [textOf_atom, List.append_assoc, ← hv, List.append_assoc])
      cases d₁ with
      | nil =>
        rw [List.nil_append, List.cons.injEq, Piece.atom.injEq] at hd
        exact heq hd.1.2
      | cons piece d₁ =>
        rw [List.cons_append, List.cons.injEq] at hd
        rw [← hd.1, textOf_atom, List.append_assoc] at ha
        have hnil := List.append_cancel_left (ha.trans (List.append_nil a).symm)
        exact hb (List.append_eq_nil_iff.mp hnil).1

/-- Replacing a label that is found only at its atoms expands them. -/
theorem replace_textOf (hlabel : label ≠ []) (h : FoundOnly label d) :
    replace label actual (textOf d) = textOf (expandLabel label actual d) := by
  induction d with
  | nil => rfl
  | cons piece d ih =>
    cases piece with
    | char c =>
      rw [textOf_char, replace_cons h.1, ih h.2]
      rfl
    | atom id t =>
      by_cases heq : t = label
      · rw [textOf_atom, heq, replace_append hlabel, ih h.2, expandLabel, expand_atom_some (if_pos rfl),
          textOf_append, textOf_plain]
      · rw [textOf_atom, replace_skip, ih h.2, expandLabel, expand_atom_none (if_neg heq), textOf_atom]
        rintro a b rfl hb
        exact h.1.resolve_left heq b ((List.mem_tails b (a ++ b)).mpr (List.suffix_append a b)) hb

/-- The labels of a list, one after another, occur only as atoms. -/
def Apart : List (Text × Text) → List (Piece L) → Prop
  | [], _ => True
  | (label, actual) :: entries, d => OnlyAtom label d ∧ Apart entries (expandLabel label actual d)

/-- Replacing labels one after another expands the atoms if each of them only occurs as an atom. -/
theorem foldl_replace {entries : List (Text × Text)} (hlabels : ∀ entry ∈ entries, entry.1 ≠ [])
    (hsolid : Solid d) (h : Apart entries d) :
    entries.foldl (fun text entry => replace entry.1 entry.2 text) (textOf d) =
      textOf (expand (fun t => entries.lookup t) d) := by
  rw [← foldl_expandLabel]
  induction entries generalizing d with
  | nil => rfl
  | cons entry entries ih =>
    obtain ⟨label, actual⟩ := entry
    rw [List.foldl_cons, List.foldl_cons, replace_textOf (hlabels _ List.mem_cons_self) (h.1.foundOnly hsolid)]
    exact ih (fun entry hentry => hlabels entry (List.mem_cons_of_mem _ hentry)) (solid_expand hsolid) h.2

end Supercodex.Document
