import Supercodex.Library.Positions

/-!
# Documents with atoms

Some stretches of a document are atoms: an atom carries a label, and an edit takes it or leaves it as a
whole. What an editor stores of a document is its text and the byte positions of its atoms, their marks.
-/

namespace Supercodex.Document

open Positions

/-- A character, or an atom with its text. -/
inductive Piece (L : Type) where
  | char (c : Char)
  | atom (id : L) (text : Text)

/-- An atom by the bytes that it takes. -/
structure Mark (L : Type) where
  id : L
  range : Span
deriving DecidableEq

variable {L : Type}

/-- The text of a piece. -/
def Piece.text : Piece L → Text
  | char c => [c]
  | atom _ t => t

/-- The text of a document. -/
def textOf (d : List (Piece L)) : Text := d.flatMap Piece.text

/-- The bytes of a document. -/
def size (d : List (Piece L)) : ℕ := len (textOf d)

/-- The marks of a document that begins at a position. -/
def marks : ℕ → List (Piece L) → List (Mark L)
  | _, [] => []
  | pos, .char c :: d => marks (pos + c.utf8Size) d
  | pos, .atom id t :: d => ⟨id, ⟨pos, pos + len t⟩⟩ :: marks (pos + len t) d

/-- The atoms of a document, with their texts. -/
def atoms : List (Piece L) → List (L × Text)
  | [] => []
  | .char _ :: d => atoms d
  | .atom id t :: d => (id, t) :: atoms d

/-- No atom is empty. -/
def Solid (d : List (Piece L)) : Prop := ∀ id t, Piece.atom id t ∈ d → t ≠ []

/-- A text without atoms. -/
def plain (t : Text) : List (Piece L) := t.map Piece.char

/-! ## Documents one after the other -/

@[simp] lemma textOf_nil : textOf ([] : List (Piece L)) = [] := rfl

@[simp] lemma textOf_char (c : Char) (d : List (Piece L)) : textOf (.char c :: d) = c :: textOf d := rfl

@[simp] lemma textOf_atom (id : L) (t : Text) (d : List (Piece L)) :
    textOf (.atom id t :: d) = t ++ textOf d := rfl

@[simp] lemma textOf_append (d e : List (Piece L)) : textOf (d ++ e) = textOf d ++ textOf e :=
  List.flatMap_append

@[simp] lemma textOf_plain (t : Text) : textOf (plain t : List (Piece L)) = t := by
  induction t with
  | nil => rfl
  | cons c t ih => exact congrArg (c :: ·) ih

@[simp] lemma size_nil : size ([] : List (Piece L)) = 0 := rfl

@[simp] lemma size_char (c : Char) (d : List (Piece L)) : size (.char c :: d) = c.utf8Size + size d := by
  rw [size, textOf_char, len_cons, size]

@[simp] lemma size_atom (id : L) (t : Text) (d : List (Piece L)) :
    size (.atom id t :: d) = len t + size d := by
  rw [size, textOf_atom, len_append, size]

@[simp] lemma size_append (d e : List (Piece L)) : size (d ++ e) = size d + size e := by
  rw [size, textOf_append, len_append, size, size]

@[simp] lemma size_plain (t : Text) : size (plain t : List (Piece L)) = len t := by rw [size, textOf_plain]

@[simp] lemma marks_append (pos : ℕ) (d e : List (Piece L)) :
    marks pos (d ++ e) = marks pos d ++ marks (pos + size d) e := by
  induction d generalizing pos with
  | nil => rfl
  | cons piece d ih =>
    cases piece with
    | char c => rw [List.cons_append, marks, marks, ih, size_char, Nat.add_assoc]
    | atom id t => rw [List.cons_append, marks, marks, ih, size_atom, Nat.add_assoc, List.cons_append]

@[simp] lemma marks_plain (pos : ℕ) (t : Text) : marks pos (plain t : List (Piece L)) = [] := by
  induction t generalizing pos with
  | nil => rfl
  | cons c t ih => exact ih _

@[simp] lemma atoms_append (d e : List (Piece L)) : atoms (d ++ e) = atoms d ++ atoms e := by
  induction d with
  | nil => rfl
  | cons piece d ih =>
    cases piece with
    | char c => exact ih
    | atom id t => rw [List.cons_append, atoms, atoms, ih, List.cons_append]

@[simp] lemma atoms_plain (t : Text) : atoms (plain t : List (Piece L)) = [] := by
  induction t with
  | nil => rfl
  | cons c t ih => exact ih

lemma solid_append {d e : List (Piece L)} : Solid (d ++ e) ↔ Solid d ∧ Solid e := by
  simp only [Solid, List.mem_append]
  constructor
  · intro h
    exact ⟨fun id t ht => h id t (.inl ht), fun id t ht => h id t (.inr ht)⟩
  · rintro ⟨hd, he⟩ id t ht
    exact ht.elim (hd id t) (he id t)

lemma solid_plain (t : Text) : Solid (plain t : List (Piece L)) := by
  intro id u hu
  obtain ⟨c, -, hc⟩ := List.mem_map.mp hu
  cases hc

variable {d : List (Piece L)} {t : Text}

lemma solid_cons {id : L} (ht : t ≠ []) (hd : Solid d) :
    Solid (.atom id t :: d) := by
  intro id' t' hmem
  rcases List.mem_cons.mp hmem with heq | hmem
  · cases heq
    exact ht
  · exact hd id' t' hmem

/-! ## Marks -/

variable {pos : ℕ} {m : Mark L}

lemma mem_marks : m ∈ marks pos d ↔
    ∃ d₁ t d₂, d = d₁ ++ .atom m.id t :: d₂ ∧ m.range = ⟨pos + size d₁, pos + size d₁ + len t⟩ := by
  constructor
  · intro h
    induction d generalizing pos with
    | nil => exact absurd h List.not_mem_nil
    | cons piece d ih =>
      cases piece with
      | char c =>
        obtain ⟨d₁, t, d₂, rfl, hrange⟩ := ih h
        exact ⟨.char c :: d₁, t, d₂, rfl, by rw [hrange, size_char, Nat.add_assoc pos]⟩
      | atom id t =>
        rcases List.mem_cons.mp h with rfl | h
        · exact ⟨[], t, d, rfl, rfl⟩
        · obtain ⟨d₁, t', d₂, rfl, hrange⟩ := ih h
          exact ⟨.atom id t :: d₁, t', d₂, rfl, by rw [hrange, size_atom, Nat.add_assoc pos]⟩
  · rintro ⟨d₁, t, d₂, rfl, hrange⟩
    rw [marks_append, marks]
    refine List.mem_append_right _ (List.mem_cons.mpr (.inl ?_))
    rw [← hrange]

lemma marks_bounds (hsolid : Solid d) (h : m ∈ marks pos d) :
    pos ≤ m.range.start ∧ m.range.start < m.range.stop ∧ m.range.stop ≤ pos + size d := by
  obtain ⟨d₁, t, d₂, rfl, hrange⟩ := mem_marks.mp h
  have ht : 0 < len t := len_pos (hsolid m.id t (by simp))
  rw [hrange, size_append, size_atom]
  dsimp only
  omega

lemma marks_pairwise (pos : ℕ) (hsolid : Solid d) :
    (marks pos d).Pairwise fun m m' => m.range.stop ≤ m'.range.start := by
  induction d generalizing pos with
  | nil => exact .nil
  | cons piece d ih =>
    have hrest : Solid d := fun id t ht => hsolid id t (List.mem_cons_of_mem _ ht)
    cases piece with
    | char c => exact ih _ hrest
    | atom id t =>
      refine List.pairwise_cons.mpr ⟨fun m hm => ?_, ih _ hrest⟩
      exact (marks_bounds hrest hm).1

lemma marks_starts (pos : ℕ) (hsolid : Solid d) :
    (marks pos d).Pairwise fun m m' => m.range.start < m'.range.start := by
  refine (marks_pairwise pos hsolid).imp_of_mem fun hm _ hle => ?_
  have hbounds := marks_bounds hsolid hm
  omega

lemma le_of_mem_marks (h : m ∈ marks pos d) :
    pos ≤ m.range.start ∧ pos ≤ m.range.stop := by
  obtain ⟨d₁, t, d₂, -, hrange⟩ := mem_marks.mp h
  rw [hrange]
  dsimp only
  omega

lemma marks_move (pos pos' : ℕ) (d : List (Piece L)) : marks pos' d =
    (marks pos d).map fun m => ⟨m.id, ⟨m.range.start - pos + pos', m.range.stop - pos + pos'⟩⟩ := by
  induction d generalizing pos pos' with
  | nil => rfl
  | cons piece d ih =>
    have hmove (n : ℕ) : marks (pos' + n) d = (marks (pos + n) d).map fun m =>
        ⟨m.id, ⟨m.range.start - pos + pos', m.range.stop - pos + pos'⟩⟩ := by
      rw [ih (pos + n) (pos' + n)]
      refine List.map_congr_left fun m hm => ?_
      have hle := le_of_mem_marks hm
      have hstart : m.range.start - (pos + n) + (pos' + n) = m.range.start - pos + pos' := by omega
      have hstop : m.range.stop - (pos + n) + (pos' + n) = m.range.stop - pos + pos' := by omega
      rw [hstart, hstop]
    cases piece with
    | char c => exact hmove c.utf8Size
    | atom id t =>
      rw [marks, marks, List.map_cons, hmove, Nat.sub_self, Nat.zero_add, Nat.add_comm pos (len t),
        Nat.add_sub_cancel, Nat.add_comm (len t) pos']

/-- A mark parts the document. -/
lemma marks_split {ms₁ ms₂ : List (Mark L)}
    (h : marks pos d = ms₁ ++ m :: ms₂) : ∃ d₁ t d₂, d = d₁ ++ .atom m.id t :: d₂ ∧
      m.range = ⟨pos + size d₁, pos + size d₁ + len t⟩ ∧ marks pos d₁ = ms₁ ∧
      marks (pos + size d₁ + len t) d₂ = ms₂ := by
  induction d generalizing pos ms₁ with
  | nil => simp [marks] at h
  | cons piece d ih =>
    cases piece with
    | char c =>
      obtain ⟨d₁, t, d₂, rfl, hrange, hms₁, hms₂⟩ := ih h
      refine ⟨.char c :: d₁, t, d₂, rfl, ?_, hms₁, ?_⟩
      · rw [hrange, size_char, Nat.add_assoc pos]
      · rw [size_char, ← Nat.add_assoc pos]
        exact hms₂
    | atom id t =>
      cases ms₁ with
      | nil =>
        rw [marks, List.nil_append, List.cons.injEq] at h
        obtain ⟨rfl, h⟩ := h
        exact ⟨[], t, d, rfl, rfl, rfl, h⟩
      | cons m₁ ms₁ =>
        rw [marks, List.cons_append, List.cons.injEq] at h
        obtain ⟨rfl, h⟩ := h
        obtain ⟨d₁, t', d₂, rfl, hrange, hms₁, hms₂⟩ := ih h
        refine ⟨.atom id t :: d₁, t', d₂, rfl, ?_, ?_, ?_⟩
        · rw [hrange, size_atom, Nat.add_assoc pos]
        · rw [marks, hms₁]
        · rw [size_atom, ← Nat.add_assoc pos]
          exact hms₂

lemma eq_plain_of_marks (h : marks pos d = []) : d = plain (textOf d) := by
  induction d generalizing pos with
  | nil => rfl
  | cons piece d ih =>
    cases piece with
    | char c => exact congrArg (.char c :: ·) (ih h)
    | atom id t => cases h

lemma get_mark {d₁ d₂ : List (Piece L)}
    (h : d = d₁ ++ .atom m.id t :: d₂) (hrange : m.range = ⟨size d₁, size d₁ + len t⟩) :
    get (textOf d) m.range = some t := by
  refine get_eq_some_iff.mpr ⟨textOf d₁, textOf d₂, ?_, ?_, ?_⟩
  · rw [h, textOf_append, textOf_atom, List.append_assoc]
  · rw [hrange, size]
  · rw [hrange, len_append, size]

lemma marks_texts (before d : List (Piece L)) (after : Text) :
    (marks (size before) d).filterMap (fun m =>
      (get (textOf before ++ textOf d ++ after) m.range).map fun t => (m.id, t)) = atoms d := by
  induction d generalizing before with
  | nil => rfl
  | cons piece d ih =>
    cases piece with
    | char c =>
      have h := ih (before ++ [.char c])
      rw [size_append, size_char, size_nil, Nat.add_zero, textOf_append, textOf_char, textOf_nil,
        List.append_assoc (textOf before), List.singleton_append] at h
      exact h
    | atom id t =>
      have h := ih (before ++ [.atom id t])
      rw [size_append, size_atom, size_nil, Nat.add_zero, textOf_append, textOf_atom, textOf_nil,
        List.append_nil, List.append_assoc (textOf before)] at h
      have hget : get (textOf before ++ (t ++ textOf d) ++ after) ⟨size before, size before + len t⟩ =
          some t := by
        refine get_eq_some_iff.mpr ⟨textOf before, textOf d ++ after, ?_, rfl, ?_⟩
        · simp only [List.append_assoc]
        · rw [len_append, size]
      rw [marks, textOf_atom, List.filterMap_cons_some (b := (id, t)), h, atoms]
      rw [hget]
      rfl

lemma atoms_eq (d : List (Piece L)) : atoms d =
    (marks 0 d).filterMap fun m => (get (textOf d) m.range).map fun t => (m.id, t) := by
  have h := marks_texts [] d []
  rw [textOf_nil, List.nil_append, List.append_nil, size_nil] at h
  exact h.symm

lemma atoms_sublist {d d' : List (Piece L)} (htext : textOf d' = textOf d)
    (hmarks : (marks 0 d').Sublist (marks 0 d)) : (atoms d').Sublist (atoms d) := by
  rw [atoms_eq, atoms_eq, htext]
  exact hmarks.filterMap _

/-! ## Cuts -/

/-- A position between two pieces. -/
def Cut (d : List (Piece L)) (pos : ℕ) : Prop := ∃ d₁ d₂, d = d₁ ++ d₂ ∧ size d₁ = pos

lemma cut_zero (d : List (Piece L)) : Cut d 0 := ⟨[], d, rfl, rfl⟩

lemma cut_size (d : List (Piece L)) : Cut d (size d) := ⟨d, [], (List.append_nil d).symm, rfl⟩

lemma Cut.isBoundary (h : Cut d pos) : IsBoundary (textOf d) pos := by
  obtain ⟨d₁, d₂, rfl, rfl⟩ := h
  exact ⟨textOf d₁, textOf d₂, textOf_append d₁ d₂, rfl⟩

lemma Cut.cut {a b : ℕ} (ha : Cut d a) (hb : Cut d b) (h : a ≤ b) :
    ∃ d₁ mid d₂, d = d₁ ++ mid ++ d₂ ∧ size d₁ = a ∧ size (d₁ ++ mid) = b := by
  obtain ⟨u, v, rfl, rfl⟩ := ha
  obtain ⟨w, x, heq, rfl⟩ := hb
  rw [List.append_eq_append_iff] at heq
  rcases heq with ⟨m, rfl, rfl⟩ | ⟨m, rfl, rfl⟩
  · exact ⟨u, m, x, (List.append_assoc ..).symm, rfl, rfl⟩
  refine ⟨w, [], m ++ v, by simp, ?_, ?_⟩
  · rw [size_append] at h ⊢
    omega
  · rw [List.append_nil]

lemma eq_nil_of_size (hsolid : Solid d) (h : size d = 0) : d = [] := by
  cases d with
  | nil => rfl
  | cons piece d =>
    cases piece with
    | char c =>
      have hc := Char.utf8Size_pos c
      rw [size_char] at h
      omega
    | atom id t =>
      have ht := len_pos (hsolid id t List.mem_cons_self)
      rw [size_atom] at h
      omega

lemma Cut.insert {d₁ d₂ : List (Piece L)} (h : Cut (d₁ ++ d₂) pos) (e : List (Piece L)) :
    Cut (d₁ ++ e ++ d₂) (if size d₁ ≤ pos then pos + size e else pos) := by
  obtain ⟨a, b, heq, rfl⟩ := h
  rw [List.append_eq_append_iff] at heq
  rcases heq with ⟨m, rfl, rfl⟩ | ⟨m, rfl, rfl⟩
  · rw [if_pos (by rw [size_append]; omega)]
    refine ⟨d₁ ++ e ++ m, b, by simp, ?_⟩
    simp only [size_append]
    omega
  · split
    case isTrue hle =>
      refine ⟨a ++ m ++ e, d₂, rfl, ?_⟩
      simp only [size_append] at hle ⊢
      omega
    case isFalse => exact ⟨a, m ++ e ++ d₂, by simp, rfl⟩

lemma plain_append (t u : Text) : (plain (t ++ u) : List (Piece L)) = plain t ++ plain u := List.map_append

lemma cut_plain : Cut (plain t : List (Piece L)) pos ↔ IsBoundary t pos := by
  constructor
  · intro h
    have hboundary := h.isBoundary
    rwa [textOf_plain] at hboundary
  · rintro ⟨u, v, rfl, rfl⟩
    exact ⟨plain u, plain v, plain_append u v, size_plain u⟩

/-- A position between two characters is between two pieces or strictly inside an atom. -/
lemma cut_or_inside (h : IsBoundary (textOf d) pos) :
    Cut d pos ∨ ∃ d₁ id t d₂, d = d₁ ++ .atom id t :: d₂ ∧ size d₁ < pos ∧ pos < size d₁ + len t := by
  obtain ⟨u, v, heq, rfl⟩ := h
  induction d generalizing u with
  | nil =>
    have hu : u = [] := (List.append_eq_nil_iff.mp heq.symm).1
    rw [hu]
    exact .inl (cut_zero [])
  | cons piece d ih =>
    by_cases hu : u = []
    · rw [hu]
      exact .inl (cut_zero _)
    cases piece with
    | char c =>
      obtain ⟨c', u, rfl⟩ := List.exists_cons_of_ne_nil hu
      rw [textOf_char, List.cons_append, List.cons.injEq] at heq
      obtain ⟨rfl, heq⟩ := heq
      rw [len_cons]
      rcases ih u heq with ⟨d₁, d₂, rfl, hsize⟩ | ⟨d₁, id, t, d₂, rfl, hlo, hhi⟩
      · exact .inl ⟨.char c :: d₁, d₂, rfl, by rw [size_char, hsize]⟩
      · exact .inr ⟨.char c :: d₁, id, t, d₂, rfl, by rw [size_char]; omega, by rw [size_char]; omega⟩
    | atom id t =>
      rw [textOf_atom, List.append_eq_append_iff] at heq
      rcases heq with ⟨m, rfl, heq⟩ | ⟨m, rfl, heq⟩
      · rw [len_append]
        rcases ih m heq with ⟨d₁, d₂, rfl, hsize⟩ | ⟨d₁, id', t', d₂, rfl, hlo, hhi⟩
        · exact .inl ⟨.atom id t :: d₁, d₂, rfl, by rw [size_atom, hsize]⟩
        · exact .inr ⟨.atom id t :: d₁, id', t', d₂, rfl, by rw [size_atom]; omega,
            by rw [size_atom]; omega⟩
      · by_cases hm : m = []
        · rw [hm]
          exact .inl ⟨[.atom id (u ++ [])], d, by simp, by simp⟩
        · have hpos := len_pos hu
          have hrest := len_pos hm
          exact .inr ⟨[], id, u ++ m, d, rfl, hpos, by rw [size_nil, len_append]; omega⟩

lemma Cut.not_inside (hsolid : Solid d) (h : Cut d pos)
    (hm : m ∈ marks 0 d) : ¬(m.range.start < pos ∧ pos < m.range.stop) := by
  obtain ⟨d₁, d₂, rfl, rfl⟩ := h
  obtain ⟨hleft, hright⟩ := solid_append.mp hsolid
  rw [marks_append, List.mem_append] at hm
  rcases hm with hm | hm
  · have hbounds := marks_bounds hleft hm
    omega
  · have hbounds := marks_bounds hright hm
    omega

lemma cut_iff (hsolid : Solid d) : Cut d pos ↔
    IsBoundary (textOf d) pos ∧ ∀ m ∈ marks 0 d, ¬(m.range.start < pos ∧ pos < m.range.stop) := by
  constructor
  · intro h
    exact ⟨h.isBoundary, fun m hm => h.not_inside hsolid hm⟩
  · rintro ⟨hboundary, hmarks⟩
    rcases cut_or_inside hboundary with h | ⟨d₁, id, t, d₂, rfl, hlo, hhi⟩
    · exact h
    have hm : (⟨id, ⟨0 + size d₁, 0 + size d₁ + len t⟩⟩ : Mark L) ∈ marks 0 (d₁ ++ .atom id t :: d₂) :=
      mem_marks.mpr ⟨d₁, t, d₂, rfl, rfl⟩
    refine absurd ?_ (hmarks _ hm)
    dsimp only
    omega

lemma cut_of_mark (h : m ∈ marks 0 d) :
    Cut d m.range.start ∧ Cut d m.range.stop := by
  obtain ⟨d₁, t, d₂, rfl, hrange⟩ := mem_marks.mp h
  rw [hrange]
  constructor
  · exact ⟨d₁, .atom m.id t :: d₂, rfl, (Nat.zero_add _).symm⟩
  · refine ⟨d₁ ++ [.atom m.id t], d₂, by simp, ?_⟩
    rw [size_append, size_atom, size_nil, Nat.zero_add, Nat.add_zero]

/-! ## Documents from their marks -/

/-- A text and marks that come one after the other on it are those of a document. -/
lemma exists_of_marks (pos : ℕ) {ms : List (Mark L)}
    (hsorted : ms.Pairwise fun m m' => m.range.stop ≤ m'.range.start)
    (hms : ∀ m ∈ ms, m.range.start < m.range.stop ∧ pos ≤ m.range.start ∧
      IsBoundary t (m.range.start - pos) ∧ IsBoundary t (m.range.stop - pos)) :
    ∃ d : List (Piece L), textOf d = t ∧ marks pos d = ms ∧ Solid d := by
  induction ms generalizing t pos with
  | nil => exact ⟨plain t, textOf_plain t, marks_plain pos t, solid_plain t⟩
  | cons m ms ih =>
    obtain ⟨hlater, hsorted⟩ := List.pairwise_cons.mp hsorted
    obtain ⟨hlt, hpos, hstart, hstop⟩ := hms m List.mem_cons_self
    obtain ⟨u, inside, v, rfl, hu, hinside⟩ := hstart.cut hstop (by omega)
    have hlen : len inside = m.range.stop - m.range.start := by
      rw [len_append] at hinside
      omega
    have hrest : ∀ m' ∈ ms, m'.range.start < m'.range.stop ∧ m.range.stop ≤ m'.range.start ∧
        IsBoundary v (m'.range.start - m.range.stop) ∧ IsBoundary v (m'.range.stop - m.range.stop) := by
      intro m' hm'
      obtain ⟨hlt', -, hstart', hstop'⟩ := hms m' (List.mem_cons_of_mem _ hm')
      have hafter := hlater m' hm'
      have hshift {p : ℕ} (hp : m.range.stop ≤ p) (h : IsBoundary (u ++ inside ++ v) (p - pos)) :
          IsBoundary v (p - m.range.stop) := by
        have hself : IsBoundary (u ++ inside ++ v) (len (u ++ inside)) := ⟨u ++ inside, v, rfl, rfl⟩
        obtain ⟨u', m', v', heq, hu', hm'⟩ := hself.cut h (by omega)
        rw [List.append_assoc u'] at heq
        obtain ⟨rfl, rfl⟩ := append_injective heq hu'.symm
        refine ⟨m', v', rfl, ?_⟩
        rw [len_append] at hm'
        omega
      exact ⟨hlt', hafter, hshift hafter hstart', hshift (by omega) hstop'⟩
    obtain ⟨d, rfl, hmarks, hsolid⟩ := ih _ hsorted hrest
    have hne : inside ≠ [] := by
      rintro rfl
      rw [len_nil] at hlen
      omega
    refine ⟨plain u ++ .atom m.id inside :: d, ?_, ?_, ?_⟩
    · rw [textOf_append, textOf_plain, textOf_atom, List.append_assoc]
    · rw [marks_append, marks_plain, size_plain, marks, List.nil_append]
      have hbegin : pos + len u = m.range.start := by omega
      have hend : pos + len u + len inside = m.range.stop := by omega
      rw [hend, hmarks, hbegin]
    · exact solid_append.mpr ⟨solid_plain u, solid_cons hne hsolid⟩

end Supercodex.Document
