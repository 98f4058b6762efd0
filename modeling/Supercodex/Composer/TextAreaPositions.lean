import Supercodex.Composer.TextArea

/-!
# Positions in a text area (`tui/src/bottom_pane/textarea.rs`)

A text area shows a document: its text is the text of the document and its elements are the marks of the
atoms. The positions that edits are moved to, and the edges of the ranges that edits are widened to, are
then cuts of the document.
-/

namespace Supercodex.Composer

open Positions Document Text

/-- A text area shows a document. -/
structure Shows (s : TextArea) (d : List (Piece ℕ)) : Prop where
  text : s.text = textOf d
  elements : s.elements = marks 0 d
  solid : Solid d

namespace TextArea

variable {s s' : TextArea} {d : List (Piece ℕ)}

/-! ## Character boundaries -/

lemma boundaryBefore_spec (text : Text) (pos : ℕ) : IsBoundary text (boundaryBefore text pos) ∧
    boundaryBefore text pos ≤ pos ∧ ∀ b, IsBoundary text b → b ≤ pos → b ≤ boundaryBefore text pos := by
  induction pos with
  | zero => exact ⟨isBoundary_zero text, le_rfl, fun b _ h => h⟩
  | succ pos ih =>
    rw [boundaryBefore]
    split
    case isTrue h => exact ⟨isCharBoundary_iff.mp h, le_rfl, fun b _ h => h⟩
    case isFalse h =>
      obtain ⟨hboundary, hle, hmax⟩ := ih
      refine ⟨hboundary, by omega, fun b hb hpos => hmax b hb ?_⟩
      have hne : b ≠ pos + 1 := by
        rintro rfl
        exact h (isCharBoundary_iff.mpr hb)
      omega

lemma boundaryAfter_spec {text : Text} {left pos : ℕ} (h : pos + left = len text) :
    IsBoundary text (boundaryAfter text left pos) ∧ pos ≤ boundaryAfter text left pos ∧
      ∀ b, IsBoundary text b → pos ≤ b → boundaryAfter text left pos ≤ b := by
  induction left generalizing pos with
  | zero =>
    have hpos : pos = len text := h
    rw [boundaryAfter, hpos]
    exact ⟨isBoundary_len text, le_rfl, fun b _ h => h⟩
  | succ left ih =>
    rw [boundaryAfter]
    split
    case isTrue h => exact ⟨isCharBoundary_iff.mp h, le_rfl, fun b _ h => h⟩
    case isFalse h' =>
      obtain ⟨hboundary, hle, hmin⟩ := @ih (pos + 1) (by omega)
      refine ⟨hboundary, by omega, fun b hb hpos => hmin b hb ?_⟩
      have hne : b ≠ pos := by
        rintro rfl
        exact h' (isCharBoundary_iff.mpr hb)
      omega

lemma clampPosToCharBoundary_boundary (s : TextArea) (pos : ℕ) :
    IsBoundary s.text (s.clampPosToCharBoundary pos) := by
  rw [clampPosToCharBoundary]
  dsimp only
  split
  case isTrue h => exact isCharBoundary_iff.mp h
  case isFalse =>
    split
    · exact (boundaryBefore_spec s.text _).1
    · exact (boundaryAfter_spec (by omega)).1

variable {pos : ℕ}

lemma clampPosToCharBoundary_of_boundary (h : IsBoundary s.text pos) :
    s.clampPosToCharBoundary pos = pos := by
  rw [clampPosToCharBoundary]
  rw [Nat.min_eq_left h.le_len, if_pos (isCharBoundary_iff.mpr h)]

/-- Clamping keeps the order of positions. -/
lemma clampPosToCharBoundary_mono (s : TextArea) {a b : ℕ} (h : a ≤ b) :
    s.clampPosToCharBoundary a ≤ s.clampPosToCharBoundary b := by
  rw [clampPosToCharBoundary, clampPosToCharBoundary]
  dsimp only
  have hle : min a (len s.text) ≤ min b (len s.text) := by omega
  have hlenA : min a (len s.text) ≤ len s.text := by omega
  have hlenB : min b (len s.text) ≤ len s.text := by omega
  generalize min a (len s.text) = p at hle hlenA ⊢
  generalize min b (len s.text) = q at hle hlenB ⊢
  obtain ⟨hpBefore, hpBeforeLe, hpBeforeMax⟩ := boundaryBefore_spec s.text p
  obtain ⟨hpAfter, hpAfterLe, hpAfterMin⟩ :=
    boundaryAfter_spec (show p + (len s.text - p) = len s.text by omega)
  obtain ⟨hqBefore, hqBeforeLe, hqBeforeMax⟩ := boundaryBefore_spec s.text q
  obtain ⟨hqAfter, hqAfterLe, hqAfterMin⟩ :=
    boundaryAfter_spec (show q + (len s.text - q) = len s.text by omega)
  have hbefore := hqBeforeMax _ hpBefore (by omega)
  have hafter := hpAfterMin _ hqAfter (by omega)
  by_cases hp : isCharBoundary s.text p = true
  · have hp' := hqBeforeMax p (isCharBoundary_iff.mp hp) hle
    rw [if_pos hp]
    split <;> [omega; (split <;> omega)]
  · by_cases hq : isCharBoundary s.text q = true
    · have hq' := hpAfterMin q (isCharBoundary_iff.mp hq) hle
      rw [if_neg hp, if_pos hq]
      split <;> omega
    · rw [if_neg hp, if_neg hq]
      -- either a boundary lies between the two positions, or they have the same neighbours
      rcases Nat.lt_or_ge (boundaryBefore s.text q) p with hsame | hbetween
      · have hsame' := hpBeforeMax _ hqBefore (by omega)
        have hnext : q ≤ boundaryAfter s.text (len s.text - p) p := by
          by_contra hlt
          have hmax := hqBeforeMax _ hpAfter (by omega)
          omega
        have hnext' := hqAfterMin _ hpAfter hnext
        split <;> split <;> omega
      · have hmin := hpAfterMin _ hqBefore hbetween
        split <;> split <;> omega

/-! ## Positions outside elements -/

variable {e : TextElement}

lemma findElementContaining_eq_some (h : s.findElementContaining pos = some e) :
    e ∈ s.elements ∧ e.range.start < pos ∧ pos < e.range.stop := by
  have hprop := List.find?_some h
  rw [Bool.and_eq_true, decide_eq_true_eq, decide_eq_true_eq] at hprop
  exact ⟨List.mem_of_find?_eq_some h, hprop⟩

lemma findElementContaining_eq_none (h : s.findElementContaining pos = none) :
    ∀ e ∈ s.elements, ¬(e.range.start < pos ∧ pos < e.range.stop) := by
  intro e he hinside
  have hprop := List.find?_eq_none.mp h e he
  rw [Bool.and_eq_true, decide_eq_true_eq, decide_eq_true_eq] at hprop
  exact hprop hinside

lemma cut_of_findElementContaining (h : Shows s d) (hpos : IsBoundary s.text pos)
    (hfind : s.findElementContaining pos = none) : Cut d pos := by
  rw [cut_iff h.solid, ← h.text, ← h.elements]
  exact ⟨hpos, findElementContaining_eq_none hfind⟩

lemma cut_of_element (h : Shows s d) (he : e ∈ s.elements) :
    Cut d e.range.start ∧ Cut d e.range.stop := by
  rw [h.elements] at he
  exact cut_of_mark he

lemma cut_clampPosToNearestBoundary (h : Shows s d) (pos : ℕ) : Cut d (s.clampPosToNearestBoundary pos) := by
  have hself {b : ℕ} (hb : Cut d b) : Cut d (s.clampPosToCharBoundary b) := by
    rwa [clampPosToCharBoundary_of_boundary]
    rw [h.text]
    exact hb.isBoundary
  rw [clampPosToNearestBoundary]
  dsimp only
  split
  case h_1 e hfind =>
    obtain ⟨he, -⟩ := findElementContaining_eq_some hfind
    obtain ⟨hstart, hstop⟩ := cut_of_element h he
    split
    · exact hself hstart
    · exact hself hstop
  case h_2 hfind => exact cut_of_findElementContaining h (clampPosToCharBoundary_boundary s pos) hfind

lemma cut_clampPosForInsertion (h : Shows s d) (pos : ℕ) : Cut d (s.clampPosForInsertion pos) :=
  cut_clampPosToNearestBoundary h pos

lemma clampPosForInsertion_of_cut (h : Shows s d) (hpos : Cut d pos) :
    s.clampPosForInsertion pos = pos := by
  have hclamp : s.clampPosToCharBoundary pos = pos := by
    apply clampPosToCharBoundary_of_boundary
    rw [h.text]
    exact hpos.isBoundary
  rw [clampPosForInsertion]
  rw [hclamp]
  split
  case h_1 e hfind =>
    obtain ⟨he, hinside⟩ := findElementContaining_eq_some hfind
    rw [h.elements] at he
    exact absurd hinside (hpos.not_inside h.solid he)
  case h_2 => rfl

/-! ## Ranges over whole elements -/

/-- One range lies within another. -/
def Within (r r' : Span) : Prop := r'.start ≤ r.start ∧ r.stop ≤ r'.stop

lemma Within.trans {r₁ r₂ r₃ : Span} (h : Within r₁ r₂) (h' : Within r₂ r₃) : Within r₁ r₃ :=
  ⟨h'.1.trans h.1, h.2.trans h'.2⟩

lemma Within.antisymm {r r' : Span} (h : Within r r') (h' : Within r' r) : r = r' := by
  cases r
  cases r'
  rw [Span.mk.injEq]
  exact ⟨le_antisymm h'.1 h.1, le_antisymm h.2 h'.2⟩

lemma within_expandOver (r : Span) (e : TextElement) : Within r (expandOver r e) := by
  rw [expandOver]
  split
  · exact ⟨Nat.min_le_left .., Nat.le_max_left ..⟩
  · exact ⟨le_rfl, le_rfl⟩

lemma within_foldl_expandOver (elements : List TextElement) (r : Span) :
    Within r (elements.foldl expandOver r) := by
  induction elements generalizing r with
  | nil => exact ⟨le_rfl, le_rfl⟩
  | cons e elements ih => exact (within_expandOver r e).trans (ih (expandOver r e))

variable {elements : List TextElement} {r : Span}

lemma within_of_foldl_eq (h : elements.foldl expandOver r = r)
    (he : e ∈ elements) : expandOver r e = r := by
  induction elements generalizing e with
  | nil => exact absurd he List.not_mem_nil
  | cons e' elements ih =>
    rw [List.foldl_cons] at h
    have hback : Within (expandOver r e') r := by
      conv => rhs; rw [← h]
      exact within_foldl_expandOver elements (expandOver r e')
    have hsame : expandOver r e' = r := hback.antisymm (within_expandOver r e')
    rw [hsame] at h
    rcases List.mem_cons.mp he with rfl | he
    · exact hsame
    · exact ih h he

/-- The elements that do not lie within a range. -/
def uncovered (elements : List TextElement) (r : Span) : ℕ :=
  elements.countP fun e => !(r.start ≤ e.range.start && e.range.stop ≤ r.stop)

lemma uncovered_le_of_within {r r' : Span} (h : Within r r') :
    uncovered elements r' ≤ uncovered elements r := by
  refine List.countP_mono_left fun e _ he => ?_
  obtain ⟨hstart, hstop⟩ := h
  simp only [Bool.not_eq_true', Bool.and_eq_false_iff, decide_eq_false_iff_not] at he ⊢
  omega

/-- A pass that changes the range covers one more element. -/
lemma uncovered_lt (h : elements.foldl expandOver r ≠ r) :
    uncovered elements (elements.foldl expandOver r) < uncovered elements r := by
  induction elements generalizing r with
  | nil => exact absurd rfl h
  | cons e elements ih =>
    rw [List.foldl_cons] at h ⊢
    have hwithin := within_foldl_expandOver elements (expandOver r e)
    have hmono : uncovered elements (elements.foldl expandOver (expandOver r e)) ≤ uncovered elements r :=
      uncovered_le_of_within ((within_expandOver r e).trans hwithin)
    rw [uncovered, List.countP_cons, uncovered, List.countP_cons]
    change uncovered elements _ + _ < uncovered elements r + _
    by_cases hover : expandOver r e = r
    · rw [hover] at h hwithin ⊢
      have hlt := ih h
      obtain ⟨hstart, hstop⟩ := hwithin
      simp only [Bool.not_eq_true', Bool.and_eq_false_iff, decide_eq_false_iff_not]
      split <;> split <;> omega
    · have hcovered : (elements.foldl expandOver (expandOver r e)).start ≤ e.range.start ∧
          e.range.stop ≤ (elements.foldl expandOver (expandOver r e)).stop := by
        obtain ⟨hstart, hstop⟩ := hwithin
        rw [expandOver] at hstart hstop hover
        split at hover
        case isTrue hmeets =>
          rw [if_pos hmeets] at hstart hstop
          rw [expandOver, if_pos hmeets]
          exact ⟨hstart.trans (Nat.min_le_right ..), (Nat.le_max_right ..).trans hstop⟩
        case isFalse => exact absurd rfl hover
      have hbefore : ¬(r.start ≤ e.range.start ∧ e.range.stop ≤ r.stop) := by
        intro hinside
        refine hover ?_
        rw [expandOver]
        split
        · rw [Nat.min_eq_left hinside.1, Nat.max_eq_left hinside.2]
        · rfl
      simp only [Bool.not_eq_true', Bool.and_eq_false_iff, decide_eq_false_iff_not]
      rw [if_neg (by omega), if_pos (by omega)]
      omega

lemma expandLoop_fixed {rounds : ℕ} (h : uncovered elements r < rounds) :
    elements.foldl expandOver (expandLoop elements rounds r) = expandLoop elements rounds r := by
  induction rounds generalizing r with
  | zero => omega
  | succ rounds ih =>
    rw [expandLoop]
    split
    case isTrue heq => exact heq
    case isFalse hne =>
      have hlt := uncovered_lt hne
      exact ih (by omega)

/-- The loop ends with a range that another pass would not change. -/
theorem expandRange_fixed (s : TextArea) (r : Span) :
    s.elements.foldl expandOver (s.expandRangeToElementBoundaries r) = s.expandRangeToElementBoundaries r :=
  expandLoop_fixed (Nat.lt_succ_of_le List.countP_le_length)

/-- What holds of the edges of a range and of all elements holds of the edges that it gets. -/
lemma expandRange_edges {P : ℕ → Prop} (s : TextArea) (hstart : P r.start) (hstop : P r.stop)
    (helements : ∀ e ∈ s.elements, P e.range.start ∧ P e.range.stop) :
    P (s.expandRangeToElementBoundaries r).start ∧ P (s.expandRangeToElementBoundaries r).stop := by
  have hover (r : Span) (h : P r.start ∧ P r.stop) (e : TextElement) (he : e ∈ s.elements) :
      P (expandOver r e).start ∧ P (expandOver r e).stop := by
    rw [expandOver]
    split
    · constructor
      · show P (min r.start e.range.start)
        rcases min_choice r.start e.range.start with heq | heq
        · rw [heq]
          exact h.1
        · rw [heq]
          exact (helements e he).1
      · show P (max r.stop e.range.stop)
        rcases max_choice r.stop e.range.stop with heq | heq
        · rw [heq]
          exact h.2
        · rw [heq]
          exact (helements e he).2
    · exact h
  have hpass (r : Span) (h : P r.start ∧ P r.stop) :
      P (s.elements.foldl expandOver r).start ∧ P (s.elements.foldl expandOver r).stop :=
    List.foldlRecOn s.elements expandOver h fun r hr e he => hover r hr e he
  have hloop (rounds : ℕ) (r : Span) (h : P r.start ∧ P r.stop) :
      P (expandLoop s.elements rounds r).start ∧ P (expandLoop s.elements rounds r).stop := by
    induction rounds generalizing r with
    | zero => exact h
    | succ rounds ih =>
      rw [expandLoop]
      split
      · exact h
      · exact ih _ (hpass r h)
  exact hloop _ r ⟨hstart, hstop⟩

lemma cut_expandRange (h : Shows s d) (hstart : IsBoundary s.text r.start)
    (hstop : IsBoundary s.text r.stop)
    (hle : (s.expandRangeToElementBoundaries r).start ≤ (s.expandRangeToElementBoundaries r).stop) :
    Cut d (s.expandRangeToElementBoundaries r).start ∧ Cut d (s.expandRangeToElementBoundaries r).stop := by
  obtain ⟨hstart', hstop'⟩ := expandRange_edges (P := IsBoundary s.text) s hstart hstop fun e he => by
    rw [h.text]
    exact ⟨(cut_of_element h he).1.isBoundary, (cut_of_element h he).2.isBoundary⟩
  have hfixed := expandRange_fixed s r
  generalize s.expandRangeToElementBoundaries r = range at hle hstart' hstop' hfixed
  have hinside (e : TextElement) (he : e ∈ s.elements) (hmeets : e.range.start < range.stop ∧
      range.start < e.range.stop) : range.start ≤ e.range.start ∧ e.range.stop ≤ range.stop := by
    have hover := within_of_foldl_eq hfixed he
    rw [expandOver, if_pos (by simpa using hmeets)] at hover
    constructor
    · rw [← congrArg Span.start hover]
      exact Nat.min_le_right ..
    · rw [← congrArg Span.stop hover]
      exact Nat.le_max_right ..
  rw [cut_iff h.solid, cut_iff h.solid, ← h.text, ← h.elements]
  refine ⟨⟨hstart', fun e he hcontains => ?_⟩, hstop', fun e he hcontains => ?_⟩
  · have hwithin := hinside e he (by omega)
    omega
  · have hwithin := hinside e he (by omega)
    omega

end TextArea

end Supercodex.Composer
