import Supercodex.Composer.TextAreaEdits
import Supercodex.Library.Runs

/-!
# Elements stay whole (`tui/src/bottom_pane/textarea.rs`)

Every operation of a text area that shows a document makes another document of it, in which an atom of
the former one is there as it was or not at all. The cursor stays between two characters, and outside
all elements as long as no element is put over it.
-/

namespace Supercodex.Composer

open Positions Document Text Runs TextArea

/-- What the other crates document: segmentation parts a text between its characters. -/
structure Crates.Documented (crates : Crates) : Prop where
  prevBoundary : ∀ t pos b, IsBoundary t pos → crates.prevBoundary t pos = .ok (some b) → IsBoundary t b
  prevBoundary_ok : ∀ t pos, IsBoundary t pos → crates.prevBoundary t pos ≠ .error ()
  nextBoundary : ∀ t pos b, IsBoundary t pos → crates.nextBoundary t pos = .ok (some b) → IsBoundary t b
  nextBoundary_ok : ∀ t pos, IsBoundary t pos → crates.nextBoundary t pos ≠ .error ()
  flatten_graphemes : ∀ t, (crates.graphemes t).flatten = t
  flatten_splitWordBounds : ∀ t, (crates.splitWordBounds t).flatten = t

variable {crates : Crates} {s s' : TextArea} {d : List (Piece ℕ)}

namespace TextArea

/-! ## Positions of words and lines -/

lemma mem_withOffsets {pos i : ℕ} {pieces : List Text} {piece : Text}
    (h : (i, piece) ∈ withOffsets pos pieces) :
    ∃ u v, pieces.flatten = u ++ piece ++ v ∧ i = pos + len u := by
  induction pieces generalizing pos with
  | nil => exact absurd h List.not_mem_nil
  | cons p pieces ih =>
    rw [withOffsets, List.mem_cons] at h
    rcases h with heq | h
    · cases heq
      exact ⟨[], pieces.flatten, rfl, rfl⟩
    obtain ⟨u, v, hflatten, rfl⟩ := ih h
    refine ⟨p ++ u, v, ?_, ?_⟩
    · rw [List.flatten_cons, hflatten]
      simp only [List.append_assoc]
    · rw [len_append, Nat.add_assoc]

lemma mem_splitWordPieces (hcrates : crates.Documented) {run piece : Text} {i : ℕ}
    (h : (i, piece) ∈ splitWordPieces crates run) : ∃ u v, run = u ++ piece ++ v ∧ i = len u := by
  rw [splitWordPieces, List.mem_flatMap] at h
  obtain ⟨⟨segmentStart, segment⟩, hsegment, hpiece⟩ := h
  obtain ⟨u, v, hrun, rfl⟩ := mem_withOffsets hsegment
  obtain ⟨u', v', hflatten, rfl⟩ := mem_withOffsets hpiece
  rw [hcrates.flatten_splitWordBounds] at hrun
  rw [List.flatten_splitBy] at hflatten
  refine ⟨u ++ u', v' ++ v, ?_, ?_⟩
  · rw [hrun, hflatten]
    simp only [List.append_assoc]
  · rw [len_append, Nat.zero_add]

variable {pos : ℕ}

lemma boundary_adjustPos (h : Shows s d) (hpos : IsBoundary s.text pos) (preferStart : Bool) :
    IsBoundary s.text (s.adjustPosOutOfElements pos preferStart) := by
  rw [adjustPosOutOfElements]
  split
  case h_1 e hfind =>
    obtain ⟨he, -⟩ := findElementContaining_eq_some hfind
    obtain ⟨hstart, hstop⟩ := cut_of_element h he
    rw [h.text]
    split
    · exact hstart.isBoundary
    · exact hstop.isBoundary
  case h_2 => exact hpos

/-- A word begins between two characters. -/
lemma boundary_beginningOfPreviousWord (hcrates : crates.Documented) (h : Shows s d)
    (happly : s.beginningOfPreviousWord crates = some pos) : IsBoundary s.text pos := by
  rw [beginningOfPreviousWord, Option.bind_eq_bind, Option.bind_eq_some_iff] at happly
  obtain ⟨⟨before, after⟩, hsplit, happly⟩ := happly
  obtain ⟨htext, -⟩ := splitAt_eq_some_iff.mp hsplit
  dsimp only at happly
  split at happly
  case isTrue =>
    cases happly
    exact isBoundary_zero s.text
  case isFalse =>
    obtain ⟨blank, hblank⟩ := trimEnd_isInitial before
    have hrun : (trimEnd before).rdropWhile (!isWhitespace ·) ++ (trimEnd before).rtakeWhile (!isWhitespace ·) =
        trimEnd before := List.rdropWhile_append_rtakeWhile ..
    generalize (trimEnd before).rdropWhile (!isWhitespace ·) = head at happly hrun
    generalize (trimEnd before).rtakeWhile (!isWhitespace ·) = run at happly hrun
    rw [← hblank, ← hrun] at htext
    have hpiece {i : ℕ} {piece : Text} (hmem : (i, piece) ∈ splitWordPieces crates run) :
        IsBoundary s.text (len head + i) := by
      obtain ⟨u, v, rfl, rfl⟩ := mem_splitWordPieces hcrates hmem
      refine ⟨head ++ u, piece ++ v ++ blank ++ after, ?_, len_append head u⟩
      rw [htext]
      simp only [List.append_assoc]
    split at happly
    case h_1 =>
      cases happly
      refine ⟨head, run ++ blank ++ after, ?_, rfl⟩
      rw [htext]
      simp only [List.append_assoc]
    case h_2 pieceStart piece pieces hpieces =>
      have hmem {p : ℕ × Text} (hp : p ∈ (pieceStart, piece) :: pieces) : p ∈ splitWordPieces crates run := by
        rw [← List.mem_reverse, hpieces]
        exact hp
      cases happly
      refine boundary_adjustPos h ?_ true
      split
      · split
        case h_1 idx last hlast =>
          have hlast := List.mem_of_getLast? hlast
          exact hpiece (hmem (List.mem_cons_of_mem _ ((List.takeWhile_sublist _).subset hlast)))
        case h_2 => exact hpiece (hmem List.mem_cons_self)
      · exact hpiece (hmem List.mem_cons_self)

/-- A word ends between two characters. -/
lemma boundary_endOfNextWord (hcrates : crates.Documented) (h : Shows s d)
    (happly : s.endOfNextWord crates = some pos) : IsBoundary s.text pos := by
  rw [endOfNextWord, Option.bind_eq_bind, Option.bind_eq_some_iff] at happly
  obtain ⟨⟨before, after⟩, hsplit, happly⟩ := happly
  obtain ⟨htext, hcursor⟩ := splitAt_eq_some_iff.mp hsplit
  dsimp only at happly
  split at happly
  case isTrue =>
    cases happly
    exact isBoundary_len s.text
  case isFalse =>
    have hblank : after.takeWhile isWhitespace ++ trimStart after = after := List.takeWhile_append_dropWhile ..
    have hrun : (trimStart after).takeWhile (!isWhitespace ·) ++ (trimStart after).dropWhile (!isWhitespace ·) =
        trimStart after := List.takeWhile_append_dropWhile ..
    generalize (trimStart after).takeWhile (!isWhitespace ·) = run at happly hrun
    generalize (trimStart after).dropWhile (!isWhitespace ·) = rest at hrun
    generalize after.takeWhile isWhitespace = blank at happly hblank
    rw [← hblank, ← hrun] at htext
    have hpiece {i : ℕ} {piece : Text} (hmem : (i, piece) ∈ splitWordPieces crates run) :
        IsBoundary s.text (s.cursorPos + len blank + i + len piece) := by
      obtain ⟨u, v, rfl, rfl⟩ := mem_splitWordPieces hcrates hmem
      refine ⟨before ++ blank ++ u ++ piece, v ++ rest, ?_, ?_⟩
      · rw [htext]
        simp only [List.append_assoc]
      · simp only [len_append, hcursor]
    split at happly
    case h_1 =>
      cases happly
      refine ⟨before ++ blank, run ++ rest, ?_, ?_⟩
      · rw [htext]
        simp only [List.append_assoc]
      · rw [len_append, hcursor]
    case h_2 start piece pieces hpieces =>
      cases happly
      refine boundary_adjustPos h ?_ false
      have hfirst : (start, piece) ∈ splitWordPieces crates run := by
        rw [hpieces]
        exact List.mem_cons_self
      split
      · split
        case h_1 idx last hlast =>
          have hlast := (List.takeWhile_sublist _).subset (List.mem_of_getLast? hlast)
          refine hpiece ?_
          rw [hpieces]
          exact List.mem_cons_of_mem _ hlast
        case h_2 => exact hpiece hfirst
      · exact hpiece hfirst

lemma boundary_beginningOfLine {pos bol : ℕ} (happly : s.beginningOfLine pos = some bol) :
    IsBoundary s.text bol ∧ (0 < bol → IsBoundary s.text (bol - 1)) := by
  rw [beginningOfLine, Option.bind_eq_bind, Option.bind_eq_some_iff] at happly
  obtain ⟨⟨before, after⟩, hsplit, happly⟩ := happly
  obtain ⟨htext, -⟩ := splitAt_eq_some_iff.mp hsplit
  dsimp only at happly
  cases hfind : rfind '\n' before with
  | none =>
    rw [hfind] at happly
    cases happly
    exact ⟨isBoundary_zero s.text, fun h => absurd h (Nat.lt_irrefl 0)⟩
  | some nl =>
    rw [hfind] at happly
    cases happly
    obtain ⟨u, v, rfl, rfl⟩ := rfind_eq_some hfind
    refine ⟨⟨u ++ ['\n'], v ++ after, ?_, ?_⟩, fun _ => ⟨u, '\n' :: v ++ after, ?_, rfl⟩⟩
    · rw [htext]
      simp
    · rw [len_append]
      rfl
    · rw [htext, List.append_assoc]

lemma boundary_endOfLine {pos eol : ℕ} (happly : s.endOfLine pos = some eol) :
    IsBoundary s.text eol ∧ (eol < len s.text → IsBoundary s.text (eol + 1)) := by
  rw [endOfLine, Option.bind_eq_bind, Option.bind_eq_some_iff] at happly
  obtain ⟨⟨before, after⟩, hsplit, happly⟩ := happly
  obtain ⟨htext, hpos⟩ := splitAt_eq_some_iff.mp hsplit
  dsimp only at happly
  cases hfind : find '\n' after with
  | none =>
    rw [hfind] at happly
    cases happly
    exact ⟨isBoundary_len s.text, fun h => absurd h (Nat.lt_irrefl _)⟩
  | some nl =>
    rw [hfind] at happly
    cases happly
    obtain ⟨u, v, rfl, rfl, -⟩ := find_eq_some hfind
    refine ⟨⟨before ++ u, '\n' :: v, ?_, ?_⟩, fun _ => ⟨before ++ u ++ ['\n'], v, ?_, ?_⟩⟩
    · rw [htext, List.append_assoc]
    · rw [len_append, hpos, Nat.add_comm]
      rfl
    · rw [htext]
      simp
    · rw [len_append, len_append, hpos, Nat.add_comm pos]
      rfl

/-! ## Positions of graphemes -/

lemma cut_prevAtomicBoundary (hcrates : crates.Documented) (h : Shows s d)
    (hpos : IsBoundary s.text pos) : Cut d (s.prevAtomicBoundary crates pos) := by
  rw [prevAtomicBoundary]
  split
  case isTrue => exact cut_zero d
  case isFalse =>
    split
    case h_1 e hfind => exact (cut_of_element h (List.mem_of_find?_eq_some hfind)).1
    case h_2 =>
      split
      case h_1 b hprev =>
        have hb := hcrates.prevBoundary s.text pos b hpos hprev
        cases hfind : s.findElementContaining b with
        | none => exact cut_of_findElementContaining h hb hfind
        | some e => exact (cut_of_element h (findElementContaining_eq_some hfind).1).1
      case h_2 => exact cut_zero d
      case h_3 e herror => exact absurd herror (hcrates.prevBoundary_ok s.text pos hpos)

lemma cut_len (h : Shows s d) : Cut d (len s.text) := by
  rw [h.text]
  exact cut_size d

lemma cut_nextAtomicBoundary (hcrates : crates.Documented) (h : Shows s d)
    (hpos : IsBoundary s.text pos) : Cut d (s.nextAtomicBoundary crates pos) := by
  rw [nextAtomicBoundary]
  split
  case isTrue => exact cut_len h
  case isFalse =>
    split
    case h_1 e hfind => exact (cut_of_element h (List.mem_of_find?_eq_some hfind)).2
    case h_2 =>
      split
      case h_1 b hnext =>
        have hb := hcrates.nextBoundary s.text pos b hpos hnext
        cases hfind : s.findElementContaining b with
        | none => exact cut_of_findElementContaining h hb hfind
        | some e => exact (cut_of_element h (findElementContaining_eq_some hfind).1).2
      case h_2 => exact cut_len h
      case h_3 e herror => exact absurd herror (hcrates.nextBoundary_ok s.text pos hpos)

lemma boundary_targetBackward (hcrates : crates.Documented) (h : Shows s d) (n : ℕ) {target : ℕ}
    (htarget : IsBoundary s.text target) : IsBoundary s.text (s.targetBackward crates n target) := by
  induction n generalizing target with
  | zero => exact htarget
  | succ n ih =>
    have hprev : IsBoundary s.text (s.prevAtomicBoundary crates target) := by
      rw [h.text]
      exact (cut_prevAtomicBoundary hcrates h htarget).isBoundary
    rw [targetBackward]
    split
    · exact hprev
    · exact ih hprev

lemma boundary_targetForward (hcrates : crates.Documented) (h : Shows s d) (n : ℕ) {target : ℕ}
    (htarget : IsBoundary s.text target) : IsBoundary s.text (s.targetForward crates n target) := by
  induction n generalizing target with
  | zero => exact htarget
  | succ n ih =>
    have hnext : IsBoundary s.text (s.nextAtomicBoundary crates target) := by
      rw [h.text]
      exact (cut_nextAtomicBoundary hcrates h htarget).isBoundary
    rw [targetForward]
    split
    · exact hnext
    · exact ih hnext

/-! ## Operations that create no elements -/

/-- The operation left some of the elements as they were and no others. -/
def Kept (s : TextArea) (d : List (Piece ℕ)) (s' : TextArea) : Prop :=
  ∃ d', Edited s d s' d' ∧ (atoms d').Sublist (atoms d)

lemma kept_of_shown (h : Shows s d) (htext : s'.text = s.text) (helements : s'.elements = s.elements)
    (hcursor : Cut d s'.cursorPos) : Kept s d s' :=
  ⟨d, edited_of_cut ⟨htext.trans h.text, helements.trans h.elements, h.solid⟩ hcursor, List.Sublist.refl _⟩

lemma kept_refl (h : Shows s d) : Kept s d s := ⟨d, edited_refl h, List.Sublist.refl _⟩

lemma kept_of_replaced {text : Text} (h : ∃ d₁ mid d₂, d = d₁ ++ mid ++ d₂ ∧
    Edited s d s' (d₁ ++ plain text ++ d₂)) : Kept s d s' := by
  obtain ⟨d₁, mid, d₂, rfl, hedited⟩ := h
  refine ⟨_, hedited, ?_⟩
  rw [atoms_append, atoms_append, atoms_append, atoms_append, atoms_plain]
  exact ((List.nil_sublist _).append_left _).append_right _

lemma kept_insertStrAt (h : Shows s d) {text : Text} (happly : s.insertStrAt pos text = some s') :
    Kept s d s' := by
  obtain ⟨d₁, d₂, hd, -, hedited, -⟩ := insertStrAt_spec h happly
  exact kept_of_replaced ⟨d₁, [], d₂, by rw [List.append_nil, hd], hedited⟩

lemma kept_replaceRange (h : Shows s d) {range : Span} {text : Text} (hstart : IsBoundary s.text range.start)
    (hstop : IsBoundary s.text range.stop) (happly : s.replaceRange range text = some s') : Kept s d s' :=
  kept_of_replaced (replaceRange_spec h hstart hstop happly)

lemma kept_killRange (h : Shows s d) {range : Span} (hstart : IsBoundary s.text range.start)
    (hstop : IsBoundary s.text range.stop) (happly : s.killRange range = some s') : Kept s d s' :=
  kept_of_replaced (killRange_spec h hstart hstop happly)

lemma kept_setCursor (h : Shows s d) (pos : ℕ) : Kept s d (s.setCursor pos) :=
  ⟨d, setCursor_spec h pos, List.Sublist.refl _⟩

section

variable (hcrates : crates.Documented)
include hcrates

lemma kept_deleteBackward (h : Shows s d)
    (hcursor : IsBoundary s.text s.cursorPos) {n : ℕ} (happly : s.deleteBackward crates n = some s') :
    Kept s d s' := by
  rw [deleteBackward] at happly
  split at happly
  · cases happly
    exact kept_refl h
  · exact kept_replaceRange h (boundary_targetBackward hcrates h n hcursor) hcursor happly

lemma kept_deleteForward (h : Shows s d)
    (hcursor : IsBoundary s.text s.cursorPos) {n : ℕ} (happly : s.deleteForward crates n = some s') :
    Kept s d s' := by
  rw [deleteForward] at happly
  split at happly
  · cases happly
    exact kept_refl h
  · exact kept_replaceRange h hcursor (boundary_targetForward hcrates h n hcursor) happly

lemma kept_deleteBackwardWord (h : Shows s d)
    (hcursor : IsBoundary s.text s.cursorPos) (happly : s.deleteBackwardWord crates = some s') :
    Kept s d s' := by
  rw [deleteBackwardWord, Option.bind_eq_bind, Option.bind_eq_some_iff] at happly
  obtain ⟨start, hstart, happly⟩ := happly
  exact kept_killRange h (boundary_beginningOfPreviousWord hcrates h hstart) hcursor happly

lemma kept_deleteForwardWord (h : Shows s d)
    (hcursor : IsBoundary s.text s.cursorPos) (happly : s.deleteForwardWord crates = some s') :
    Kept s d s' := by
  rw [deleteForwardWord, Option.bind_eq_bind, Option.bind_eq_some_iff] at happly
  obtain ⟨stop, hstop, happly⟩ := happly
  split at happly
  · exact kept_killRange h hcursor (boundary_endOfNextWord hcrates h hstop) happly
  · cases happly
    exact kept_refl h

end

section

variable (h : Shows s d)
include h

lemma kept_killToEndOfLine (hcursor : IsBoundary s.text s.cursorPos)
    (happly : s.killToEndOfLine = some s') : Kept s d s' := by
  rw [killToEndOfLine, Option.bind_eq_bind, Option.bind_eq_some_iff] at happly
  obtain ⟨eol, heol, happly⟩ := happly
  obtain ⟨hstop, hnext⟩ := boundary_endOfLine heol
  split at happly
  · split at happly
    case isTrue hlt => exact kept_killRange h hcursor (hnext hlt) happly
    case isFalse =>
      cases happly
      exact kept_refl h
  · exact kept_killRange h hcursor hstop happly

lemma kept_killToBeginningOfLine (hcursor : IsBoundary s.text s.cursorPos)
    (happly : s.killToBeginningOfLine = some s') : Kept s d s' := by
  rw [killToBeginningOfLine, Option.bind_eq_bind, Option.bind_eq_some_iff] at happly
  obtain ⟨bol, hbol, happly⟩ := happly
  obtain ⟨hstart, hprev⟩ := boundary_beginningOfLine hbol
  split at happly
  · split at happly
    case isTrue hlt => exact kept_killRange h (hprev hlt) hstart happly
    case isFalse =>
      cases happly
      exact kept_refl h
  · exact kept_killRange h hstart hcursor happly

lemma kept_yank (happly : s.yank = some s') : Kept s d s' := by
  rw [yank] at happly
  split at happly
  · cases happly
    exact kept_refl h
  · exact kept_insertStrAt h happly

lemma kept_moveToDisplayColOnLine {lineStart lineEnd targetCol : ℕ} {col : Option ℕ}
    (happly : moveToDisplayColOnLine crates { s with preferredCol := col } lineStart lineEnd targetCol =
      some s') : Kept s d s' := by
  rw [moveToDisplayColOnLine, Option.bind_eq_bind, Option.bind_eq_some_iff] at happly
  obtain ⟨line, -, happly⟩ := happly
  cases happly
  refine kept_of_shown h rfl rfl ?_
  apply cut_clampPosToNearestBoundary
  exact ⟨h.text, h.elements, h.solid⟩

lemma kept_moveCursorUp (happly : s.moveCursorUp crates = some s') : Kept s d s' := by
  have hfirst : Kept s d { s with cursorPos := 0, preferredCol := none } :=
    kept_of_shown h rfl rfl (cut_zero d)
  rw [moveCursorUp] at happly
  split at happly
  · simp only [Option.bind_eq_bind, Option.bind_eq_some_iff] at happly
    obtain ⟨cur, -, col, -, happly⟩ := happly
    split at happly
    · rw [Option.bind_eq_some_iff] at happly
      obtain ⟨prev, -, happly⟩ := happly
      exact kept_moveToDisplayColOnLine h happly
    · cases happly
      exact hfirst
  · simp only [Option.bind_eq_bind, Option.bind_eq_some_iff] at happly
    obtain ⟨⟨before, after⟩, -, happly⟩ := happly
    split at happly
    · simp only [Option.bind_eq_some_iff] at happly
      obtain ⟨bol, -, col, -, start, -, happly⟩ := happly
      exact kept_moveToDisplayColOnLine h happly
    · cases happly
      exact hfirst

lemma kept_moveCursorDown (happly : s.moveCursorDown crates = some s') : Kept s d s' := by
  have hlast : Kept s d { s with cursorPos := len s.text, preferredCol := none } :=
    kept_of_shown h rfl rfl (cut_len h)
  rw [moveCursorDown] at happly
  split at happly
  · simp only [Option.bind_eq_bind, Option.bind_eq_some_iff] at happly
    obtain ⟨cur, -, col, -, happly⟩ := happly
    split at happly
    · rw [Option.bind_eq_some_iff] at happly
      obtain ⟨next, -, happly⟩ := happly
      exact kept_moveToDisplayColOnLine h happly
    · cases happly
      exact hlast
  · simp only [Option.bind_eq_bind, Option.bind_eq_some_iff] at happly
    obtain ⟨bol, -, col, -, ⟨before, after⟩, -, happly⟩ := happly
    split at happly
    · rw [Option.bind_eq_some_iff] at happly
      obtain ⟨stop, -, happly⟩ := happly
      exact kept_moveToDisplayColOnLine h happly
    · cases happly
      exact hlast

lemma kept_moveCursorToBeginningOfLine {moveUpAtBol : Bool}
    (happly : s.moveCursorToBeginningOfLine moveUpAtBol = some s') : Kept s d s' := by
  rw [moveCursorToBeginningOfLine, Option.bind_eq_bind, Option.bind_eq_some_iff] at happly
  obtain ⟨bol, -, happly⟩ := happly
  split at happly
  · rw [Option.bind_eq_some_iff] at happly
    obtain ⟨start, -, happly⟩ := happly
    cases happly
    exact kept_setCursor h start
  · cases happly
    exact kept_setCursor h bol

lemma kept_moveCursorToEndOfLine {moveDownAtEol : Bool}
    (happly : s.moveCursorToEndOfLine moveDownAtEol = some s') : Kept s d s' := by
  rw [moveCursorToEndOfLine, Option.bind_eq_bind, Option.bind_eq_some_iff] at happly
  obtain ⟨eol, -, happly⟩ := happly
  split at happly
  · rw [Option.bind_eq_some_iff] at happly
    obtain ⟨stop, -, happly⟩ := happly
    cases happly
    exact kept_setCursor h stop
  · cases happly
    exact kept_setCursor h eol

lemma kept_wrappedLines (width : ℕ) : Kept s d (s.wrappedLines crates width) := by
  rw [wrappedLines]
  split
  · exact kept_refl h
  · exact ⟨d, ⟨⟨h.text, h.elements, h.solid⟩, fun hcursor => hcursor, fun hcursor => hcursor⟩,
      List.Sublist.refl _⟩

end

end TextArea

/-! ## Operations -/

/-- What callers see to: ranges that are not on top of each other, bounds between characters and
elements with a text. -/
def Op.Ok (s : TextArea) : Op → Prop
  | .setTextWithElements _ elements => elements.Pairwise TextArea.Disjoint
  | .replaceRange range _ => isCharBoundary s.text range.start ∧ isCharBoundary s.text range.stop
  | .insertElement text => text ≠ []
  | .replaceElementPayload _ new => new ≠ []
  | _ => True

/-- No element is put over the cursor: it is at an edge of the range or outside, or the range is not
taken because of another element. -/
def Op.ClearOfCursor (s : TextArea) : Op → Prop
  | .addElementRange range =>
    ¬((s.clampRange range).start < s.cursorPos ∧ s.cursorPos < (s.clampRange range).stop) ∨
      s.overlapsElement (s.clampRange range)
  | _ => True

/-- The elements, each with its id and its text. -/
def TextArea.namedTexts (s : TextArea) : List (ℕ × Text) :=
  s.textElementSnapshots.map fun e => (e.id, e.text)

/-- What an operation leaves of the elements: they go or stay as they were, in their order, one may be
created, and renaming changes the text of one. A new text has new elements. -/
def Op.Keeps : Op → List (ℕ × Text) → List (ℕ × Text) → Prop
  | .setTextClearingElements _, _, after => after = []
  | .setTextWithElements _ _, _, _ => True
  | .insertElement text, before, after => ∃ left right id, before = left ++ right ∧
      after = left ++ (id, text) :: right
  | .addElementRange _, before, after => after = before ∨ ∃ left right id text, before = left ++ right ∧
      after = left ++ (id, text) :: right
  | .replaceElementPayload old new, before, after => after = before ∨ ∃ left right id,
      before = left ++ (id, old) :: right ∧ after = left ++ (id, new) :: right
  | _, before, after => after.Sublist before

namespace TextArea

lemma namedTexts_eq (h : Shows s d) : s.namedTexts = atoms d := by
  rw [namedTexts, textElementSnapshots, List.map_filterMap, h.elements, h.text, atoms_eq]
  refine List.filterMap_congr fun e _ => ?_
  rw [Option.map_map]
  rfl

/-- What an operation makes of a text area: it shows a document again, with the cursor between characters,
and outside the elements if it was there, and with the elements that the operation keeps. -/
structure Reshows (op : Op) (s : TextArea) (d : List (Piece ℕ)) (s' : TextArea) (d' : List (Piece ℕ)) :
    Prop where
  shown : Shows s' d'
  boundary : IsBoundary s'.text s'.cursorPos
  cut : op.ClearOfCursor s → Cut d s.cursorPos → Cut d' s'.cursorPos
  keeps : op.Keeps (atoms d) (atoms d')

lemma apply_addElementRange (h : Shows s d) (hcursor : IsBoundary s.text s.cursorPos) (range : Span) :
    ∃ d', Reshows (.addElementRange range) s d (s.addElementRange range).2 d' := by
  rcases addElementRange_spec h range with hnone | ⟨hoverlap, d₁, text, d₂, rfl, hstart, hstop, hadded, htext,
    hsame⟩
  · rw [hnone]
    exact ⟨d, h, hcursor, fun _ hcut => hcut, .inl rfl⟩
  refine ⟨_, hadded, by rwa [htext, hsame], fun hclear hcut => ?_, .inr ?_⟩
  · rw [hsame, cut_iff hadded.solid, ← hadded.text, htext]
    rw [cut_iff h.solid, ← h.text] at hcut
    refine ⟨hcut.1, fun m hm hinside => ?_⟩
    rw [marks_append, marks, List.mem_append, List.mem_cons] at hm
    rcases hm with hm | rfl | hm
    · refine hcut.2 m ?_ hinside
      rw [marks_append, marks_append]
      exact List.mem_append_left _ (List.mem_append_left _ hm)
    · rw [Op.ClearOfCursor, hoverlap, hstart, hstop] at hclear
      refine hclear.elim (fun hclear => hclear ?_) (fun htrue => Bool.false_ne_true htrue)
      rw [Nat.zero_add] at hinside
      exact hinside
    · refine hcut.2 m ?_ hinside
      rw [marks_append, marks_append, size_append, size_plain, ← Nat.add_assoc]
      exact List.mem_append_right _ hm
  · refine ⟨atoms d₁, atoms d₂, s.nextElementId, text, ?_, ?_⟩
    · rw [atoms_append, atoms_append, atoms_plain, List.append_nil]
    · rw [atoms_append, atoms]

lemma reshows_of_edited {op : Op} {d' : List (Piece ℕ)} (h : Edited s d s' d')
    (hcursor : IsBoundary s.text s.cursorPos) (hkeeps : op.Keeps (atoms d) (atoms d')) :
    ∃ d', Reshows op s d s' d' :=
  ⟨d', h.shown, h.boundary hcursor, fun _ => h.cut, hkeeps⟩

/-- Most operations only edit. -/
lemma Kept.reshows {op : Op} (h : Kept s d s') (hcursor : IsBoundary s.text s.cursorPos)
    (hkeeps : op.Keeps = fun before after => after.Sublist before := by rfl) :
    ∃ d', Reshows op s d s' d' := by
  obtain ⟨d', hd', hsublist⟩ := h
  exact reshows_of_edited hd' hcursor (by rwa [hkeeps])

/-- What every operation makes of a text area that shows a document. -/
lemma apply_spec (hcrates : crates.Documented) (h : Shows s d) (hcursor : IsBoundary s.text s.cursorPos)
    {op : Op} (hok : op.Ok s) (happly : s.apply crates op = some s') : ∃ d', Reshows op s d s' d' := by
  cases op with
  | setTextClearingElements text =>
    cases happly
    exact reshows_of_edited (setTextClearingElements_spec s d text) hcursor (atoms_plain text)
  | setTextWithElements text elements =>
    cases happly
    obtain ⟨d', hd'⟩ := setTextWithElements_spec s d text hok
    exact reshows_of_edited hd' hcursor trivial
  | insertElement text =>
    rw [apply, Option.map_eq_some_iff] at happly
    obtain ⟨⟨id, s''⟩, happly, rfl⟩ := happly
    obtain ⟨d₁, d₂, rfl, rfl, hd'⟩ := insertElement_spec h hok happly
    exact reshows_of_edited hd' hcursor
      ⟨atoms d₁, atoms d₂, s.nextElementId, atoms_append .., by rw [atoms_append, atoms]⟩
  | addElementRange range =>
    cases happly
    exact apply_addElementRange h hcursor range
  | removeElementRange range =>
    cases happly
    obtain ⟨d', hd', hkeeps⟩ := removeElementRange_spec h range
    exact reshows_of_edited hd' hcursor hkeeps
  | replaceElementPayload old new =>
    rw [apply, Option.map_eq_some_iff] at happly
    obtain ⟨⟨found, s''⟩, happly, rfl⟩ := happly
    rcases replaceElementPayload_spec h hok happly with ⟨-, hsame, -⟩ | ⟨-, d₁, id, d₂, rfl, -, hd'⟩
    · dsimp only at hsame ⊢
      rw [hsame]
      exact ⟨d, h, hcursor, fun _ hcut => hcut, .inl rfl⟩
    · refine reshows_of_edited hd' hcursor (.inr ⟨atoms d₁, atoms d₂, id, ?_, ?_⟩)
      · rw [atoms_append, atoms]
      · rw [atoms_append, atoms]
  | insertStr text | insertStrAt pos text => exact (kept_insertStrAt h happly).reshows hcursor
  | replaceRange range text =>
    exact (kept_replaceRange h (isCharBoundary_iff.mp hok.1) (isCharBoundary_iff.mp hok.2)
      happly).reshows hcursor
  | deleteBackward n => exact (kept_deleteBackward hcrates h hcursor happly).reshows hcursor
  | deleteForward n => exact (kept_deleteForward hcrates h hcursor happly).reshows hcursor
  | deleteBackwardWord => exact (kept_deleteBackwardWord hcrates h hcursor happly).reshows hcursor
  | deleteForwardWord => exact (kept_deleteForwardWord hcrates h hcursor happly).reshows hcursor
  | killToEndOfLine => exact (kept_killToEndOfLine h hcursor happly).reshows hcursor
  | killToBeginningOfLine => exact (kept_killToBeginningOfLine h hcursor happly).reshows hcursor
  | yank => exact (kept_yank h happly).reshows hcursor
  | setCursor pos =>
    cases happly
    exact reshows_of_edited (setCursor_spec h pos) hcursor (List.Sublist.refl _)
  | moveCursorLeft =>
    cases happly
    have hkept : Kept s d (s.moveCursorLeft crates) :=
      kept_of_shown h rfl rfl (cut_prevAtomicBoundary hcrates h hcursor)
    exact hkept.reshows hcursor
  | moveCursorRight =>
    cases happly
    have hkept : Kept s d (s.moveCursorRight crates) :=
      kept_of_shown h rfl rfl (cut_nextAtomicBoundary hcrates h hcursor)
    exact hkept.reshows hcursor
  | moveCursorUp => exact (kept_moveCursorUp h happly).reshows hcursor
  | moveCursorDown => exact (kept_moveCursorDown h happly).reshows hcursor
  | moveCursorToBeginningOfLine moveUpAtBol =>
    exact (kept_moveCursorToBeginningOfLine h happly).reshows hcursor
  | moveCursorToEndOfLine moveDownAtEol =>
    exact (kept_moveCursorToEndOfLine h happly).reshows hcursor
  | wrappedLines width =>
    cases happly
    exact (kept_wrappedLines h width).reshows hcursor

end TextArea

/-! ## Runs -/

/-- One operation after another, each of them as callers may ask for it. -/
def Operates (crates : Crates) (s : TextArea) (op : Op) (s' : TextArea) : Prop := s.apply crates op = some s'

/-- A text area shows a document, and its cursor is between two characters. -/
def TextArea.Sound (s : TextArea) : Prop := ∃ d, Shows s d ∧ IsBoundary s.text s.cursorPos

lemma TextArea.sound_new : new.Sound :=
  ⟨[], ⟨rfl, rfl, fun _ _ h => absurd h List.not_mem_nil⟩, isBoundary_zero _⟩

lemma TextArea.Sound.apply (hcrates : crates.Documented) (h : s.Sound) {op : Op} (hok : op.Ok s)
    (happly : Operates crates s op s') : s'.Sound := by
  obtain ⟨d, hshown, hcursor⟩ := h
  obtain ⟨d', hshown', hcursor', -⟩ := apply_spec hcrates hshown hcursor hok happly
  exact ⟨d', hshown', hcursor'⟩

/-- The elements are sorted, not empty, pairwise disjoint, within the text and between characters. -/
structure TextArea.WellFormed (s : TextArea) : Prop where
  sorted : s.elements.Pairwise fun e e' => e.range.stop ≤ e'.range.start
  ranges : ∀ e ∈ s.elements, e.range.start < e.range.stop ∧ e.range.stop ≤ len s.text ∧
    isCharBoundary s.text e.range.start ∧ isCharBoundary s.text e.range.stop

lemma Shows.wellFormed (h : Shows s d) : s.WellFormed where
  sorted := h.elements ▸ marks_pairwise 0 h.solid
  ranges := by
    intro e he
    rw [h.elements] at he
    have hbounds := marks_bounds h.solid he
    obtain ⟨hstart, hstop⟩ := cut_of_mark he
    rw [isCharBoundary_iff, isCharBoundary_iff, h.text, ← size]
    exact ⟨hbounds.2.1, by omega, hstart.isBoundary, hstop.isBoundary⟩

/-- Whatever operations a text area has seen, its elements are well formed, and each operation left every
element with its text or dropped it, created one or renamed one. -/
theorem elements_stay_whole (hcrates : crates.Documented) {ts : List (Transition TextArea Op)}
    (run : RunWhere (Operates crates) Op.Ok .new ts s) :
    s.WellFormed ∧ ∀ t ∈ ts, t.label.Keeps t.before.namedTexts t.after.namedTexts := by
  obtain ⟨⟨d, hshown, -⟩, hts⟩ := run.1.invariant Op.Ok run.2 sound_new
    fun s op s' hsound hok htaken => hsound.apply hcrates hok htaken
  refine ⟨hshown.wellFormed, fun t ht => ?_⟩
  obtain ⟨⟨d, hshown, hcursor⟩, htaken⟩ := hts t ht
  obtain ⟨d', hshown', -, -, hkeeps⟩ := apply_spec hcrates hshown hcursor (run.2 t ht) htaken
  rw [namedTexts_eq hshown, namedTexts_eq hshown']
  exact hkeeps

/-- Segmentation into single characters, and into words of letters and digits, on lines without end. -/
def byCharacter : Crates where
  prevBoundary t pos := .ok (if pos = 0 then none else some (TextArea.boundaryBefore t (pos - 1)))
  nextBoundary t pos := .ok
    (if len t ≤ pos then none else some (TextArea.boundaryAfter t (len t - (pos + 1)) (pos + 1)))
  graphemes t := t.map fun c => [c]
  splitWordBounds t := t.splitBy fun a b => a.isAlphanum && b.isAlphanum
  width t := t.length
  wrapRanges t _ := [⟨0, len t + 1⟩]

lemma byCharacter_documented : byCharacter.Documented where
  prevBoundary t pos b _ h := by
    rw [byCharacter, Except.ok.injEq] at h
    split at h
    · cases h
    · cases h
      exact (boundaryBefore_spec t _).1
  prevBoundary_ok t pos _ h := by cases h
  nextBoundary t pos b _ h := by
    rw [byCharacter, Except.ok.injEq] at h
    split at h
    · cases h
    · cases h
      exact (boundaryAfter_spec (by omega)).1
  nextBoundary_ok t pos _ h := by cases h
  flatten_graphemes t := by
    induction t with
    | nil => rfl
    | cons c t ih => exact congrArg (c :: ·) ih
  flatten_splitWordBounds t := List.flatten_splitBy _ t

theorem elements_stay_whole_typing : TextArea.WellFormed
    ⟨"ax[P]b".toList, 2, none, none, [⟨1, ⟨2, 5⟩⟩], 2, []⟩ := by
  have typed : RunWhere (Operates byCharacter) Op.Ok .new _ ⟨"ab".toList, 2, none, none, [], 1, []⟩ :=
    RunWhere.nil.next (Op.insertStr "ab".toList) trivial rfl
  have moved : RunWhere (Operates byCharacter) Op.Ok .new _ ⟨"ab".toList, 1, none, none, [], 1, []⟩ :=
    typed.next .moveCursorLeft trivial rfl
  have inserted : RunWhere (Operates byCharacter) Op.Ok .new _
      ⟨"a[P]b".toList, 4, none, none, [⟨1, ⟨1, 4⟩⟩], 2, []⟩ :=
    moved.next (.insertElement "[P]".toList) (List.cons_ne_nil _ _) rfl
  have movedOver : RunWhere (Operates byCharacter) Op.Ok .new _
      ⟨"a[P]b".toList, 1, none, none, [⟨1, ⟨1, 4⟩⟩], 2, []⟩ :=
    inserted.next .moveCursorLeft trivial rfl
  have typedBefore : RunWhere (Operates byCharacter) Op.Ok .new _
      ⟨"ax[P]b".toList, 2, none, none, [⟨1, ⟨2, 5⟩⟩], 2, []⟩ :=
    movedOver.next (.insertStr "x".toList) trivial rfl
  exact (elements_stay_whole byCharacter_documented typedBefore).1

/-! ## The cursor -/

/-- The cursor is in the text, between two characters and not strictly inside an element. -/
structure TextArea.CursorOutside (s : TextArea) : Prop where
  le_len : s.cursorPos ≤ len s.text
  boundary : isCharBoundary s.text s.cursorPos
  outside : ∀ e ∈ s.elements, ¬(e.range.start < s.cursorPos ∧ s.cursorPos < e.range.stop)

/-- As long as no element is put over the cursor, the cursor never rests inside one. -/
theorem cursor_outside_elements (hcrates : crates.Documented) {ts : List (Transition TextArea Op)}
    (run : RunWhere (Operates crates) (fun s op => op.Ok s ∧ op.ClearOfCursor s) .new ts s) :
    s.CursorOutside := by
  have hinit : ∃ d, Shows new d ∧ Cut d new.cursorPos :=
    ⟨[], ⟨rfl, rfl, fun _ _ h => absurd h List.not_mem_nil⟩, cut_zero _⟩
  have hstep : ∀ s op s', (∃ d, Shows s d ∧ Cut d s.cursorPos) → op.Ok s ∧ op.ClearOfCursor s →
      Operates crates s op s' → ∃ d, Shows s' d ∧ Cut d s'.cursorPos := by
    rintro s op s' ⟨d, hshown, hcut⟩ ⟨hok, hclear⟩ htaken
    have hcursor : IsBoundary s.text s.cursorPos := by
      rw [hshown.text]
      exact hcut.isBoundary
    obtain ⟨d', hshown', -, hcut', -⟩ := apply_spec hcrates hshown hcursor hok htaken
    exact ⟨d', hshown', hcut' hclear hcut⟩
  obtain ⟨⟨d, hshown, hcut⟩, -⟩ := run.1.invariant _ run.2 hinit hstep
  rw [cut_iff hshown.solid, ← hshown.text, ← hshown.elements] at hcut
  exact ⟨hcut.1.le_len, isCharBoundary_iff.mpr hcut.1, hcut.2⟩

theorem cursor_outside_elements_command : TextArea.CursorOutside
    ⟨"/plan x".toList, 7, none, none, [⟨1, ⟨0, 5⟩⟩], 2, []⟩ := by
  have typed : RunWhere (Operates byCharacter) (fun s op => op.Ok s ∧ op.ClearOfCursor s) .new _
      ⟨"/plan x".toList, 7, none, none, [], 1, []⟩ :=
    RunWhere.nil.next (Op.insertStr "/plan x".toList) ⟨trivial, trivial⟩ rfl
  have added : RunWhere (Operates byCharacter) (fun s op => op.Ok s ∧ op.ClearOfCursor s) .new _
      ⟨"/plan x".toList, 7, none, none, [⟨1, ⟨0, 5⟩⟩], 2, []⟩ :=
    typed.next (.addElementRange ⟨0, 5⟩) ⟨trivial, Or.inl (by decide)⟩ rfl
  exact cursor_outside_elements byCharacter_documented added

/-- An element that is put over the cursor holds it: the missing letter is typed into a command, which
then becomes an element. -/
theorem cursor_inside_added_element : ∃ ts s, RunWhere (Operates byCharacter) Op.Ok .new ts s ∧
    ¬s.CursorOutside := by
  have typed : RunWhere (Operates byCharacter) Op.Ok .new _ ⟨"/pan x".toList, 6, none, none, [], 1, []⟩ :=
    RunWhere.nil.next (Op.insertStr "/pan x".toList) trivial rfl
  have moved : RunWhere (Operates byCharacter) Op.Ok .new _ ⟨"/pan x".toList, 2, none, none, [], 1, []⟩ :=
    typed.next (.setCursor 2) trivial rfl
  have completed : RunWhere (Operates byCharacter) Op.Ok .new _
      ⟨"/plan x".toList, 3, none, none, [], 1, []⟩ :=
    moved.next (.insertStr "l".toList) trivial rfl
  have added : RunWhere (Operates byCharacter) Op.Ok .new _
      ⟨"/plan x".toList, 3, none, none, [⟨1, ⟨0, 5⟩⟩], 2, []⟩ :=
    completed.next (.addElementRange ⟨0, 5⟩) trivial rfl
  refine ⟨_, _, added, fun h => ?_⟩
  exact h.outside ⟨1, ⟨0, 5⟩⟩ List.mem_cons_self (by decide)

end Supercodex.Composer
