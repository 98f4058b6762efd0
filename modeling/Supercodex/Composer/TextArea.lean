import Supercodex.Library.Document
import Mathlib.Data.List.Sort
import Mathlib.Data.List.SplitBy

/-!
# The text area of the composer (`tui/src/bottom_pane/textarea.rs`)

The editable text with a cursor and with elements, the byte ranges that move as a whole. What the code
does not survive, a slice that cuts a character or an assertion, is `none`. The segmentation of text into
graphemes and words, display widths and the wrapping of lines belong to other crates.
-/

namespace Supercodex.Composer

open Positions Document Text

/-- What the text area takes from other crates. -/
structure Crates where
  /-- `GraphemeCursor::prev_boundary` in a whole text. -/
  prevBoundary : Text → ℕ → Except Unit (Option ℕ)
  /-- `GraphemeCursor::next_boundary` in a whole text. -/
  nextBoundary : Text → ℕ → Except Unit (Option ℕ)
  /-- `UnicodeSegmentation::graphemes`. -/
  graphemes : Text → List Text
  /-- `UnicodeSegmentation::split_word_bounds`. -/
  splitWordBounds : Text → List Text
  /-- `UnicodeWidthStr::width`. -/
  width : Text → ℕ
  /-- `wrap_ranges` with the first-fit algorithm of `textwrap`. -/
  wrapRanges : Text → ℕ → List Span

/-- `TextElement`, with `id` and `range`. -/
abbrev TextElement := Mark ℕ

/-- `TextElementSnapshot`. -/
structure TextElementSnapshot where
  id : ℕ
  range : Span
  text : Text
deriving DecidableEq

/-- `WrapCache`. -/
structure WrapCache where
  width : ℕ
  lines : List Span
deriving DecidableEq

/-- `TextArea`. -/
structure TextArea where
  text : Text
  cursorPos : ℕ
  wrapCache : Option WrapCache
  preferredCol : Option ℕ
  elements : List TextElement
  nextElementId : ℕ
  killBuffer : Text
deriving DecidableEq

/-- `u64::MAX`. -/
def maxId : ℕ := 2 ^ 64 - 1

namespace TextArea

/-- `TextArea::new`. -/
def new : TextArea where
  text := []
  cursorPos := 0
  wrapCache := none
  preferredCol := none
  elements := []
  nextElementId := 1
  killBuffer := []

/-- `text_element_snapshots`. -/
def textElementSnapshots (s : TextArea) : List TextElementSnapshot :=
  s.elements.filterMap fun e => (get s.text e.range).map fun text => ⟨e.id, e.range, text⟩

/-! ## Positions -/

/-- `find_element_containing`. -/
def findElementContaining (s : TextArea) (pos : ℕ) : Option TextElement :=
  s.elements.find? fun e => e.range.start < pos && pos < e.range.stop

/-- The loop down to a boundary in `clamp_pos_to_char_boundary`. -/
def boundaryBefore (text : Text) : ℕ → ℕ
  | 0 => 0
  | pos + 1 => if isCharBoundary text (pos + 1) then pos + 1 else boundaryBefore text pos

/-- The loop up to a boundary in `clamp_pos_to_char_boundary`, over the bytes that are left. -/
def boundaryAfter (text : Text) : ℕ → ℕ → ℕ
  | 0, pos => pos
  | left + 1, pos => if isCharBoundary text pos then pos else boundaryAfter text left (pos + 1)

/-- `clamp_pos_to_char_boundary`. -/
def clampPosToCharBoundary (s : TextArea) (pos : ℕ) : ℕ :=
  let pos := min pos (len s.text)
  if isCharBoundary s.text pos then pos
  else
    let prev := boundaryBefore s.text pos
    let next := boundaryAfter s.text (len s.text - pos) pos
    if pos - prev ≤ next - pos then prev else next

/-- `clamp_pos_to_nearest_boundary`. -/
def clampPosToNearestBoundary (s : TextArea) (pos : ℕ) : ℕ :=
  let pos := s.clampPosToCharBoundary pos
  match s.findElementContaining pos with
  | some e =>
    let distStart := pos - e.range.start
    let distEnd := e.range.stop - pos
    if distStart ≤ distEnd then s.clampPosToCharBoundary e.range.start
    else s.clampPosToCharBoundary e.range.stop
  | none => pos

/-- `clamp_pos_for_insertion`, which is written out again in the source. -/
def clampPosForInsertion (s : TextArea) (pos : ℕ) : ℕ :=
  let pos := s.clampPosToCharBoundary pos
  match s.findElementContaining pos with
  | some e =>
    let distStart := pos - e.range.start
    let distEnd := e.range.stop - pos
    if distStart ≤ distEnd then s.clampPosToCharBoundary e.range.start
    else s.clampPosToCharBoundary e.range.stop
  | none => pos

/-- One element in the loop of `expand_range_to_element_boundaries`. -/
def expandOver (range : Span) (e : TextElement) : Span :=
  if e.range.start < range.stop && range.start < e.range.stop then
    ⟨min range.start e.range.start, max range.stop e.range.stop⟩
  else range

/-- The loop of `expand_range_to_element_boundaries`, until a pass changes nothing. -/
def expandLoop (elements : List TextElement) : ℕ → Span → Span
  | 0, range => range
  | rounds + 1, range =>
    let expanded := elements.foldl expandOver range
    if expanded = range then range else expandLoop elements rounds expanded

/-- `expand_range_to_element_boundaries`. A pass that changes the range covers one more element, so there
are at most as many of them as elements. -/
def expandRangeToElementBoundaries (s : TextArea) (range : Span) : Span :=
  expandLoop s.elements (s.elements.length + 1) range

/-- A position moved by a signed number of bytes. -/
def offset (pos : ℕ) (diff : ℤ) : ℕ := (pos + diff).toNat

/-! ## Edits -/

/-- What `shift_elements` makes of an element that it retains. -/
def shiftElement (pos removed inserted : ℕ) (e : TextElement) : TextElement :=
  let stop := pos + removed
  let diff : ℤ := inserted - removed
  if e.range.stop ≤ pos then e
  else if stop ≤ e.range.start then
    { e with range := ⟨offset e.range.start diff, offset e.range.stop diff⟩ }
  else { e with range := ⟨min pos e.range.start, pos + max inserted (e.range.stop - stop)⟩ }

/-- `shift_elements`. -/
def shiftElements (s : TextArea) (pos removed inserted : ℕ) : TextArea :=
  { s with
    elements := (s.elements.filter fun e =>
      !(pos ≤ e.range.start && e.range.stop ≤ pos + removed)).map (shiftElement pos removed inserted) }

/-- `insert_str_at`. -/
def insertStrAt (s : TextArea) (pos : ℕ) (text : Text) : Option TextArea := do
  let pos := s.clampPosForInsertion pos
  let newText ← Positions.insertStr s.text pos text
  let inserted := { s with
    text := newText
    wrapCache := none
    cursorPos := if pos ≤ s.cursorPos then s.cursorPos + len text else s.cursorPos }
  some { inserted.shiftElements pos 0 (len text) with preferredCol := none }

/-- `insert_str`. -/
def insertStr (s : TextArea) (text : Text) : Option TextArea := s.insertStrAt s.cursorPos text

/-- Where an edit of a range leaves the cursor. -/
def cursorAfter (cursor start stop inserted : ℕ) : ℕ :=
  if cursor < start then cursor
  else if cursor ≤ stop then start + inserted
  else offset cursor ((inserted : ℤ) - (stop - start : ℕ))

/-- `replace_range_raw`. -/
def replaceRangeRaw (s : TextArea) (range : Span) (text : Text) : Option TextArea :=
  if range.start ≤ range.stop then
    let start := min range.start (len s.text)
    let stop := min range.stop (len s.text)
    if stop - start = 0 ∧ len text = 0 then some s
    else do
      let newText ← Positions.replaceRange s.text range text
      let replaced := { s with text := newText, wrapCache := none, preferredCol := none }
      let shifted := replaced.shiftElements start (stop - start) (len text)
      let moved := { shifted with
        cursorPos := min (cursorAfter s.cursorPos start stop (len text)) (len newText) }
      some { moved with cursorPos := moved.clampPosToNearestBoundary moved.cursorPos }
  else none

/-- `replace_range`. -/
def replaceRange (s : TextArea) (range : Span) (text : Text) : Option TextArea :=
  s.replaceRangeRaw (s.expandRangeToElementBoundaries range) text

/-- `set_cursor`. -/
def setCursor (s : TextArea) (pos : ℕ) : TextArea :=
  { s with
    cursorPos := s.clampPosToNearestBoundary (min pos (len s.text))
    preferredCol := none }

/-! ## Elements -/

/-- `next_element_id`, with the id that is given out. -/
def takeElementId (s : TextArea) : ℕ × TextArea :=
  (s.nextElementId, { s with nextElementId := min (s.nextElementId + 1) maxId })

/-- Elements in the order of their starts. -/
def sortElements (elements : List TextElement) : List TextElement :=
  elements.insertionSort fun a b => a.range.start ≤ b.range.start

/-- `add_element`, by `add_element_with_id`. -/
def addElement (s : TextArea) (range : Span) : ℕ × TextArea :=
  let (id, s) := s.takeElementId
  (id, { s with elements := sortElements (s.elements ++ [⟨id, range⟩]) })

/-- One element in the loop of `set_text_inner`. -/
def pushElement (s : TextArea) (byteRange : Span) : TextArea :=
  let start := s.clampPosToCharBoundary (min byteRange.start (len s.text))
  let stop := s.clampPosToCharBoundary (min byteRange.stop (len s.text))
  if stop ≤ start then s
  else
    let (id, s) := s.takeElementId
    { s with elements := s.elements ++ [⟨id, ⟨start, stop⟩⟩] }

/-- `set_text_inner`, with the byte ranges of the elements. -/
def setTextInner (s : TextArea) (text : Text) (elements : Option (List Span)) : TextArea :=
  let cleared := { s with text := text, cursorPos := min s.cursorPos (len text), elements := [] }
  let rebuilt := match elements with
    | some elements =>
      let pushed := elements.foldl pushElement cleared
      { pushed with elements := sortElements pushed.elements }
    | none => cleared
  { rebuilt with
    cursorPos := rebuilt.clampPosToNearestBoundary rebuilt.cursorPos
    wrapCache := none
    preferredCol := none }

/-- `set_text_clearing_elements`. -/
def setTextClearingElements (s : TextArea) (text : Text) : TextArea := s.setTextInner text none

/-- `set_text_with_elements`. -/
def setTextWithElements (s : TextArea) (text : Text) (elements : List Span) : TextArea :=
  s.setTextInner text (some elements)

/-- What renaming an element makes of another one. -/
def shiftAfterRename (start stop inserted : ℕ) (diff : ℤ) (e : TextElement) : TextElement :=
  if e.range.stop ≤ start then e
  else if stop ≤ e.range.start then
    { e with range := ⟨offset e.range.start diff, offset e.range.stop diff⟩ }
  else { e with range := ⟨min start e.range.start, max (start + inserted) (offset e.range.stop diff)⟩ }

/-- `replace_element_payload`, with what it returns. -/
def replaceElementPayload (s : TextArea) (old new : Text) : Option (Bool × TextArea) :=
  match s.elements.findIdx? fun e => get s.text e.range == some old with
  | none => some (false, s)
  | some idx => do
    let e ← s.elements[idx]?
    let start := e.range.start
    let stop := e.range.stop
    if stop < start ∨ len s.text < stop then some (false, s)
    else do
      let inserted := len new
      let diff : ℤ := (inserted : ℤ) - (stop - start : ℕ)
      let newText ← Positions.replaceRange s.text e.range new
      let elements := s.elements.mapIdx fun j e =>
        if j = idx then { e with range := ⟨start, start + inserted⟩ }
        else if diff = 0 then e
        else shiftAfterRename start stop inserted diff e
      let moved := { s with
        text := newText
        wrapCache := none
        preferredCol := none
        elements := elements
        cursorPos := cursorAfter s.cursorPos start stop inserted }
      some (true, { moved with
        cursorPos := moved.clampPosToNearestBoundary moved.cursorPos
        elements := sortElements elements })

/-- `insert_element`, with the id of the element. -/
def insertElement (s : TextArea) (text : Text) : Option (ℕ × TextArea) := do
  let start := s.clampPosForInsertion s.cursorPos
  let inserted ← s.insertStrAt start text
  let stop := start + len text
  let (id, added) := inserted.addElement ⟨start, stop⟩
  some (id, added.setCursor stop)

/-- The span that `add_element_range` and `remove_element_range` mean. -/
def clampRange (s : TextArea) (range : Span) : Span :=
  ⟨s.clampPosToCharBoundary (min range.start (len s.text)),
    s.clampPosToCharBoundary (min range.stop (len s.text))⟩

/-- Does an element lie over a part of the range? -/
def overlapsElement (s : TextArea) (range : Span) : Bool :=
  s.elements.any fun e => range.start < e.range.stop && e.range.start < range.stop

/-- `add_element_range`, with the id of the element. -/
def addElementRange (s : TextArea) (range : Span) : Option ℕ × TextArea :=
  let range := s.clampRange range
  if range.stop ≤ range.start then (none, s)
  else if s.elements.any fun e => e.range.start = range.start && e.range.stop = range.stop then (none, s)
  else if s.overlapsElement range then (none, s)
  else
    let (id, s) := s.addElement range
    (some id, s)

/-- `remove_element_range`, with what it returns. -/
def removeElementRange (s : TextArea) (range : Span) : Bool × TextArea :=
  let range := s.clampRange range
  if range.stop ≤ range.start then (false, s)
  else
    let elements := s.elements.filter fun e =>
      e.range.start ≠ range.start || e.range.stop ≠ range.stop
    (s.elements.length ≠ elements.length, { s with elements := elements })

/-! ## Lines and words -/

/-- `beginning_of_line`. -/
def beginningOfLine (s : TextArea) (pos : ℕ) : Option ℕ := do
  let (before, _) ← splitAt s.text pos
  some (((rfind '\n' before).map (· + 1)).getD 0)

/-- `end_of_line`. -/
def endOfLine (s : TextArea) (pos : ℕ) : Option ℕ := do
  let (_, after) ← splitAt s.text pos
  some (((find '\n' after).map (· + pos)).getD (len s.text))

/-- `adjust_pos_out_of_elements`. -/
def adjustPosOutOfElements (s : TextArea) (pos : ℕ) (preferStart : Bool) : ℕ :=
  match s.findElementContaining pos with
  | some e => if preferStart then e.range.start else e.range.stop
  | none => pos

/-- `WORD_SEPARATORS`. -/
def wordSeparators : Text := "\x60~!@#$%^&*()-=+[\x7b]\x7d\\|;:'\",.<>/?".toList

/-- `is_word_separator`. -/
def isWordSeparator (c : Char) : Bool := wordSeparators.contains c

/-- Pieces of a text with the positions where they begin. -/
def withOffsets : ℕ → List Text → List (ℕ × Text)
  | _, [] => []
  | pos, piece :: pieces => (pos, piece) :: withOffsets (pos + len piece) pieces

/-- `split_word_pieces`. -/
def splitWordPieces (crates : Crates) (run : Text) : List (ℕ × Text) :=
  (withOffsets 0 (crates.splitWordBounds run)).flatMap fun (segmentStart, segment) =>
    withOffsets segmentStart (segment.splitBy fun a b => isWordSeparator a == isWordSeparator b)

/-- The pieces of separators that follow one another from the first. -/
def separatorPieces (pieces : List (ℕ × Text)) : List (ℕ × Text) :=
  pieces.takeWhile fun (_, piece) => piece.all isWordSeparator

/-- `beginning_of_previous_word`. -/
def beginningOfPreviousWord (crates : Crates) (s : TextArea) : Option ℕ := do
  let (before, _) ← splitAt s.text s.cursorPos
  let trimmed := trimEnd before
  if trimmed = [] then some 0
  else
    let runStart := len (trimmed.rdropWhile (!isWhitespace ·))
    let run := trimmed.rtakeWhile (!isWhitespace ·)
    match (splitWordPieces crates run).reverse with
    | [] => some runStart
    | (pieceStart, piece) :: pieces =>
      let start :=
        if piece.all isWordSeparator then
          match (separatorPieces pieces).getLast? with
          | some (idx, _) => runStart + idx
          | none => runStart + pieceStart
        else runStart + pieceStart
      some (s.adjustPosOutOfElements start true)

/-- `end_of_next_word`. -/
def endOfNextWord (crates : Crates) (s : TextArea) : Option ℕ := do
  let (_, after) ← splitAt s.text s.cursorPos
  if trimStart after = [] then some (len s.text)
  else
    let firstNonWs := len (after.takeWhile isWhitespace)
    let run := (trimStart after).takeWhile (!isWhitespace ·)
    match splitWordPieces crates run with
    | [] => some (s.cursorPos + firstNonWs)
    | (start, piece) :: pieces =>
      let wordStart := s.cursorPos + firstNonWs + start
      let stop :=
        if piece.all isWordSeparator then
          match (separatorPieces pieces).getLast? with
          | some (idx, piece) => s.cursorPos + firstNonWs + idx + len piece
          | none => wordStart + len piece
        else wordStart + len piece
      some (s.adjustPosOutOfElements stop false)

/-- `prev_atomic_boundary`. -/
def prevAtomicBoundary (crates : Crates) (s : TextArea) (pos : ℕ) : ℕ :=
  if pos = 0 then 0
  else match s.elements.find? fun e => e.range.start < pos && pos ≤ e.range.stop with
    | some e => e.range.start
    | none =>
      match crates.prevBoundary s.text pos with
      | .ok (some b) => ((s.findElementContaining b).map (·.range.start)).getD b
      | .ok none => 0
      | .error _ => pos - 1

/-- `next_atomic_boundary`. -/
def nextAtomicBoundary (crates : Crates) (s : TextArea) (pos : ℕ) : ℕ :=
  if len s.text ≤ pos then len s.text
  else match s.elements.find? fun e => e.range.start ≤ pos && pos < e.range.stop with
    | some e => e.range.stop
    | none =>
      match crates.nextBoundary s.text pos with
      | .ok (some b) => ((s.findElementContaining b).map (·.range.stop)).getD b
      | .ok none => len s.text
      | .error _ => pos + 1

/-! ## Deleting and killing -/

/-- The loop of `delete_backward`. -/
def targetBackward (crates : Crates) (s : TextArea) : ℕ → ℕ → ℕ
  | 0, target => target
  | n + 1, target =>
    let target := s.prevAtomicBoundary crates target
    if target = 0 then target else targetBackward crates s n target

/-- `delete_backward`. -/
def deleteBackward (crates : Crates) (s : TextArea) (n : ℕ) : Option TextArea :=
  if n = 0 ∨ s.cursorPos = 0 then some s
  else s.replaceRange ⟨s.targetBackward crates n s.cursorPos, s.cursorPos⟩ []

/-- The loop of `delete_forward`. -/
def targetForward (crates : Crates) (s : TextArea) : ℕ → ℕ → ℕ
  | 0, target => target
  | n + 1, target =>
    let target := s.nextAtomicBoundary crates target
    if len s.text ≤ target then target else targetForward crates s n target

/-- `delete_forward`. -/
def deleteForward (crates : Crates) (s : TextArea) (n : ℕ) : Option TextArea :=
  if n = 0 ∨ len s.text ≤ s.cursorPos then some s
  else s.replaceRange ⟨s.cursorPos, s.targetForward crates n s.cursorPos⟩ []

/-- `kill_range`. -/
def killRange (s : TextArea) (range : Span) : Option TextArea :=
  let range := s.expandRangeToElementBoundaries range
  if range.stop ≤ range.start then some s
  else do
    let removed ← get s.text range
    if removed = [] then some s
    else replaceRangeRaw { s with killBuffer := removed } range []

/-- `delete_backward_word`. -/
def deleteBackwardWord (crates : Crates) (s : TextArea) : Option TextArea := do
  let start ← s.beginningOfPreviousWord crates
  s.killRange ⟨start, s.cursorPos⟩

/-- `delete_forward_word`. -/
def deleteForwardWord (crates : Crates) (s : TextArea) : Option TextArea := do
  let stop ← s.endOfNextWord crates
  if s.cursorPos < stop then s.killRange ⟨s.cursorPos, stop⟩ else some s

/-- `kill_to_end_of_line`. -/
def killToEndOfLine (s : TextArea) : Option TextArea := do
  let eol ← s.endOfLine s.cursorPos
  if s.cursorPos = eol then
    if eol < len s.text then s.killRange ⟨s.cursorPos, eol + 1⟩ else some s
  else s.killRange ⟨s.cursorPos, eol⟩

/-- `kill_to_beginning_of_line`. -/
def killToBeginningOfLine (s : TextArea) : Option TextArea := do
  let bol ← s.beginningOfLine s.cursorPos
  if s.cursorPos = bol then
    if 0 < bol then s.killRange ⟨bol - 1, bol⟩ else some s
  else s.killRange ⟨bol, s.cursorPos⟩

/-- `yank`. -/
def yank (s : TextArea) : Option TextArea :=
  if s.killBuffer = [] then some s else s.insertStr s.killBuffer

/-! ## Moving the cursor -/

/-- `move_cursor_left`. -/
def moveCursorLeft (crates : Crates) (s : TextArea) : TextArea :=
  { s with cursorPos := s.prevAtomicBoundary crates s.cursorPos, preferredCol := none }

/-- `move_cursor_right`. -/
def moveCursorRight (crates : Crates) (s : TextArea) : TextArea :=
  { s with cursorPos := s.nextAtomicBoundary crates s.cursorPos, preferredCol := none }

/-- `wrapped_line_index_by_start`. -/
def wrappedLineIndexByStart (lines : List Span) (pos : ℕ) : Option ℕ :=
  let idx := (lines.takeWhile fun r => decide (r.start ≤ pos)).length
  if idx = 0 then none else some (idx - 1)

/-- The first grapheme that goes past a column, from the width so far. -/
def graphemePast (crates : Crates) (targetCol : ℕ) : ℕ → List (ℕ × Text) → Option ℕ
  | _, [] => none
  | widthSoFar, (i, g) :: rest =>
    let widthSoFar := widthSoFar + crates.width g
    if targetCol < widthSoFar then some i else graphemePast crates targetCol widthSoFar rest

/-- `move_to_display_col_on_line`. -/
def moveToDisplayColOnLine (crates : Crates) (s : TextArea) (lineStart lineEnd targetCol : ℕ) :
    Option TextArea := do
  let line ← get s.text ⟨lineStart, lineEnd⟩
  let pos := match graphemePast crates targetCol 0 (withOffsets 0 (crates.graphemes line)) with
    | some i => lineStart + i
    | none => lineEnd
  some { s with cursorPos := s.clampPosToNearestBoundary pos }

/-- The preferred column, or else the column of the cursor on its line. -/
def targetCol (crates : Crates) (s : TextArea) (lineStart : ℕ) : Option ℕ :=
  match s.preferredCol with
  | some c => some c
  | none => (get s.text ⟨lineStart, s.cursorPos⟩).map crates.width

/-- The wrapped line of the cursor, where lines are wrapped already. -/
def cachedLine (s : TextArea) : Option (List Span × ℕ) := do
  let cache ← s.wrapCache
  let idx ← wrappedLineIndexByStart cache.lines s.cursorPos
  some (cache.lines, idx)

/-- `move_cursor_up`. -/
def moveCursorUp (crates : Crates) (s : TextArea) : Option TextArea :=
  match s.cachedLine with
  | some (lines, idx) => do
    let curRange ← lines[idx]?
    let targetCol ← s.targetCol crates curRange.start
    if 0 < idx then
      let prev ← lines[idx - 1]?
      moveToDisplayColOnLine crates { s with preferredCol := some targetCol } prev.start (prev.stop - 1)
        targetCol
    else some { s with cursorPos := 0, preferredCol := none }
  | none => do
    let (before, _) ← splitAt s.text s.cursorPos
    match rfind '\n' before with
    | some prevNl =>
      let bol ← s.beginningOfLine s.cursorPos
      let targetCol ← s.targetCol crates bol
      let prevLineStart ← s.beginningOfLine prevNl
      moveToDisplayColOnLine crates { s with preferredCol := some targetCol } prevLineStart prevNl targetCol
    | none => some { s with cursorPos := 0, preferredCol := none }

/-- `move_cursor_down`. -/
def moveCursorDown (crates : Crates) (s : TextArea) : Option TextArea :=
  match s.cachedLine with
  | some (lines, idx) => do
    let curRange ← lines[idx]?
    let targetCol ← s.targetCol crates curRange.start
    if idx + 1 < lines.length then
      let next ← lines[idx + 1]?
      moveToDisplayColOnLine crates { s with preferredCol := some targetCol } next.start (next.stop - 1)
        targetCol
    else some { s with cursorPos := len s.text, preferredCol := none }
  | none => do
    let bol ← s.beginningOfLine s.cursorPos
    let targetCol ← s.targetCol crates bol
    let (_, after) ← splitAt s.text s.cursorPos
    match (find '\n' after).map (· + s.cursorPos) with
    | some nextNl =>
      let nextLineEnd ← s.endOfLine (nextNl + 1)
      moveToDisplayColOnLine crates { s with preferredCol := some targetCol } (nextNl + 1) nextLineEnd
        targetCol
    | none => some { s with cursorPos := len s.text, preferredCol := none }

/-- `move_cursor_to_beginning_of_line`. -/
def moveCursorToBeginningOfLine (s : TextArea) (moveUpAtBol : Bool) : Option TextArea := do
  let bol ← s.beginningOfLine s.cursorPos
  if moveUpAtBol && s.cursorPos = bol then
    let start ← s.beginningOfLine (s.cursorPos - 1)
    some (s.setCursor start)
  else some (s.setCursor bol)

/-- `move_cursor_to_end_of_line`. -/
def moveCursorToEndOfLine (s : TextArea) (moveDownAtEol : Bool) : Option TextArea := do
  let eol ← s.endOfLine s.cursorPos
  if moveDownAtEol && s.cursorPos = eol then
    let nextPos := min (s.cursorPos + 1) (len s.text)
    let stop ← s.endOfLine nextPos
    some (s.setCursor stop)
  else some (s.setCursor eol)

/-- `wrapped_lines`. -/
def wrappedLines (crates : Crates) (s : TextArea) (width : ℕ) : TextArea :=
  if (s.wrapCache.map (·.width)) = some width then s
  else { s with wrapCache := some ⟨width, crates.wrapRanges s.text width⟩ }

end TextArea

/-! ## Operations -/

/-- The operations of a text area. -/
inductive Op where
  | setTextClearingElements (text : Text)
  | setTextWithElements (text : Text) (elements : List Span)
  | insertStr (text : Text)
  | insertStrAt (pos : ℕ) (text : Text)
  | replaceRange (range : Span) (text : Text)
  | deleteBackward (n : ℕ)
  | deleteForward (n : ℕ)
  | deleteBackwardWord
  | deleteForwardWord
  | killToEndOfLine
  | killToBeginningOfLine
  | yank
  | setCursor (pos : ℕ)
  | moveCursorLeft
  | moveCursorRight
  | moveCursorUp
  | moveCursorDown
  | moveCursorToBeginningOfLine (moveUpAtBol : Bool)
  | moveCursorToEndOfLine (moveDownAtEol : Bool)
  | wrappedLines (width : ℕ)
  | insertElement (text : Text)
  | addElementRange (range : Span)
  | removeElementRange (range : Span)
  | replaceElementPayload (old new : Text)

/-- An operation on a text area. -/
def TextArea.apply (crates : Crates) (s : TextArea) : Op → Option TextArea
  | .setTextClearingElements text => some (s.setTextClearingElements text)
  | .setTextWithElements text elements => some (s.setTextWithElements text elements)
  | .insertStr text => s.insertStr text
  | .insertStrAt pos text => s.insertStrAt pos text
  | .replaceRange range text => s.replaceRange range text
  | .deleteBackward n => s.deleteBackward crates n
  | .deleteForward n => s.deleteForward crates n
  | .deleteBackwardWord => s.deleteBackwardWord crates
  | .deleteForwardWord => s.deleteForwardWord crates
  | .killToEndOfLine => s.killToEndOfLine
  | .killToBeginningOfLine => s.killToBeginningOfLine
  | .yank => s.yank
  | .setCursor pos => some (s.setCursor pos)
  | .moveCursorLeft => some (s.moveCursorLeft crates)
  | .moveCursorRight => some (s.moveCursorRight crates)
  | .moveCursorUp => s.moveCursorUp crates
  | .moveCursorDown => s.moveCursorDown crates
  | .moveCursorToBeginningOfLine moveUpAtBol => s.moveCursorToBeginningOfLine moveUpAtBol
  | .moveCursorToEndOfLine moveDownAtEol => s.moveCursorToEndOfLine moveDownAtEol
  | .wrappedLines width => some (s.wrappedLines crates width)
  | .insertElement text => (s.insertElement text).map Prod.snd
  | .addElementRange range => some (s.addElementRange range).2
  | .removeElementRange range => some (s.removeElementRange range).2
  | .replaceElementPayload old new => (s.replaceElementPayload old new).map Prod.snd

end Supercodex.Composer
