import Supercodex.ApplyPatch.Parser
import Mathlib.Data.List.Sort

/-!
# Updating a file (`apply-patch/src/lib.rs`, `apply-patch/src/seek_sequence.rs`)

The chunks of an update are located in the lines of the file, each search less strict than the
one before, and turned into replacements of line ranges.
-/

namespace Supercodex.ApplyPatch

open Text Supercodex.Path

/-- Why reading or writing failed (`io::ErrorKind`). -/
inductive IoErrorKind where
  | notFound
  | notADirectory
  | isADirectory
  | alreadyExists
  | invalidData
  | invalidInput
  | other
deriving DecidableEq

/-- `ApplyPatchError`, with the context of an I/O error; `noFilesModified` is the error for a
patch without hunks, and `panicked` stands for an index out of bounds. -/
inductive ApplyPatchError where
  | parseError (error : ParseError)
  | ioError (context : Text) (source : IoErrorKind)
  | computeReplacements (message : Text)
  | implicitInvocation
  | noFilesModified
  | panicked
deriving DecidableEq

/-! ## Searching -/

/-- The character map of `normalise`. -/
def normaliseChar (c : Char) : Char :=
  let n := c.toNat
  if (0x2010 ≤ n && n ≤ 0x2015) || n == 0x2212 then '-'
  else if 0x2018 ≤ n && n ≤ 0x201B then '\''
  else if 0x201C ≤ n && n ≤ 0x201F then '"'
  else if n == 0xA0 || (0x2002 ≤ n && n ≤ 0x200A) || n == 0x202F || n == 0x205F || n == 0x3000 then
    ' '
  else c

/-- `normalise`. -/
def normalise (t : Text) : Text := (trim t).map normaliseChar

/-- What the four passes of a search compare of two lines, the strictest first. -/
def seekPasses : List (Text → Text) := [id, trimEnd, trim, normalise]

/-- Do the lines at an index match the pattern, as far as `view` shows? -/
def matchesAt (view : Text → Text) (lines pattern : List Text) (i : ℕ) : Bool :=
  ((lines.drop i).take pattern.length).map view = pattern.map view

/-- `seek_sequence`. -/
def seekSequence (lines pattern : List Text) (start : ℕ) (eof : Bool) : Option ℕ :=
  if pattern = [] then some start
  else if lines.length < pattern.length then none
  else
    let searchStart := if eof then lines.length - pattern.length else start
    let indices := List.range' searchStart (lines.length - pattern.length + 1 - searchStart)
    seekPasses.findSome? fun view => indices.find? (matchesAt view lines pattern)

/-! ## Replacements -/

/-- New lines for a range of lines. -/
structure Replacement where
  start : ℕ
  oldLen : ℕ
  newLines : List Text
deriving DecidableEq

/-- A list without its last element if that is the empty line. -/
def dropLastEmpty (ls : List Text) : List Text :=
  if ls.getLast? = some [] then ls.dropLast else ls

/-- The replacement for the lines of a chunk and the index after it, with the search from
`lineIndex` on. A pattern that ends in an empty line is tried without it as well. -/
def locateChunk (originalLines : List Text) (chunk : UpdateFileChunk) (lineIndex : ℕ) :
    Option (Replacement × ℕ) :=
  match seekSequence originalLines chunk.oldLines lineIndex chunk.isEndOfFile with
  | some start =>
    some (⟨start, chunk.oldLines.length, chunk.newLines⟩, start + chunk.oldLines.length)
  | none =>
    if chunk.oldLines.getLast? = some [] then
      let pattern := chunk.oldLines.dropLast
      (seekSequence originalLines pattern lineIndex chunk.isEndOfFile).map fun start =>
        (⟨start, pattern.length, dropLastEmpty chunk.newLines⟩, start + pattern.length)
    else none

def missingContextError (context path : Text) : ApplyPatchError :=
  .computeReplacements
    ("Failed to find context '".toList ++ context ++ "' in ".toList ++ path)

def missingLinesError (oldLines : List Text) (path : Text) : ApplyPatchError :=
  .computeReplacements
    ("Failed to find expected lines in ".toList ++ path ++ ":\n".toList ++ joinLines oldLines)

/-- The line from which a chunk is searched: behind its context, if it has one. -/
def seekContext (originalLines : List Text) (path : AbsolutePath) (chunk : UpdateFileChunk)
    (lineIndex : ℕ) : Except ApplyPatchError ℕ :=
  match chunk.changeContext with
  | none => .ok lineIndex
  | some context =>
    match seekSequence originalLines [context] lineIndex false with
    | some index => .ok (index + 1)
    | none => .error (missingContextError context (toText path))

/-- The loop of `compute_replacements`. -/
def collectReplacements (originalLines : List Text) (path : AbsolutePath) :
    List UpdateFileChunk → ℕ → List Replacement → Except ApplyPatchError (List Replacement)
  | [], _, replacements => .ok replacements
  | chunk :: chunks, lineIndex, replacements => do
    let lineIndex ← seekContext originalLines path chunk lineIndex
    if chunk.oldLines = [] then
      -- a pure addition goes to the end of the file
      let insertion := (dropLastEmpty originalLines).length
      collectReplacements originalLines path chunks lineIndex
        (replacements ++ [⟨insertion, 0, chunk.newLines⟩])
    else
      match locateChunk originalLines chunk lineIndex with
      | some (replacement, next) =>
        collectReplacements originalLines path chunks next (replacements ++ [replacement])
      | none => .error (missingLinesError chunk.oldLines (toText path))

/-- `compute_replacements`; the sort is stable. -/
def computeReplacements (originalLines : List Text) (path : AbsolutePath)
    (chunks : List UpdateFileChunk) : Except ApplyPatchError (List Replacement) :=
  (collectReplacements originalLines path chunks 0 []).map
    (List.insertionSort fun a b => a.start ≤ b.start)

/-- `Vec::remove`, if there is something to remove. -/
def removeAt (lines : List Text) (i : ℕ) : List Text :=
  if i < lines.length then lines.take i ++ lines.drop (i + 1) else lines

/-- `Vec::insert`, which panics beyond the end. -/
def insertAt (lines : List Text) (i : ℕ) (line : Text) : Option (List Text) :=
  if i ≤ lines.length then some (lines.take i ++ line :: lines.drop i) else none

/-- The insertions of one replacement. -/
def insertLines : List Text → ℕ → List Text → Option (List Text)
  | lines, _, [] => some lines
  | lines, i, line :: rest => (insertAt lines i line).bind (insertLines · (i + 1) rest)

/-- One round of `apply_replacements`. -/
def applyReplacement (lines : List Text) (r : Replacement) : Option (List Text) :=
  insertLines ((fun ls => removeAt ls r.start)^[r.oldLen] lines) r.start r.newLines

/-- `apply_replacements`, from the last replacement to the first. -/
def applyReplacements (lines : List Text) (replacements : List Replacement) :
    Option (List Text) :=
  replacements.reverse.foldlM applyReplacement lines

/-- The new contents of `derive_new_contents_from_chunks` for the contents of a file. -/
def newContents (path : AbsolutePath) (originalContents : Text) (chunks : List UpdateFileChunk) :
    Except ApplyPatchError Text := do
  let originalLines := dropLastEmpty (originalContents.splitOn '\n')
  let replacements ← computeReplacements originalLines path chunks
  match applyReplacements originalLines replacements with
  | none => .error .panicked
  | some newLines =>
    .ok (joinLines (if newLines.getLast? = some [] then newLines else newLines ++ [[]]))

end Supercodex.ApplyPatch
