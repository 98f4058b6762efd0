import Supercodex.Path.AbsolutePath

/-!
# The patch parser (`apply-patch/src/parser.rs`)

A patch is read line by line into hunks. Paths are kept as they are written; they are resolved
when the patch is verified or applied. The loops over the remaining lines carry the number of
lines as fuel, which is enough because every round takes at least one line.
-/

namespace Supercodex.ApplyPatch

open Text Supercodex.Path

/-! ## Markers -/

def beginPatchMarker : Text := "*** Begin Patch".toList
def endPatchMarker : Text := "*** End Patch".toList
def addFileMarker : Text := "*** Add File: ".toList
def deleteFileMarker : Text := "*** Delete File: ".toList
def updateFileMarker : Text := "*** Update File: ".toList
def moveToMarker : Text := "*** Move to: ".toList
def eofMarker : Text := "*** End of File".toList
def changeContextMarker : Text := "@@ ".toList
def emptyChangeContextMarker : Text := "@@".toList

/-- `ParseError`. -/
inductive ParseError where
  | invalidPatchError (message : Text)
  | invalidHunkError (message : Text) (lineNumber : ℕ)
deriving DecidableEq

/-- `UpdateFileChunk`. -/
structure UpdateFileChunk where
  changeContext : Option Text
  oldLines : List Text
  newLines : List Text
  isEndOfFile : Bool
deriving DecidableEq

/-- `Hunk`. -/
inductive Hunk where
  | addFile (path contents : Text)
  | deleteFile (path : Text)
  | updateFile (path : Text) (movePath : Option Text) (chunks : List UpdateFileChunk)
deriving DecidableEq

/-- `Hunk::path`: a rename counts as its destination. -/
def Hunk.path : Hunk → Text
  | .addFile path _ => path
  | .deleteFile path => path
  | .updateFile _ (some path) _ => path
  | .updateFile path none _ => path

/-- `Hunk::resolve_path`, which resolves the path of the header, of an update also. -/
def Hunk.resolvePath (home : Option AbsolutePath) (cwd : AbsolutePath) (hunk : Hunk) :
    AbsolutePath :=
  match hunk with
  | .updateFile path _ _ => resolvePathAgainstBase home path cwd
  | .addFile .. | .deleteFile .. => resolvePathAgainstBase home hunk.path cwd

/-- `ApplyPatchArgs`. -/
structure ApplyPatchArgs where
  patch : Text
  hunks : List Hunk
  workdir : Option Text
deriving DecidableEq

/-- `ParseMode`. -/
inductive ParseMode where
  | strict
  | lenient
  | streaming
deriving DecidableEq

/-! ## Chunks -/

def noLinesMessage : Text := "Update hunk does not contain any lines".toList

def missingContextMessage (line : Text) : Text :=
  "Expected update hunk to start with a @@ context marker, got: '".toList ++ line ++ ['\'']

def unexpectedLineMessage (line : Text) : Text :=
  "Unexpected line found in update hunk: '".toList ++ line ++
    ("'. Every line should start with ' ' (context line), '+' (added line), " ++
      "or '-' (removed line)").toList

/-- The loop of `parse_update_file_chunk` over the lines after the context marker. -/
def parseChunkLines (lineNumber : ℕ) :
    List Text → UpdateFileChunk → ℕ → Except ParseError (UpdateFileChunk × ℕ)
  | [], chunk, parsedLines => .ok (chunk, parsedLines)
  | line :: lines, chunk, parsedLines =>
    if line = eofMarker then
      if parsedLines = 0 then .error (.invalidHunkError noLinesMessage (lineNumber + 1))
      else .ok ({ chunk with isEndOfFile := true }, parsedLines + 1)
    else
      match line with
      | [] =>
        parseChunkLines lineNumber lines
          { chunk with oldLines := chunk.oldLines ++ [[]], newLines := chunk.newLines ++ [[]] }
          (parsedLines + 1)
      | ' ' :: rest =>
        parseChunkLines lineNumber lines
          { chunk with oldLines := chunk.oldLines ++ [rest], newLines := chunk.newLines ++ [rest] }
          (parsedLines + 1)
      | '+' :: rest =>
        parseChunkLines lineNumber lines { chunk with newLines := chunk.newLines ++ [rest] }
          (parsedLines + 1)
      | '-' :: rest =>
        parseChunkLines lineNumber lines { chunk with oldLines := chunk.oldLines ++ [rest] }
          (parsedLines + 1)
      | line =>
        if parsedLines = 0 then
          .error (.invalidHunkError (unexpectedLineMessage line) (lineNumber + 1))
        -- any other line is taken for the start of the next hunk
        else .ok (chunk, parsedLines)

/-- The context of a chunk and the number of lines it takes. -/
def chunkContext (line : Text) (lineNumber : ℕ) (allowMissingContext : Bool) :
    Except ParseError (Option Text × ℕ) :=
  if line = emptyChangeContextMarker then .ok (none, 1)
  else
    match stripPrefix changeContextMarker line with
    | some context => .ok (some context, 1)
    | none =>
      if allowMissingContext then .ok (none, 0)
      else .error (.invalidHunkError (missingContextMessage line) lineNumber)

/-- `parse_update_file_chunk`. -/
def parseUpdateFileChunk (lines : List Text) (lineNumber : ℕ) (allowMissingContext : Bool) :
    Except ParseError (UpdateFileChunk × ℕ) :=
  match lines with
  | [] => .error (.invalidHunkError noLinesMessage lineNumber)
  | line :: _ => do
    let (changeContext, startIndex) ← chunkContext line lineNumber allowMissingContext
    if lines.length ≤ startIndex then
      .error (.invalidHunkError noLinesMessage (lineNumber + 1))
    else
      let (chunk, parsedLines) ←
        parseChunkLines lineNumber (lines.drop startIndex) ⟨changeContext, [], [], false⟩ 0
      return (chunk, parsedLines + startIndex)

/-! ## Hunks -/

/-- The loop of `parse_one_hunk` over the lines of an added file. -/
def parseAddLines : List Text → Text → ℕ → Text × ℕ
  | ('+' :: lineToAdd) :: lines, contents, parsedLines =>
    parseAddLines lines (contents ++ lineToAdd ++ ['\n']) (parsedLines + 1)
  | _, contents, parsedLines => (contents, parsedLines)

/-- The loop of `parse_one_hunk` over the chunks of an updated file. -/
def parseChunks (lineNumber : ℕ) (allowIncomplete : Bool) :
    ℕ → List Text → List UpdateFileChunk → ℕ → Except ParseError (List UpdateFileChunk × ℕ)
  | 0, _, chunks, parsedLines => .ok (chunks, parsedLines)
  | _ + 1, [], chunks, parsedLines => .ok (chunks, parsedLines)
  | fuel + 1, line :: lines, chunks, parsedLines =>
    -- blank lines may separate chunks
    if trim line = [] then
      parseChunks lineNumber allowIncomplete fuel lines chunks (parsedLines + 1)
    -- the header of the next hunk
    else if line.head? = some '*' then .ok (chunks, parsedLines)
    else if allowIncomplete && line = ['@'] then .ok (chunks, parsedLines)
    else
      match parseUpdateFileChunk (line :: lines) (lineNumber + parsedLines) chunks.isEmpty with
      | .ok (chunk, chunkLines) =>
        parseChunks lineNumber allowIncomplete fuel ((line :: lines).drop chunkLines)
          (chunks ++ [chunk]) (parsedLines + chunkLines)
      | .error (.invalidHunkError message number) =>
        if allowIncomplete && !chunks.isEmpty then .ok (chunks, parsedLines)
        else .error (.invalidHunkError message number)
      | .error (.invalidPatchError message) => .error (.invalidPatchError message)

def emptyUpdateMessage (path : Text) : Text :=
  "Update file hunk for path '".toList ++ path ++ "' is empty".toList

def invalidHeaderMessage (line : Text) : Text :=
  ['\''] ++ line ++
    ("' is not a valid hunk header. Valid hunk headers: '*** Add File: \x7bpath\x7d', " ++
      "'*** Delete File: \x7bpath\x7d', '*** Update File: \x7bpath\x7d'").toList

/-- The part of `parse_one_hunk` after the header of an update. -/
def parseUpdate (path : Text) (lines : List Text) (lineNumber : ℕ) (allowIncomplete : Bool) :
    Except ParseError (Hunk × ℕ) := do
  let movePath := lines.head?.bind (stripPrefix moveToMarker)
  let taken := if movePath.isSome then 1 else 0
  let (chunks, parsedLines) ←
    parseChunks lineNumber allowIncomplete lines.length (lines.drop taken) [] (1 + taken)
  if chunks = [] then .error (.invalidHunkError (emptyUpdateMessage path) lineNumber)
  else return (.updateFile path movePath chunks, parsedLines)

/-- `parse_one_hunk`, called with at least one line. -/
def parseOneHunk (line : Text) (lines : List Text) (lineNumber : ℕ) (allowIncomplete : Bool) :
    Except ParseError (Hunk × ℕ) :=
  let firstLine := trim line
  match stripPrefix addFileMarker firstLine with
  | some path =>
    let (contents, parsedLines) := parseAddLines lines [] 1
    .ok (.addFile path contents, parsedLines)
  | none =>
    match stripPrefix deleteFileMarker firstLine with
    | some path => .ok (.deleteFile path, 1)
    | none =>
      match stripPrefix updateFileMarker firstLine with
      | some path => parseUpdate path lines lineNumber allowIncomplete
      | none => .error (.invalidHunkError (invalidHeaderMessage firstLine) lineNumber)

/-- The loop of `parse_patch_text` over the lines of the hunks. -/
def parseHunks (allowIncomplete : Bool) :
    ℕ → List Text → ℕ → List Hunk → Except ParseError (List Hunk)
  | 0, _, _, hunks => .ok hunks
  | _ + 1, [], _, hunks => .ok hunks
  | fuel + 1, line :: lines, lineNumber, hunks => do
    let (hunk, hunkLines) ← parseOneHunk line lines lineNumber allowIncomplete
    parseHunks allowIncomplete fuel ((line :: lines).drop hunkLines) (lineNumber + hunkLines)
      (hunks ++ [hunk])

/-! ## Boundaries -/

def firstLineMessage : Text := "The first line of the patch must be '*** Begin Patch'".toList

def lastLineMessage : Text := "The last line of the patch must be '*** End Patch'".toList

/-- `check_start_and_end_lines_strict`. -/
def checkStartAndEndLinesStrict (firstLine lastLine : Option Text) : Except ParseError Unit :=
  match firstLine.map trim, lastLine.map trim with
  | some first, some last =>
    if first = beginPatchMarker ∧ last = endPatchMarker then .ok ()
    else if first ≠ beginPatchMarker then .error (.invalidPatchError firstLineMessage)
    else .error (.invalidPatchError lastLineMessage)
  | some first, none =>
    if first ≠ beginPatchMarker then .error (.invalidPatchError firstLineMessage)
    else .error (.invalidPatchError lastLineMessage)
  | none, _ => .error (.invalidPatchError lastLineMessage)

/-- `check_patch_boundaries_strict`: all lines and those between the markers. -/
def checkPatchBoundariesStrict (lines : List Text) :
    Except ParseError (List Text × List Text) := do
  checkStartAndEndLinesStrict lines.head? lines.getLast?
  return (lines, lines.tail.dropLast)

/-- The heredoc openings that are stripped. -/
def heredocMarkers : List Text := ["<<EOF".toList, "<<'EOF'".toList, "<<\"EOF\"".toList]

/-- Is the text wrapped in a heredoc? -/
def isHeredoc (lines : List Text) : Bool :=
  lines.head?.any (heredocMarkers.contains ·) &&
    lines.getLast?.any ("EOF".toList.isSuffixOf ·) && 4 ≤ lines.length

/-- `check_patch_boundaries_lenient`. -/
def checkPatchBoundariesLenient (lines : List Text) :
    Except ParseError (List Text × List Text) :=
  match checkPatchBoundariesStrict lines with
  | .ok bounds => .ok bounds
  | .error originalParseError =>
    if isHeredoc lines then checkPatchBoundariesStrict lines.tail.dropLast
    else .error originalParseError

/-- `check_patch_boundaries_streaming`. -/
def checkPatchBoundariesStreaming (lines : List Text) :
    Except ParseError (List Text × List Text) :=
  if lines.head?.map trim = some beginPatchMarker then
    if lines.getLast?.map trim = some endPatchMarker then .ok (lines, lines.tail.dropLast)
    else .ok (lines, lines.tail)
  else checkPatchBoundariesStrict lines

/-- The boundary check of each mode. -/
def checkPatchBoundaries : ParseMode → List Text → Except ParseError (List Text × List Text)
  | .strict => checkPatchBoundariesStrict
  | .lenient => checkPatchBoundariesLenient
  | .streaming => checkPatchBoundariesStreaming

/-! ## Parsing -/

/-- `parse_patch_text`. -/
def parsePatchText (patch : Text) (mode : ParseMode) : Except ParseError ApplyPatchArgs := do
  let (patchLines, hunkLines) ← checkPatchBoundaries mode (lines (trim patch))
  let hunks ← parseHunks (mode = .streaming) hunkLines.length hunkLines 2 []
  return ⟨joinLines patchLines, hunks, none⟩

/-- `parse_patch`: `PARSE_IN_STRICT_MODE` is off. -/
def parsePatch (patch : Text) : Except ParseError ApplyPatchArgs := parsePatchText patch .lenient

/-- `parse_patch_streaming`. -/
def parsePatchStreaming (patch : Text) : Except ParseError ApplyPatchArgs :=
  parsePatchText patch .streaming

end Supercodex.ApplyPatch
