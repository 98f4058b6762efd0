import Supercodex.ApplyPatch.ParserTheorems

/-!
# Rendered patches are parsed back

Hunks are rendered by the grammar at the head of `parser.rs`: a file header, an optional move
line, a `@@` header for every chunk, the old lines before the new ones. The lines that a hunk
holds are arbitrary text; behind their sign they cannot be taken for a header, a marker or the
end of the file. What ends a chunk, a hunk or the patch is decided by the first character of the
next line.
-/

namespace Supercodex.ApplyPatch

open Text

/-! ## Rendering -/

/-- The header of a chunk. -/
def renderContext : Option Text → Text
  | none => emptyChangeContextMarker
  | some context => changeContextMarker ++ context

/-- The lines of a chunk. -/
def renderChunk (chunk : UpdateFileChunk) : List Text :=
  renderContext chunk.changeContext :: (chunk.oldLines.map ('-' :: ·) ++
    (chunk.newLines.map ('+' :: ·) ++ if chunk.isEndOfFile then [eofMarker] else []))

/-- The move line of an update. -/
def renderMove (movePath : Option Text) : List Text :=
  (movePath.map (moveToMarker ++ ·)).toList

/-- The lines of a hunk. -/
def renderHunk : Hunk → List Text
  | .addFile path contents => (addFileMarker ++ path) :: (lines contents).map ('+' :: ·)
  | .deleteFile path => [deleteFileMarker ++ path]
  | .updateFile path movePath chunks =>
    (updateFileMarker ++ path) :: (renderMove movePath ++ chunks.flatMap renderChunk)

/-- The text of a patch. -/
def render (hunks : List Hunk) : Text :=
  joinLines (beginPatchMarker :: (hunks.flatMap renderHunk ++ [endPatchMarker]))

/-! ## Hunks that can be rendered -/

/-- A text that is one line of a file. -/
structure IsLine (t : Text) : Prop where
  newline : '\n' ∉ t
  carriageReturn : t.getLast? ≠ some '\r'

/-- A path that can stand in a header. -/
structure IsPath (t : Text) : Prop where
  newline : '\n' ∉ t
  trimmed : trim t = t
  nonempty : t ≠ []

/-- Does the chunk hold a line, old or new? -/
def UpdateFileChunk.HasLine (chunk : UpdateFileChunk) : Prop :=
  chunk.oldLines ≠ [] ∨ chunk.newLines ≠ []

/-- The texts of a chunk are lines. -/
structure UpdateFileChunk.InLines (chunk : UpdateFileChunk) : Prop where
  context : ∀ t ∈ chunk.changeContext, IsLine t
  old : ∀ t ∈ chunk.oldLines, IsLine t
  new : ∀ t ∈ chunk.newLines, IsLine t

/-- The paths of a hunk can stand in headers and its texts are lines. -/
def Hunk.InLines : Hunk → Prop
  | .addFile path contents =>
    IsPath path ∧ ∃ ls : List Text, (∀ t ∈ ls, IsLine t) ∧ contents = endLines ls
  | .deleteFile path => IsPath path
  | .updateFile path movePath chunks =>
    IsPath path ∧ (∀ p ∈ movePath, IsPath p) ∧ ∀ chunk ∈ chunks, chunk.InLines

/-- An update has a chunk, and every chunk of it has a line. -/
def Hunk.Filled : Hunk → Prop
  | .addFile .. | .deleteFile .. => True
  | .updateFile _ _ chunks => chunks ≠ [] ∧ ∀ chunk ∈ chunks, chunk.HasLine

instance (t : Text) : Decidable (IsLine t) :=
  decidable_of_iff ('\n' ∉ t ∧ t.getLast? ≠ some '\r')
    ⟨fun h => ⟨h.1, h.2⟩, fun h => ⟨h.newline, h.carriageReturn⟩⟩

instance (t : Text) : Decidable (IsPath t) :=
  decidable_of_iff ('\n' ∉ t ∧ trim t = t ∧ t ≠ [])
    ⟨fun h => ⟨h.1, h.2.1, h.2.2⟩, fun h => ⟨h.newline, h.trimmed, h.nonempty⟩⟩

instance (chunk : UpdateFileChunk) : Decidable chunk.HasLine :=
  inferInstanceAs (Decidable (_ ∨ _))

instance (chunk : UpdateFileChunk) : Decidable chunk.InLines :=
  decidable_of_iff ((∀ t ∈ chunk.changeContext, IsLine t) ∧ (∀ t ∈ chunk.oldLines, IsLine t) ∧
      ∀ t ∈ chunk.newLines, IsLine t)
    ⟨fun h => ⟨h.1, h.2.1, h.2.2⟩, fun h => ⟨h.context, h.old, h.new⟩⟩

lemma lines_endLines_of_isLine {ls : List Text} (h : ∀ t ∈ ls, IsLine t) :
    lines (endLines ls) = ls := by
  rw [lines_endLines (fun t ht => (h t ht).newline)]
  exact (map_stripCr_eq_self_iff ls).mpr fun t ht => (h t ht).carriageReturn

instance (hunk : Hunk) : Decidable hunk.InLines :=
  match hunk with
  | .addFile path contents =>
    decidable_of_iff (IsPath path ∧ (∀ t ∈ lines contents, IsLine t) ∧
        contents = endLines (lines contents))
      ⟨fun h => ⟨h.1, lines contents, h.2⟩, fun ⟨hpath, ls, hls, heq⟩ => by
        rw [heq, lines_endLines_of_isLine hls]
        exact ⟨hpath, hls, rfl⟩⟩
  | .deleteFile path => inferInstanceAs (Decidable (IsPath path))
  | .updateFile _ _ _ => inferInstanceAs (Decidable (_ ∧ _ ∧ _))

instance (hunk : Hunk) : Decidable hunk.Filled :=
  match hunk with
  | .addFile .. | .deleteFile .. => .isTrue trivial
  | .updateFile _ _ _ => inferInstanceAs (Decidable (_ ∧ _))

/-! ## The end of a chunk -/

/-- Lines at which a hunk ends: none, or the header of the next hunk. -/
def AtHeader (rest : List Text) : Prop :=
  ∀ line ∈ rest.head?, line.head? = some '*' ∧ line ≠ eofMarker

/-- Lines at which a chunk ends: those at which the hunk ends, or the header of a chunk. -/
def AtChunkEnd (rest : List Text) : Prop :=
  ∀ line ∈ rest.head?, (line.head? = some '*' ∨ line.head? = some '@') ∧ line ≠ eofMarker

variable {rest : List Text}

lemma AtHeader.atChunkEnd (h : AtHeader rest) : AtChunkEnd rest :=
  fun line hline => ⟨.inl (h line hline).1, (h line hline).2⟩

lemma parseChunkLines_atChunkEnd (h : AtChunkEnd rest) (lineNumber : ℕ)
    (chunk : UpdateFileChunk) {parsedLines : ℕ} (hpos : parsedLines ≠ 0) :
    parseChunkLines lineNumber rest chunk parsedLines = .ok (chunk, parsedLines) := by
  cases rest with
  | nil => rfl
  | cons line rest =>
    obtain ⟨hhead, hne⟩ := h line rfl
    unfold parseChunkLines
    rw [if_neg hne]
    rcases hhead with hhead | hhead
    all_goals
      obtain ⟨tail, rfl⟩ := List.head?_eq_some_iff.mp hhead
      simp [hpos]

lemma parseChunkLines_eofMarker (lineNumber : ℕ) (rest : List Text) (chunk : UpdateFileChunk)
    {parsedLines : ℕ} (hpos : parsedLines ≠ 0) :
    parseChunkLines lineNumber (eofMarker :: rest) chunk parsedLines =
      .ok ({ chunk with isEndOfFile := true }, parsedLines + 1) := by
  unfold parseChunkLines
  rw [if_pos rfl, if_neg hpos]

/-! ## Lines -/

lemma ne_eofMarker {c : Char} {line : Text} (h : c ≠ '*') : c :: line ≠ eofMarker := by
  intro heq
  have hhead : (c :: line).head? = some '*' := heq ▸ rfl
  exact h (Option.some.inj hhead)

section

variable (lineNumber : ℕ)

lemma parseChunkLines_old_cons (line : Text) (rest : List Text)
    (chunk : UpdateFileChunk) (parsedLines : ℕ) :
    parseChunkLines lineNumber (('-' :: line) :: rest) chunk parsedLines =
      parseChunkLines lineNumber rest
        { chunk with oldLines := chunk.oldLines ++ [line] } (parsedLines + 1) := by
  have hne : '-' :: line ≠ eofMarker := ne_eofMarker (by decide)
  conv_lhs => unfold parseChunkLines
  rw [if_neg hne]
  rfl

lemma parseChunkLines_old (old rest : List Text) (chunk : UpdateFileChunk)
    (parsedLines : ℕ) :
    parseChunkLines lineNumber (old.map ('-' :: ·) ++ rest) chunk parsedLines =
      parseChunkLines lineNumber rest { chunk with oldLines := chunk.oldLines ++ old }
        (parsedLines + old.length) := by
  induction old generalizing chunk parsedLines with
  | nil => simp
  | cons line old ih =>
    rw [List.map_cons, List.cons_append, parseChunkLines_old_cons, ih]
    rw [List.append_assoc, List.singleton_append, List.length_cons, Nat.add_assoc,
      Nat.add_comm 1]

lemma parseChunkLines_new_cons (line : Text) (rest : List Text)
    (chunk : UpdateFileChunk) (parsedLines : ℕ) :
    parseChunkLines lineNumber (('+' :: line) :: rest) chunk parsedLines =
      parseChunkLines lineNumber rest
        { chunk with newLines := chunk.newLines ++ [line] } (parsedLines + 1) := by
  have hne : '+' :: line ≠ eofMarker := ne_eofMarker (by decide)
  conv_lhs => unfold parseChunkLines
  rw [if_neg hne]
  rfl

lemma parseChunkLines_new (new rest : List Text) (chunk : UpdateFileChunk)
    (parsedLines : ℕ) :
    parseChunkLines lineNumber (new.map ('+' :: ·) ++ rest) chunk parsedLines =
      parseChunkLines lineNumber rest { chunk with newLines := chunk.newLines ++ new }
        (parsedLines + new.length) := by
  induction new generalizing chunk parsedLines with
  | nil => simp
  | cons line new ih =>
    rw [List.map_cons, List.cons_append, parseChunkLines_new_cons, ih]
    rw [List.append_assoc, List.singleton_append, List.length_cons, Nat.add_assoc,
      Nat.add_comm 1]

end

lemma parseAddLines_render (ls : List Text) (h : AtHeader rest)
    (contents : Text) (parsedLines : ℕ) :
    parseAddLines (ls.map ('+' :: ·) ++ rest) contents parsedLines =
      (contents ++ endLines ls, parsedLines + ls.length) := by
  induction ls generalizing contents parsedLines with
  | nil =>
    rw [List.map_nil, List.nil_append, endLines_nil, List.append_nil]
    unfold parseAddLines
    split
    · rename_i line rest
      have := (h _ rfl).1
      simp at this
    · rfl
  | cons line ls ih =>
    rw [List.map_cons, List.cons_append, parseAddLines, ih]
    congr 1
    · simp
    · rw [List.length_cons]
      omega

/-! ## Chunks -/

lemma chunkContext_render (context : Option Text) (lineNumber : ℕ) (allowMissing : Bool) :
    chunkContext (renderContext context) lineNumber allowMissing = .ok (context, 1) := by
  cases context with
  | none => simp [chunkContext, renderContext]
  | some context =>
    have hne : changeContextMarker ++ context ≠ emptyChangeContextMarker := by
      simp [changeContextMarker, emptyChangeContextMarker]
    have hstrip : stripPrefix changeContextMarker (changeContextMarker ++ context) =
        some context := by
      simp [stripPrefix]
    rw [renderContext, chunkContext, if_neg hne, hstrip]

lemma head?_renderContext (context : Option Text) : (renderContext context).head? = some '@' := by
  cases context <;> rfl

/-- One rendered chunk is read back, with the number of its lines. -/
lemma parseUpdateFileChunk_render {chunk : UpdateFileChunk} (hline : chunk.HasLine)
    (hrest : AtChunkEnd rest) (lineNumber : ℕ) (allowMissing : Bool) :
    parseUpdateFileChunk (renderChunk chunk ++ rest) lineNumber allowMissing =
      .ok (chunk, (renderChunk chunk).length) := by
  obtain ⟨context, old, new, isEnd⟩ := chunk
  have hpos : 0 + old.length + new.length ≠ 0 := by
    rcases hline with hline | hline
    all_goals
      have := List.length_pos_iff.mpr hline
      dsimp only at this
      omega
  have hlines : parseChunkLines lineNumber
      (old.map ('-' :: ·) ++ (new.map ('+' :: ·) ++ if isEnd then [eofMarker] else []) ++ rest)
      ⟨context, [], [], false⟩ 0 =
      .ok (⟨context, old, new, isEnd⟩, old.length + new.length + if isEnd then 1 else 0) := by
    rw [List.append_assoc, List.append_assoc, parseChunkLines_old, parseChunkLines_new]
    cases isEnd with
    | false =>
      rw [if_neg (by simp), List.nil_append, parseChunkLines_atChunkEnd hrest _ _ hpos]
      simp
    | true =>
      rw [if_pos rfl, List.cons_append, parseChunkLines_eofMarker _ _ _ hpos]
      simp
  have hne : ¬ (renderChunk ⟨context, old, new, isEnd⟩ ++ rest).length ≤ 1 := by
    simp only [renderChunk, List.cons_append, List.length_cons, List.length_append,
      List.length_map]
    omega
  unfold parseUpdateFileChunk
  rw [renderChunk, List.cons_append] at hne ⊢
  dsimp only
  rw [chunkContext_render]
  show (if _ then _ else _) = _
  rw [if_neg hne, List.drop_one, List.tail_cons, hlines]
  show Except.ok _ = _
  congr 2
  simp only [List.length_cons, List.length_append, List.length_map, apply_ite List.length,
    List.length_nil, Nat.zero_add]
  omega

lemma renderContext_ne_at (context : Option Text) : renderContext context ≠ ['@'] := by
  cases context <;> intro h <;> cases h

lemma atChunkEnd_render (chunks : List UpdateFileChunk) (h : AtHeader rest) :
    AtChunkEnd (chunks.flatMap renderChunk ++ rest) := by
  cases chunks with
  | nil => exact h.atChunkEnd
  | cons chunk chunks =>
    intro line hline
    rw [List.flatMap_cons, renderChunk, List.cons_append, List.cons_append, List.head?_cons,
      Option.mem_some_iff] at hline
    obtain ⟨tail, htail⟩ := List.head?_eq_some_iff.mp (head?_renderContext chunk.changeContext)
    rw [← hline, htail]
    exact ⟨.inr rfl, ne_eofMarker (by decide)⟩

lemma parseChunks_atHeader (h : AtHeader rest) (lineNumber : ℕ)
    (allowIncomplete : Bool) (fuel : ℕ) (chunks : List UpdateFileChunk) (parsedLines : ℕ) :
    parseChunks lineNumber allowIncomplete fuel rest chunks parsedLines =
      .ok (chunks, parsedLines) := by
  cases fuel with
  | zero => rfl
  | succ fuel =>
    cases rest with
    | nil => rfl
    | cons line rest =>
      obtain ⟨hhead, -⟩ := h line rfl
      obtain ⟨tail, rfl⟩ := List.head?_eq_some_iff.mp hhead
      rw [parseChunks, if_neg (trim_cons_ne_nil tail (by decide)), if_pos hhead]

variable {chunks : List UpdateFileChunk}

lemma parseChunks_render (hlines : ∀ chunk ∈ chunks, chunk.HasLine)
    (hrest : AtHeader rest) (lineNumber : ℕ) (allowIncomplete : Bool)
    {fuel : ℕ} (hfuel : chunks.length ≤ fuel) (read : List UpdateFileChunk) (parsedLines : ℕ) :
    parseChunks lineNumber allowIncomplete fuel (chunks.flatMap renderChunk ++ rest) read
      parsedLines =
      .ok (read ++ chunks, parsedLines + (chunks.flatMap renderChunk).length) := by
  -- every chunk takes one round, and what follows it ends it
  induction chunks generalizing fuel read parsedLines with
  | nil => simpa using parseChunks_atHeader hrest lineNumber allowIncomplete fuel read parsedLines
  | cons chunk chunks ih =>
    obtain ⟨fuel, rfl⟩ : ∃ f, fuel = f + 1 := Nat.exists_eq_succ_of_ne_zero (by
      rw [List.length_cons] at hfuel
      omega)
    have hchunk := parseUpdateFileChunk_render (hlines chunk List.mem_cons_self)
      (atChunkEnd_render chunks hrest) (lineNumber + parsedLines) read.isEmpty
    have hne := renderContext_ne_at chunk.changeContext
    obtain ⟨tail, htail⟩ := List.head?_eq_some_iff.mp (head?_renderContext chunk.changeContext)
    obtain ⟨body, hbody⟩ : ∃ body, renderChunk chunk = ('@' :: tail) :: body :=
      ⟨_, by rw [renderChunk, htail]⟩
    rw [htail] at hne
    rw [List.flatMap_cons, List.append_assoc]
    rw [hbody, List.cons_append] at hchunk ⊢
    rw [parseChunks, if_neg (trim_cons_ne_nil tail (by decide)), if_neg (by simp),
      if_neg (by simp [hne]), hchunk]
    dsimp only
    rw [← List.cons_append, List.drop_left, ih (fun c hc => hlines c (List.mem_cons_of_mem _ hc))
      (by rw [List.length_cons] at hfuel; omega), List.length_append, List.append_assoc,
      List.singleton_append, Nat.add_assoc]

lemma length_le_flatMap_renderChunk (chunks : List UpdateFileChunk) :
    chunks.length ≤ (chunks.flatMap renderChunk).length := by
  induction chunks with
  | nil => simp
  | cons chunk chunks ih =>
    rw [List.flatMap_cons, renderChunk, List.cons_append, List.length_cons, List.length_cons,
      List.length_append]
    omega

/-! ## Hunks -/

variable {path : Text}

lemma IsPath.trim_append (h : IsPath path) {marker : Text}
    (hstart : trimStart marker = marker) (hmarker : NonBlank marker) :
    trim (marker ++ path) = marker ++ path :=
  trim_append_of_trim hmarker hstart h.trimmed h.nonempty

lemma parseAddFile_render {path contents : Text} (h : (Hunk.addFile path contents).InLines)
    (hrest : AtHeader rest) (lineNumber : ℕ) (allowIncomplete : Bool) :
    parseOneHunk (addFileMarker ++ path) ((lines contents).map ('+' :: ·) ++ rest) lineNumber
      allowIncomplete =
      .ok (.addFile path contents, (renderHunk (.addFile path contents)).length) := by
  obtain ⟨hpath, ls, hls, rfl⟩ := h
  have hlines := lines_endLines_of_isLine hls
  unfold parseOneHunk
  dsimp only
  rw [hpath.trim_append rfl ⟨'*', by decide, by decide⟩, stripPrefix_append]
  rw [hlines, parseAddLines_render ls hrest, List.nil_append, renderHunk, hlines,
    List.length_cons, List.length_map, Nat.add_comm]

lemma parseDeleteFile_render (h : IsPath path) (rest : List Text) (lineNumber : ℕ)
    (allowIncomplete : Bool) :
    parseOneHunk (deleteFileMarker ++ path) rest lineNumber allowIncomplete =
      .ok (.deleteFile path, 1) := by
  have hadd : stripPrefix addFileMarker (deleteFileMarker ++ path) = none := rfl
  unfold parseOneHunk
  dsimp only
  rw [h.trim_append rfl ⟨'*', by decide, by decide⟩, hadd, stripPrefix_append]

lemma head?_bind_stripPrefix_render (movePath : Option Text)
    (hne : chunks ≠ []) (rest : List Text) :
    (renderMove movePath ++ (chunks.flatMap renderChunk ++ rest)).head?.bind
      (stripPrefix moveToMarker) = movePath := by
  cases movePath with
  | some path => exact stripPrefix_append moveToMarker path
  | none =>
    obtain ⟨chunk, chunks, rfl⟩ := List.exists_cons_of_ne_nil hne
    obtain ⟨tail, htail⟩ := List.head?_eq_some_iff.mp (head?_renderContext chunk.changeContext)
    rw [List.flatMap_cons, renderChunk, htail]
    rfl

/-- A rendered update is read back whole, with its number of lines. -/
lemma parseUpdateFile_render {movePath : Option Text} (h : IsPath path)
    (hfilled : (Hunk.updateFile path movePath chunks).Filled)
    (hrest : AtHeader rest) (lineNumber : ℕ) (allowIncomplete : Bool) :
    parseOneHunk (updateFileMarker ++ path)
      (renderMove movePath ++ (chunks.flatMap renderChunk ++ rest)) lineNumber allowIncomplete =
      .ok (.updateFile path movePath chunks,
        (renderHunk (.updateFile path movePath chunks)).length) := by
  have hadd : stripPrefix addFileMarker (updateFileMarker ++ path) = none := rfl
  have hdelete : stripPrefix deleteFileMarker (updateFileMarker ++ path) = none := rfl
  have hmove := head?_bind_stripPrefix_render movePath hfilled.1 rest
  have htaken : (if movePath.isSome = true then 1 else 0) = (renderMove movePath).length := by
    cases movePath <;> rfl
  have hfuel : chunks.length ≤
      (renderMove movePath ++ (chunks.flatMap renderChunk ++ rest)).length := by
    have := length_le_flatMap_renderChunk chunks
    simp only [List.length_append]
    omega
  unfold parseOneHunk
  dsimp only
  rw [h.trim_append rfl ⟨'*', by decide, by decide⟩, hadd, hdelete, stripPrefix_append]
  unfold parseUpdate
  dsimp only
  rw [hmove, htaken, List.drop_left, parseChunks_render hfilled.2 hrest _ _ hfuel]
  show (if _ then _ else _) = _
  rw [List.nil_append, if_neg hfilled.1]
  show Except.ok _ = _
  congr 2
  simp only [renderHunk, List.length_cons, List.length_append]
  omega

lemma parseOneHunk_render {hunk : Hunk} (h : hunk.InLines) (hfilled : hunk.Filled) :
    ∃ line body, renderHunk hunk = line :: body ∧ (line.head? = some '*' ∧ line ≠ eofMarker) ∧
      ∀ rest lineNumber allowIncomplete, AtHeader rest →
        parseOneHunk line (body ++ rest) lineNumber allowIncomplete =
          .ok (hunk, (renderHunk hunk).length) := by
  cases hunk with
  | addFile path contents =>
    refine ⟨_, _, rfl, ⟨rfl, fun heq => ?_⟩, ?_⟩
    · cases heq
    · intro rest lineNumber allowIncomplete hrest
      exact parseAddFile_render h hrest lineNumber allowIncomplete
  | deleteFile path =>
    refine ⟨_, _, rfl, ⟨rfl, fun heq => ?_⟩, ?_⟩
    · cases heq
    · intro rest lineNumber allowIncomplete _
      exact parseDeleteFile_render h rest lineNumber allowIncomplete
  | updateFile path movePath chunks =>
    refine ⟨_, _, rfl, ⟨rfl, fun heq => ?_⟩, ?_⟩
    · cases heq
    · intro rest lineNumber allowIncomplete hrest
      rw [List.append_assoc]
      exact parseUpdateFile_render h.1 hfilled hrest lineNumber allowIncomplete

variable {hunks : List Hunk}

lemma atHeader_render (h : ∀ hunk ∈ hunks, hunk.InLines)
    (hfilled : ∀ hunk ∈ hunks, hunk.Filled) : AtHeader (hunks.flatMap renderHunk) := by
  cases hunks with
  | nil => simp [AtHeader]
  | cons hunk hunks =>
    obtain ⟨line, body, heq, hhead, -⟩ :=
      parseOneHunk_render (h hunk List.mem_cons_self) (hfilled hunk List.mem_cons_self)
    intro line' hline'
    rw [List.flatMap_cons, heq, List.cons_append, List.head?_cons, Option.mem_some_iff] at hline'
    exact hline' ▸ hhead

lemma parseHunks_render (h : ∀ hunk ∈ hunks, hunk.InLines)
    (hfilled : ∀ hunk ∈ hunks, hunk.Filled) (allowIncomplete : Bool) {fuel : ℕ}
    (hfuel : hunks.length ≤ fuel) (lineNumber : ℕ) (read : List Hunk) :
    parseHunks allowIncomplete fuel (hunks.flatMap renderHunk) lineNumber read =
      .ok (read ++ hunks) := by
  induction hunks generalizing fuel lineNumber read with
  | nil => cases fuel <;> simp [parseHunks]
  | cons hunk hunks ih =>
    have h' : ∀ hunk ∈ hunks, hunk.InLines := fun k hk => h k (List.mem_cons_of_mem _ hk)
    have hfilled' : ∀ hunk ∈ hunks, hunk.Filled :=
      fun k hk => hfilled k (List.mem_cons_of_mem _ hk)
    rw [List.length_cons] at hfuel
    obtain ⟨fuel, rfl⟩ : ∃ f, fuel = f + 1 := Nat.exists_eq_succ_of_ne_zero (by omega)
    obtain ⟨line, body, heq, -, hparse⟩ :=
      parseOneHunk_render (h hunk List.mem_cons_self) (hfilled hunk List.mem_cons_self)
    have hone := hparse (hunks.flatMap renderHunk) lineNumber allowIncomplete
      (atHeader_render h' hfilled')
    rw [List.flatMap_cons, heq, List.cons_append, parseHunks, hone]
    show parseHunks _ _ _ _ _ = _
    rw [heq, ← List.cons_append, List.drop_left, ih h' hfilled' (by omega), List.append_assoc,
      List.singleton_append]

lemma length_le_flatMap_renderHunk (hunks : List Hunk) :
    hunks.length ≤ (hunks.flatMap renderHunk).length := by
  induction hunks with
  | nil => simp
  | cons hunk hunks ih =>
    have hpos : 0 < (renderHunk hunk).length := by cases hunk <;> simp [renderHunk]
    rw [List.flatMap_cons, List.length_cons, List.length_append]
    omega

/-! ## The text -/

lemma IsLine.append {m t : Text} (hmarker : IsLine m) (h : IsLine t) :
    IsLine (m ++ t) := by
  constructor
  · simpa [hmarker.newline] using h.newline
  · rw [List.getLast?_append]
    cases ht : t.getLast? with
    | none => simpa using hmarker.carriageReturn
    | some c => simpa [ht] using h.carriageReturn

lemma IsPath.isLine (h : IsPath path) : IsLine path := by
  refine ⟨h.newline, fun hlast => ?_⟩
  have hws := isWhitespace_of_trimEnd (trimEnd_eq_self_of_trim h.trimmed) hlast
  cases hws

lemma isLine_renderChunk {chunk : UpdateFileChunk} (h : chunk.InLines) :
    ∀ line ∈ renderChunk chunk, IsLine line := by
  intro line hline
  rw [renderChunk, List.mem_cons, List.mem_append, List.mem_append, List.mem_map,
    List.mem_map] at hline
  rcases hline with rfl | ⟨t, ht, rfl⟩ | ⟨t, ht, rfl⟩ | hline
  · cases hcontext : chunk.changeContext with
    | none => exact ⟨by decide, by decide⟩
    | some context =>
      exact IsLine.append ⟨by decide, by decide⟩ (h.context context (by rw [hcontext]; rfl))
  · exact IsLine.append (m := ['-']) ⟨by decide, by decide⟩ (h.old t ht)
  · exact IsLine.append (m := ['+']) ⟨by decide, by decide⟩ (h.new t ht)
  · have heof : line = eofMarker := by
      split at hline
      · exact List.mem_singleton.mp hline
      · cases hline
    rw [heof]
    exact ⟨by decide, by decide⟩

lemma isLine_renderHunk {hunk : Hunk} (h : hunk.InLines) :
    ∀ line ∈ renderHunk hunk, IsLine line := by
  intro line hline
  cases hunk with
  | addFile path contents =>
    obtain ⟨hpath, ls, hls, rfl⟩ := h
    rw [renderHunk, List.mem_cons, List.mem_map, lines_endLines_of_isLine hls] at hline
    rcases hline with rfl | ⟨t, ht, rfl⟩
    · exact IsLine.append ⟨by decide, by decide⟩ hpath.isLine
    · exact IsLine.append (m := ['+']) ⟨by decide, by decide⟩ (hls t ht)
  | deleteFile path =>
    rw [renderHunk, List.mem_singleton] at hline
    rw [hline]
    exact IsLine.append ⟨by decide, by decide⟩ (IsPath.isLine h)
  | updateFile path movePath chunks =>
    obtain ⟨hpath, hmove, hchunks⟩ := h
    rw [renderHunk, List.mem_cons, List.mem_append, List.mem_flatMap] at hline
    rcases hline with rfl | hline | ⟨chunk, hchunk, hline⟩
    · exact IsLine.append ⟨by decide, by decide⟩ hpath.isLine
    · cases movePath with
      | none => cases hline
      | some path =>
        rw [renderMove, Option.map_some, Option.toList_some, List.mem_singleton] at hline
        rw [hline]
        exact IsLine.append ⟨by decide, by decide⟩ (hmove path rfl).isLine
    · exact isLine_renderChunk (hchunks chunk hchunk) line hline

lemma lines_trim_render (h : ∀ hunk ∈ hunks, hunk.InLines) :
    lines (trim (render hunks)) =
      beginPatchMarker :: (hunks.flatMap renderHunk ++ [endPatchMarker]) := by
  have hlines : ∀ line ∈ hunks.flatMap renderHunk, IsLine line := by
    intro line hline
    obtain ⟨hunk, hhunk, hline⟩ := List.mem_flatMap.mp hline
    exact isLine_renderHunk (h hunk hhunk) line hline
  unfold render
  rw [lines_trim_joinLines ⟨'*', by decide, by decide⟩ ⟨'*', by decide, by decide⟩,
    (map_stripCr_eq_self_iff _).mpr fun line hline => (hlines line hline).carriageReturn]
  · rfl
  · intro line hline
    rw [List.mem_cons, List.mem_append, List.mem_singleton] at hline
    rcases hline with rfl | hline | rfl
    · decide
    · exact (hlines line hline).newline
    · decide

/-- Rendered hunks are parsed back, if every update has a chunk and every chunk a line. -/
theorem parsePatch_render (hunks : List Hunk) (h : ∀ hunk ∈ hunks, hunk.InLines)
    (hfilled : ∀ hunk ∈ hunks, hunk.Filled) :
    ∃ args, parsePatch (render hunks) = .ok args ∧ args.hunks = hunks := by
  have hlines := lines_trim_render h
  have hmarked : Marked (lines (trim (render hunks))) := by
    rw [hlines]
    exact marked_of_eq rfl rfl
  have hhunks : hunksOf (lines (trim (render hunks))) = .ok hunks := by
    unfold hunksOf
    rw [hlines, List.tail_cons, List.dropLast_concat,
      parseHunks_render h hfilled false (length_le_flatMap_renderHunk hunks), List.nil_append]
  rw [parsePatch_of_marked hmarked, hhunks]
  exact ⟨_, rfl, rfl⟩

/-- An added file whose line reads as the end marker, an update that moves its file and ends in
the end-of-file marker, and a deletion. -/
theorem parsePatch_render_marker_lines :
    let hunks : List Hunk := [.addFile "a".toList "*** End Patch\n".toList,
      .updateFile "b".toList (some "c".toList)
        [⟨none, ["@@".toList], [], false⟩, ⟨some "f".toList, ["x".toList], ["y".toList], true⟩],
      .deleteFile "d".toList]
    ((∀ hunk ∈ hunks, hunk.InLines) ∧ ∀ hunk ∈ hunks, hunk.Filled) ∧
      ∃ args, parsePatch (render hunks) = .ok args ∧ args.hunks = hunks := by
  intro hunks
  have h : ∀ hunk ∈ hunks, hunk.InLines := by decide +kernel
  have hfilled : ∀ hunk ∈ hunks, hunk.Filled := by decide +kernel
  exact ⟨⟨h, hfilled⟩, parsePatch_render hunks h hfilled⟩

/-- One chunk with a line is not enough: a chunk without lines before it is refused. -/
theorem parsePatch_render_empty_chunk :
    let empty : UpdateFileChunk := ⟨none, [], [], false⟩
    let chunk : UpdateFileChunk := ⟨none, ["x".toList], [], false⟩
    let hunk : Hunk := .updateFile "a".toList none [empty, chunk]
    (hunk.InLines ∧ ∃ c ∈ [empty, chunk], c.HasLine) ∧
      ¬ ∃ args, parsePatch (render [hunk]) = .ok args ∧ args.hunks = [hunk] := by
  intro empty chunk hunk
  refine ⟨by decide +kernel, ?_⟩
  intro ⟨args, hargs, _⟩
  have herror : parsePatch (render [hunk]) =
      .error (.invalidHunkError (unexpectedLineMessage emptyChangeContextMarker) 4) := by
    decide +kernel
  rw [herror] at hargs
  cases hargs

end Supercodex.ApplyPatch
