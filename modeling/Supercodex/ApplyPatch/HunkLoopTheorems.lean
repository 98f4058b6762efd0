import Supercodex.ApplyPatch.StreamingTheorems

/-!
# The loop over the hunks (`apply-patch/src/parser.rs`)

Every hunk takes its header, and no more lines than there are. So the loop ends, and what the hunks take is the
body, in order. When a hunk fails, the number that is reported is its header's, or a number in the chunk that
fails: its first line's if that should have been a context marker, and the one after the marker otherwise.
-/

namespace Supercodex.ApplyPatch

open Text

/-! ## The loops end -/

variable {ls : List Text} {lineNumber : ℕ} {allowIncomplete : Bool}

/-- More fuel than lines changes nothing: the loop over the chunks ends. -/
lemma parseChunks_fuel {lineNumber fuel fuel' parsedLines : ℕ}
    {chunks : List UpdateFileChunk} (hfuel : ls.length ≤ fuel)
    (hfuel' : ls.length ≤ fuel') :
    parseChunks lineNumber allowIncomplete fuel ls chunks parsedLines =
      parseChunks lineNumber allowIncomplete fuel' ls chunks parsedLines := by
  induction fuel generalizing ls fuel' chunks parsedLines with
  | zero =>
    rw [List.eq_nil_of_length_eq_zero (Nat.le_zero.mp hfuel)]
    cases fuel' <;> rfl
  | succ fuel ih =>
    cases ls with
    | nil => cases fuel' <;> rfl
    | cons line ls =>
      rw [List.length_cons] at hfuel hfuel'
      obtain ⟨fuel', rfl⟩ : ∃ f, fuel' = f + 1 := Nat.exists_eq_succ_of_ne_zero (by omega)
      rw [parseChunks, parseChunks]
      by_cases hblank : trim line = []
      · rw [if_pos hblank, if_pos hblank]
        apply ih
        · omega
        · omega
      rw [if_neg hblank, if_neg hblank]
      by_cases hstar : line.head? = some '*'
      · rw [if_pos hstar, if_pos hstar]
      rw [if_neg hstar, if_neg hstar]
      cases hchunk : parseUpdateFileChunk (line :: ls) (lineNumber + parsedLines) chunks.isEmpty with
      | error e => cases e <;> rfl
      | ok result =>
        have hpos := taken_of_parseUpdateFileChunk hchunk
        have hlength : ((line :: ls).drop result.2).length ≤ fuel ∧
            ((line :: ls).drop result.2).length ≤ fuel' := by
          rw [List.length_drop, List.length_cons]
          omega
        split
        · rfl
        · exact ih hlength.1 hlength.2

lemma parseHunks_fuel {fuel fuel' lineNumber : ℕ}
    {hunks : List Hunk} (hfuel : ls.length ≤ fuel) (hfuel' : ls.length ≤ fuel') :
    parseHunks allowIncomplete fuel ls lineNumber hunks =
      parseHunks allowIncomplete fuel' ls lineNumber hunks := by
  induction fuel generalizing ls fuel' lineNumber hunks with
  | zero =>
    rw [List.eq_nil_of_length_eq_zero (Nat.le_zero.mp hfuel), parseHunks_nil, parseHunks_nil]
  | succ fuel ih =>
    cases ls with
    | nil => rw [parseHunks_nil, parseHunks_nil]
    | cons line ls =>
      rw [List.length_cons] at hfuel hfuel'
      obtain ⟨fuel', rfl⟩ : ∃ f, fuel' = f + 1 := Nat.exists_eq_succ_of_ne_zero (by omega)
      rw [parseHunks, parseHunks]
      cases hone : parseOneHunk line ls lineNumber allowIncomplete with
      | error e => rfl
      | ok result =>
        have hpos := taken_of_parseOneHunk hone
        show parseHunks _ fuel ((line :: ls).drop result.2) _ _ =
          parseHunks _ fuel' ((line :: ls).drop result.2) _ _
        apply ih
        · rw [List.length_drop, List.length_cons]
          omega
        · rw [List.length_drop, List.length_cons]
          omega

/-! ## Chunks that fail -/

/-- A line that `parse_update_file_chunk` takes for a context marker. -/
def IsContextMarker (line : Text) : Prop :=
  line = emptyChangeContextMarker ∨ changeContextMarker <+: line

/-- Why no chunk is read at the head of some lines, and the number that is reported for it. -/
inductive ChunkFailure (lineNumber : ℕ) (allowMissing : Bool) : List Text → Text → ℕ → Prop
  /-- The first line should be a context marker. -/
  | missingContext {line : Text} {rest : List Text} (hmissing : allowMissing = false)
      (hline : ¬ IsContextMarker line) :
      ChunkFailure lineNumber allowMissing (line :: rest) (missingContextMessage line) lineNumber
  /-- The lines end with the marker. -/
  | noLines {marker : Text} (hmarker : IsContextMarker marker) :
      ChunkFailure lineNumber allowMissing [marker] noLinesMessage (lineNumber + 1)
  /-- The file ends after the marker. -/
  | endOfFile {marker : Text} {rest : List Text} (hmarker : IsContextMarker marker) :
      ChunkFailure lineNumber allowMissing (marker :: eofMarker :: rest) noLinesMessage (lineNumber + 1)
  /-- The line after the marker has no sign. -/
  | unexpected {marker line : Text} {rest : List Text} (hmarker : IsContextMarker marker) :
      ChunkFailure lineNumber allowMissing (marker :: line :: rest) (unexpectedLineMessage line)
        (lineNumber + 1)
  /-- The first line is no marker and has no sign; what number is reported is left open. -/
  | unmarked {line : Text} {rest : List Text} {number : ℕ} (hmissing : allowMissing = true)
      (hline : ¬ IsContextMarker line) :
      ChunkFailure lineNumber allowMissing (line :: rest) (unexpectedLineMessage line) number

variable {e : ParseError}

lemma error_of_bind {α β : Type} {x : Except ParseError α} {f : α → Except ParseError β}
    (h : x >>= f = .error e) : x = .error e ∨ ∃ a, x = .ok a ∧ f a = .error e := by
  cases x with
  | error e' =>
    cases h
    exact .inl rfl
  | ok a => exact .inr ⟨a, rfl, h⟩

/-- Only the first line of a chunk can fail. -/
lemma failure_of_parseChunkLines {chunk : UpdateFileChunk}
    {parsedLines : ℕ} (h : parseChunkLines lineNumber ls chunk parsedLines = .error e) :
    parsedLines = 0 ∧ ∃ line rest, ls = line :: rest ∧
      (line = eofMarker ∧ e = .invalidHunkError noLinesMessage (lineNumber + 1) ∨
        line ≠ eofMarker ∧ e = .invalidHunkError (unexpectedLineMessage line) (lineNumber + 1)) := by
  induction ls generalizing chunk parsedLines with
  | nil => cases h
  | cons line ls ih =>
    unfold parseChunkLines at h
    by_cases heof : line = eofMarker
    · rw [if_pos heof] at h
      split at h
      · cases h
        exact ⟨‹_›, line, ls, rfl, .inl ⟨heof, rfl⟩⟩
      · cases h
    · rw [if_neg heof] at h
      split at h
      iterate 4
        · exact absurd (ih h).1 (Nat.succ_ne_zero _)
      · split at h
        · cases h
          exact ⟨‹_›, _, ls, rfl, .inr ⟨heof, rfl⟩⟩
        · cases h

lemma chunkContext_eq (line : Text) (lineNumber : ℕ) (allowMissing : Bool) :
    (IsContextMarker line ∧ ∃ context, chunkContext line lineNumber allowMissing = .ok (context, 1)) ∨
    ¬ IsContextMarker line ∧ chunkContext line lineNumber allowMissing =
      if allowMissing then .ok (none, 0)
      else .error (.invalidHunkError (missingContextMessage line) lineNumber) := by
  unfold chunkContext
  by_cases hempty : line = emptyChangeContextMarker
  · rw [if_pos hempty]
    exact .inl ⟨.inl hempty, none, rfl⟩
  rw [if_neg hempty]
  cases hcontext : stripPrefix changeContextMarker line with
  | some context => exact .inl ⟨.inr (isInitial_of_stripPrefix hcontext), some context, rfl⟩
  | none =>
    refine .inr ⟨?_, rfl⟩
    rintro (heq | hinit)
    · exact hempty heq
    · exact not_isInitial_of_stripPrefix hcontext hinit

/-- A chunk fails for one of the reasons. -/
lemma failure_of_parseUpdateFileChunk {line : Text} {rest : List Text}
    {allowMissing : Bool} (hstar : line.head? ≠ some '*')
    (h : parseUpdateFileChunk (line :: rest) lineNumber allowMissing = .error e) :
    ∃ message number, e = .invalidHunkError message number ∧
      ChunkFailure lineNumber allowMissing (line :: rest) message number := by
  unfold parseUpdateFileChunk at h
  dsimp only at h
  obtain ⟨hmarker, context, hcontext⟩ | ⟨hline, hcontext⟩ := chunkContext_eq line lineNumber allowMissing
  · rw [hcontext] at h
    change (if (line :: rest).length ≤ 1 then _ else parseChunkLines _ rest _ 0 >>= _) = _ at h
    split at h
    · rename_i hlength
      cases h
      rw [List.eq_nil_of_length_eq_zero (Nat.le_zero.mp (Nat.le_of_succ_le_succ hlength))]
      exact ⟨_, _, rfl, .noLines hmarker⟩
    · obtain hlines | ⟨_, _, hok⟩ := error_of_bind h
      · obtain ⟨-, line', rest', rfl, ⟨rfl, rfl⟩ | ⟨-, rfl⟩⟩ := failure_of_parseChunkLines hlines
        · exact ⟨_, _, rfl, .endOfFile hmarker⟩
        · exact ⟨_, _, rfl, .unexpected hmarker⟩
      · cases hok
  · rw [hcontext] at h
    cases allowMissing with
    | false =>
      cases h
      exact ⟨_, _, rfl, .missingContext rfl hline⟩
    | true =>
      change parseChunkLines _ (line :: rest) _ 0 >>= _ = _ at h
      obtain hlines | ⟨_, _, hok⟩ := error_of_bind h
      · obtain ⟨-, line', rest', heq, ⟨rfl, -⟩ | ⟨-, rfl⟩⟩ := failure_of_parseChunkLines hlines
        · -- the marker of the end of the file starts with a star
          rw [(List.cons.inj heq).1] at hstar
          exact absurd rfl hstar
        · rw [← (List.cons.inj heq).1]
          exact ⟨_, _, rfl, .unmarked rfl hline⟩
      · cases hok

/-! ## Hunks that fail -/

/-- The state of the loop over the chunks of an update. -/
structure ChunkLoop where
  remainingLines : List Text
  chunks : List UpdateFileChunk
  parsedLines : ℕ

/-- A round of the loop that goes on. -/
inductive ChunkStep (lineNumber : ℕ) : ChunkLoop → ChunkLoop → Prop
  | blank {line : Text} {ls : List Text} {chunks : List UpdateFileChunk} {parsedLines : ℕ}
      (hblank : trim line = []) :
      ChunkStep lineNumber ⟨line :: ls, chunks, parsedLines⟩ ⟨ls, chunks, parsedLines + 1⟩
  | chunk {ls : List Text} {chunks : List UpdateFileChunk} {parsedLines taken : ℕ}
      {chunk : UpdateFileChunk}
      (hchunk : parseUpdateFileChunk ls (lineNumber + parsedLines) chunks.isEmpty = .ok (chunk, taken)) :
      ChunkStep lineNumber ⟨ls, chunks, parsedLines⟩
        ⟨ls.drop taken, chunks ++ [chunk], parsedLines + taken⟩

/-- Why no hunk is read at the head of some lines, and the number that is reported for it. -/
inductive HunkFailure (lineNumber : ℕ) : List Text → Text → ℕ → Prop
  /-- The first line is no header. -/
  | header {line : Text} {rest : List Text} (hline : ¬ IsHeader line) :
      HunkFailure lineNumber (line :: rest) (invalidHeaderMessage (trim line)) lineNumber
  /-- An update has no chunk. -/
  | empty {line path : Text} {rest : List Text}
      (hupdate : stripPrefix updateFileMarker (trim line) = some path) :
      HunkFailure lineNumber (line :: rest) (emptyUpdateMessage path) lineNumber
  /-- A chunk of an update fails: the loop over the chunks has read the lines before it. -/
  | chunk {line path message : Text} {rest : List Text} {chunks : List UpdateFileChunk}
      {parsedLines number : ℕ}
      (hupdate : stripPrefix updateFileMarker (trim line) = some path)
      (hread : Relation.ReflTransGen (ChunkStep lineNumber) ⟨rest.drop (moveLines rest), [], 1 + moveLines rest⟩
        ⟨(line :: rest).drop parsedLines, chunks, parsedLines⟩)
      (hchunk : ChunkFailure (lineNumber + parsedLines) chunks.isEmpty ((line :: rest).drop parsedLines)
        message number) :
      HunkFailure lineNumber (line :: rest) message number

/-- The loop over the chunks fails at a chunk, in front of which it has read all lines. -/
lemma failure_of_parseChunks {lineNumber fuel parsedLines : ℕ} {chunks : List UpdateFileChunk}
    (h : parseChunks lineNumber allowIncomplete fuel ls chunks parsedLines = .error e) :
    ∃ taken chunks' message number, e = .invalidHunkError message number ∧
      Relation.ReflTransGen (ChunkStep lineNumber) ⟨ls, chunks, parsedLines⟩
        ⟨ls.drop taken, chunks', parsedLines + taken⟩ ∧
      ChunkFailure (lineNumber + (parsedLines + taken)) chunks'.isEmpty (ls.drop taken) message number := by
  induction fuel generalizing ls chunks parsedLines with
  | zero => cases h
  | succ fuel ih =>
    cases ls with
    | nil => cases h
    | cons line ls =>
      rw [parseChunks] at h
      by_cases hblank : trim line = []
      · rw [if_pos hblank] at h
        obtain ⟨taken, chunks', message, number, herror, hread, hfailure⟩ := ih h
        rw [Nat.add_assoc, Nat.add_comm 1] at hread hfailure
        exact ⟨taken + 1, chunks', message, number, herror, .head (.blank hblank) hread, hfailure⟩
      rw [if_neg hblank] at h
      by_cases hstar : line.head? = some '*'
      · rw [if_pos hstar] at h
        cases h
      rw [if_neg hstar] at h
      split at h
      · cases h
      cases hchunk : parseUpdateFileChunk (line :: ls) (lineNumber + parsedLines) chunks.isEmpty with
      | ok result =>
        rw [hchunk] at h
        obtain ⟨taken, chunks', message, number, herror, hread, hfailure⟩ := ih h
        rw [List.drop_drop, Nat.add_assoc] at hread hfailure
        exact ⟨result.2 + taken, chunks', message, number, herror, .head (.chunk hchunk) hread, hfailure⟩
      | error e' =>
        obtain ⟨message, number, rfl, hfailure⟩ := failure_of_parseUpdateFileChunk hstar hchunk
        rw [hchunk] at h
        dsimp only at h
        split at h
        · cases h
        · cases h
          exact ⟨0, chunks, message, number, rfl, .refl, hfailure⟩

/-- A hunk fails for one of the reasons. -/
lemma failure_of_parseOneHunk {line : Text} {rest : List Text}
    (h : parseOneHunk line rest lineNumber allowIncomplete = .error e) :
    ∃ message number, e = .invalidHunkError message number ∧
      HunkFailure lineNumber (line :: rest) message number := by
  unfold parseOneHunk at h
  dsimp only at h
  split at h
  · cases h
  rename_i hadd
  split at h
  · cases h
  rename_i hdelete
  split at h
  · rename_i path hupdate
    change parseChunks _ _ _ (rest.drop (moveLines rest)) [] (1 + moveLines rest) >>= _ = _ at h
    obtain hchunks | ⟨⟨chunks, parsedLines⟩, -, hempty⟩ := error_of_bind h
    · obtain ⟨taken, chunks, message, number, herror, hread, hfailure⟩ := failure_of_parseChunks hchunks
      have hdrop : (rest.drop (moveLines rest)).drop taken =
          (line :: rest).drop (1 + moveLines rest + taken) := by
        rw [List.drop_drop, Nat.add_assoc, Nat.add_comm 1, List.drop_succ_cons]
      rw [hdrop] at hread hfailure
      exact ⟨message, number, herror, .chunk hupdate hread hfailure⟩
    · change (if chunks = [] then _ else _) = _ at hempty
      split at hempty
      · cases hempty
        exact ⟨_, _, rfl, .empty hupdate⟩
      · cases hempty
  · rename_i hupdate
    cases h
    refine ⟨_, _, rfl, .header ?_⟩
    rintro ⟨marker, hmem, hmarker⟩
    simp only [List.mem_cons, List.not_mem_nil, or_false] at hmem
    rcases hmem with rfl | rfl | rfl
    · exact not_isInitial_of_stripPrefix hadd hmarker
    · exact not_isInitial_of_stripPrefix hdelete hmarker
    · exact not_isInitial_of_stripPrefix hupdate hmarker

/-! ## The hunks of the body -/

/-- The loop over the hunks reads these hunks, each from the lines next to it, and is left with some lines. -/
inductive HunksRead (allowIncomplete : Bool) : ℕ → List Text → List (Hunk × List Text) → List Text → Prop
  | nil (lineNumber : ℕ) (ls : List Text) : HunksRead allowIncomplete lineNumber ls [] ls
  | cons {lineNumber taken : ℕ} {line : Text} {rest left : List Text} {hunk : Hunk}
      {hunks : List (Hunk × List Text)}
      (hone : parseOneHunk line rest lineNumber allowIncomplete = .ok (hunk, taken))
      (hrest : HunksRead allowIncomplete (lineNumber + taken) ((line :: rest).drop taken) hunks left) :
      HunksRead allowIncomplete lineNumber (line :: rest)
        ((hunk, (line :: rest).take taken) :: hunks) left

lemma HunksRead.lines_eq {ls left : List Text}
    {hunks : List (Hunk × List Text)} (h : HunksRead allowIncomplete lineNumber ls hunks left) :
    ls = (hunks.map Prod.snd).flatten ++ left ∧ ∀ hunk ∈ hunks, hunk.2 ≠ [] := by
  induction h with
  | nil => exact ⟨rfl, List.forall_mem_nil _⟩
  | cons hone _ ih =>
    obtain ⟨hlines, hfilled⟩ := ih
    have hpos := taken_of_parseOneHunk hone
    refine ⟨?_, List.forall_mem_cons.mpr ⟨?_, hfilled⟩⟩
    · rw [List.map_cons, List.flatten_cons, List.append_assoc, ← hlines, List.take_append_drop]
    · intro hnil
      have hlength := congrArg List.length hnil
      rw [List.length_take, List.length_cons, List.length_nil] at hlength
      omega

/-- The loop over the hunks reads the whole body, or up to a hunk that fails. -/
lemma hunksRead_of_parseHunks (allowIncomplete : Bool) {fuel : ℕ} (lineNumber : ℕ)
    (hunks : List Hunk) (hfuel : ls.length ≤ fuel) :
    ∃ read left, HunksRead allowIncomplete lineNumber ls read left ∧
      (left = [] ∧ parseHunks allowIncomplete fuel ls lineNumber hunks = .ok (hunks ++ read.map Prod.fst) ∨
        ∃ message number, HunkFailure (lineNumber + (read.map Prod.snd).flatten.length) left message number ∧
          parseHunks allowIncomplete fuel ls lineNumber hunks = .error (.invalidHunkError message number)) := by
  induction fuel generalizing ls lineNumber hunks with
  | zero =>
    rw [List.eq_nil_of_length_eq_zero (Nat.le_zero.mp hfuel)]
    refine ⟨[], [], .nil _ _, .inl ⟨rfl, ?_⟩⟩
    rw [parseHunks_nil, List.map_nil, List.append_nil]
  | succ fuel ih =>
    cases ls with
    | nil =>
      refine ⟨[], [], .nil _ _, .inl ⟨rfl, ?_⟩⟩
      rw [parseHunks_nil, List.map_nil, List.append_nil]
    | cons line rest =>
      cases hone : parseOneHunk line rest lineNumber allowIncomplete with
      | error e =>
        obtain ⟨message, number, rfl, hfailure⟩ := failure_of_parseOneHunk hone
        refine ⟨[], line :: rest, .nil _ _, .inr ⟨message, number, hfailure, ?_⟩⟩
        rw [parseHunks, hone]
        rfl
      | ok result =>
        obtain ⟨hunk, taken⟩ := result
        have htaken := taken_of_parseOneHunk hone
        have hround : parseHunks allowIncomplete (fuel + 1) (line :: rest) lineNumber hunks =
            parseHunks allowIncomplete fuel ((line :: rest).drop taken) (lineNumber + taken)
              (hunks ++ [hunk]) := by
          rw [parseHunks, hone]
          rfl
        have hlength : ((line :: rest).drop taken).length ≤ fuel := by
          rw [List.length_drop, List.length_cons]
          rw [List.length_cons] at hfuel
          omega
        obtain ⟨read, left, hread, hend⟩ := ih (lineNumber + taken) (hunks ++ [hunk]) hlength
        refine ⟨(hunk, (line :: rest).take taken) :: read, left, .cons hone hread, ?_⟩
        rw [hround, List.map_cons, List.map_cons, List.flatten_cons, List.length_append,
          List.length_take_of_le htaken.2, ← Nat.add_assoc]
        rwa [List.append_assoc, List.singleton_append] at hend

/-- A hunk that is read, or a chunk of it, takes at least one line and no more than there are. So the loops
end: more rounds than lines change nothing. What the hunks take is the body, in order, and an error
has the number of a line as `HunkFailure` says, where the lines count from the begin marker. -/
theorem hunk_loop_consumes (allowIncomplete : Bool) (body : List Text) :
    (∀ ls lineNumber allowMissing chunk taken,
      parseUpdateFileChunk ls lineNumber allowMissing = .ok (chunk, taken) → 1 ≤ taken ∧ taken ≤ ls.length) ∧
    (∀ line rest lineNumber hunk taken, parseOneHunk line rest lineNumber allowIncomplete = .ok (hunk, taken) →
      1 ≤ taken ∧ taken ≤ (line :: rest).length) ∧
    (∀ fuel ls lineNumber chunks parsedLines, ls.length ≤ fuel →
      parseChunks lineNumber allowIncomplete fuel ls chunks parsedLines =
        parseChunks lineNumber allowIncomplete ls.length ls chunks parsedLines) ∧
    (∀ fuel, body.length ≤ fuel →
      parseHunks allowIncomplete fuel body 2 [] = parseHunks allowIncomplete body.length body 2 []) ∧
    ∃ read left, HunksRead allowIncomplete 2 body read left ∧
      body = (read.map Prod.snd).flatten ++ left ∧ (∀ hunk ∈ read, hunk.2 ≠ []) ∧
      (left = [] ∧ parseHunks allowIncomplete body.length body 2 [] = .ok (read.map Prod.fst) ∨
        ∃ message number, HunkFailure (2 + (read.map Prod.snd).flatten.length) left message number ∧
          parseHunks allowIncomplete body.length body 2 [] = .error (.invalidHunkError message number)) := by
  refine ⟨?_, ?_, ?_, ?_, ?_⟩
  · intro ls lineNumber allowMissing chunk taken h
    exact taken_of_parseUpdateFileChunk h
  · intro line rest lineNumber hunk taken h
    exact taken_of_parseOneHunk h
  · intro fuel ls lineNumber chunks parsedLines hfuel
    exact parseChunks_fuel hfuel (Nat.le_refl _)
  · intro fuel hfuel
    exact parseHunks_fuel hfuel (Nat.le_refl _)
  · obtain ⟨read, left, hread, hend⟩ := hunksRead_of_parseHunks allowIncomplete 2 [] (Nat.le_refl body.length)
    exact ⟨read, left, hread, hread.lines_eq.1, hread.lines_eq.2, hend⟩

/-- An update ends with a context marker: the number is that of the line after the body. -/
theorem number_after_body :
    ¬ ∀ (body : List Text) (message : Text) (number : ℕ),
      parseHunks false body.length body 2 [] = .error (.invalidHunkError message number) →
        2 ≤ number ∧ number < 2 + body.length := by
  intro h
  have hbody := h ["*** Update File: f".toList, "@@".toList] noLinesMessage 4 (by decide +kernel)
  exact absurd hbody.2 (by decide)

end Supercodex.ApplyPatch
