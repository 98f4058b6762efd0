import Supercodex.ApplyPatch.RoundTripTheorems

/-!
# Parsing a patch while it arrives

While a patch is streamed, `parsePatchStreaming` is called on longer and longer texts of it. A cut
may fall anywhere: the last line that is seen can be the start of a longer line. What a hunk holds
is decided before the header of the next hunk, and a header stays a header when its line grows, so
only the last hunk of a text can still change.
-/

namespace Supercodex.ApplyPatch

open Text

/-! ## Headers -/

/-- A line that `parseOneHunk` takes for the header of a hunk. -/
def IsHeader (line : Text) : Prop :=
  ∃ marker ∈ [addFileMarker, deleteFileMarker, updateFileMarker], marker <+: trim line

variable {line : Text} {allowIncomplete : Bool} {lineNumber : ℕ} {rest : List Text}

lemma isHeader_of_parseOneHunk {hunk : Hunk × ℕ}
    (h : parseOneHunk line rest lineNumber allowIncomplete = .ok hunk) : IsHeader line := by
  unfold parseOneHunk at h
  dsimp only at h
  split at h
  · exact ⟨addFileMarker, by simp, isInitial_of_stripPrefix ‹_›⟩
  split at h
  · exact ⟨deleteFileMarker, by simp, isInitial_of_stripPrefix ‹_›⟩
  · split at h
    · exact ⟨updateFileMarker, by simp, isInitial_of_stripPrefix ‹_›⟩
    · cases h

lemma IsHeader.head?_trim (h : IsHeader line) : (trim line).head? = some '*' := by
  obtain ⟨marker, hmem, hmarker⟩ := h
  have hall : ∀ m ∈ [addFileMarker, deleteFileMarker, updateFileMarker], m ≠ [] ∧
      m.head? = some '*' := by decide
  rw [head?_of_isInitial hmarker (hall marker hmem).1, (hall marker hmem).2]

lemma IsHeader.nonBlank (h : IsHeader line) : NonBlank line := by
  apply nonBlank_of_trim_ne_nil
  intro hnil
  have hhead := h.head?_trim
  rw [hnil] at hhead
  cases hhead

lemma IsHeader.trim_ne_nil (h : IsHeader line) : trim line ≠ [] := by
  intro hnil
  have hhead := h.head?_trim
  rw [hnil] at hhead
  cases hhead

lemma IsHeader.exists_cons (h : IsHeader line) :
    ∃ c rest, line = c :: rest ∧ (c = '*' ∨ isWhitespace c = true) := by
  cases line with
  | nil => exact absurd rfl h.trim_ne_nil
  | cons c rest =>
    refine ⟨c, rest, rfl, ?_⟩
    by_cases hc : isWhitespace c = true
    · exact .inr hc
    have hstart : trimStart (c :: rest) = c :: rest := by simp [trimStart, hc]
    have hinit : trim (c :: rest) <+: c :: rest := by
      rw [trim, hstart]
      exact trimEnd_isInitial _
    have hhead := head?_of_isInitial hinit h.trim_ne_nil
    rw [h.head?_trim, List.head?_cons] at hhead
    exact .inl (Option.some.inj hhead)

lemma IsHeader.of_isInitial {line line' : Text} (h : IsHeader line) (hinit : line <+: line') :
    IsHeader line' := by
  have htrim := trim_isInitial h.nonBlank hinit
  obtain ⟨marker, hmem, hmarker⟩ := h
  exact ⟨marker, hmem, hmarker.trans htrim⟩

lemma IsHeader.trim_ne {line t : Text} (h : IsHeader line)
    (ht : ∀ marker ∈ [addFileMarker, deleteFileMarker, updateFileMarker], ¬ marker <+: t) :
    trim line ≠ t := by
  intro heq
  obtain ⟨marker, hmem, hmarker⟩ := h
  exact ht marker hmem (heq ▸ hmarker)

lemma IsHeader.ne_eofMarker (h : IsHeader line) : line ≠ eofMarker := by
  intro heq
  apply h.trim_ne (t := trim eofMarker) (by decide)
  rw [heq]

/-! ## One line of a chunk -/

lemma parseChunkLines_other {c : Char} {t : Text} (hne : c :: t ≠ eofMarker)
    (hsign : c ∉ [' ', '+', '-']) (lineNumber : ℕ) (rest : List Text) (chunk : UpdateFileChunk)
    (parsedLines : ℕ) :
    parseChunkLines lineNumber ((c :: t) :: rest) chunk parsedLines =
      if parsedLines = 0 then
        .error (.invalidHunkError (unexpectedLineMessage (c :: t)) (lineNumber + 1))
      else .ok (chunk, parsedLines) := by
  unfold parseChunkLines
  rw [if_neg hne]
  split
  · rename_i heq
    cases heq
  iterate 3
    · rename_i heq
      injection heq with heq
      exact absurd heq (by rintro rfl; simp at hsign)
  · rfl

/-- A line changes the chunk whatever follows it, or ends it. -/
lemma parseChunkLines_cons (line : Text) (hne : line ≠ eofMarker) :
    (∃ f : UpdateFileChunk → UpdateFileChunk, ∀ lineNumber rest chunk parsedLines,
      parseChunkLines lineNumber (line :: rest) chunk parsedLines =
        parseChunkLines lineNumber rest (f chunk) (parsedLines + 1)) ∨
    ∃ message : Text, ∀ lineNumber rest chunk parsedLines,
      parseChunkLines lineNumber (line :: rest) chunk parsedLines =
        if parsedLines = 0 then .error (.invalidHunkError message (lineNumber + 1))
        else .ok (chunk, parsedLines) := by
  cases line with
  | nil =>
    refine .inl ⟨fun chunk => { chunk with
      oldLines := chunk.oldLines ++ [[]], newLines := chunk.newLines ++ [[]] },
      fun lineNumber rest chunk parsedLines => ?_⟩
    conv_lhs => unfold parseChunkLines
    rw [if_neg hne]
  | cons c t =>
    by_cases hsign : c ∈ [' ', '+', '-']
    · left
      simp only [List.mem_cons, List.not_mem_nil, or_false] at hsign
      rcases hsign with rfl | rfl | rfl
      · refine ⟨fun chunk => { chunk with
          oldLines := chunk.oldLines ++ [t], newLines := chunk.newLines ++ [t] },
          fun lineNumber rest chunk parsedLines => ?_⟩
        conv_lhs => unfold parseChunkLines
        rw [if_neg hne]
        rfl
      · exact ⟨_, fun lineNumber rest => parseChunkLines_new_cons lineNumber t rest⟩
      · exact ⟨_, fun lineNumber rest => parseChunkLines_old_cons lineNumber t rest⟩
    · exact .inr ⟨_, parseChunkLines_other hne hsign⟩

variable {ls : List Text}

lemma le_of_parseChunkLines {chunk chunk' : UpdateFileChunk} {parsedLines parsedLines' : ℕ}
    (h : parseChunkLines lineNumber ls chunk parsedLines = .ok (chunk', parsedLines')) :
    parsedLines ≤ parsedLines' ∧ parsedLines' ≤ parsedLines + ls.length ∧ (ls ≠ [] → 0 < parsedLines') := by
  induction ls generalizing chunk parsedLines with
  | nil =>
    cases h
    exact ⟨Nat.le_refl _, Nat.le_refl _, fun hne => absurd rfl hne⟩
  | cons line ls ih =>
    rw [List.length_cons]
    by_cases heof : line = eofMarker
    · unfold parseChunkLines at h
      rw [if_pos heof] at h
      split at h
      · cases h
      · cases h
        omega
    · obtain ⟨f, hf⟩ | ⟨message, hmessage⟩ := parseChunkLines_cons line heof
      · rw [hf] at h
        have := ih h
        omega
      · rw [hmessage] at h
        split at h
        · cases h
        · cases h
          omega

/-! ## Chunks -/

variable {allowMissing : Bool}

lemma le_one_of_chunkContext {lineNumber start : ℕ} {context : Option Text}
    (h : chunkContext line lineNumber allowMissing = .ok (context, start)) : start ≤ 1 := by
  unfold chunkContext at h
  split at h
  · cases h
    exact Nat.le_refl 1
  split at h
  · cases h
    exact Nat.le_refl 1
  split at h
  · cases h
    exact Nat.zero_le 1
  · cases h

variable {lineNumber taken : ℕ} {chunk : UpdateFileChunk}

/-- A chunk is its context and the lines after it. -/
lemma parseUpdateFileChunk_eq_ok_iff :
    parseUpdateFileChunk (line :: rest) lineNumber allowMissing = .ok (chunk, taken) ↔
      ∃ context start parsedLines,
        chunkContext line lineNumber allowMissing = .ok (context, start) ∧
        start < (line :: rest).length ∧
        parseChunkLines lineNumber ((line :: rest).drop start) ⟨context, [], [], false⟩ 0 =
          .ok (chunk, parsedLines) ∧
        taken = parsedLines + start := by
  unfold parseUpdateFileChunk
  dsimp only
  cases hcontext : chunkContext line lineNumber allowMissing with
  | error e =>
    constructor
    · intro h
      cases h
    · rintro ⟨context, start, parsedLines, h, -⟩
      cases h
  | ok result =>
    obtain ⟨context, start⟩ := result
    show (if _ then _ else _) = _ ↔ _
    split
    · rename_i hle
      constructor
      · intro h
        cases h
      · rintro ⟨context, start, parsedLines, h, hlt, -⟩
        cases h
        omega
    · rename_i hlt
      cases hlines : parseChunkLines lineNumber ((line :: rest).drop start)
          ⟨context, [], [], false⟩ 0 with
      | error e =>
        constructor
        · intro h
          cases h
        · rintro ⟨context, start, parsedLines, h, -, h', -⟩
          cases h
          rw [hlines] at h'
          cases h'
      | ok result =>
        obtain ⟨chunk', parsedLines⟩ := result
        constructor
        · intro h
          cases h
          exact ⟨context, start, parsedLines, rfl, by omega, hlines, rfl⟩
        · rintro ⟨context, start, parsedLines, h, -, h', rfl⟩
          cases h
          rw [hlines] at h'
          cases h'
          rfl

lemma parseUpdateFileChunk_of_ne_at {c : Char} {line t : Text} (heq : line = c :: t)
    (hc : c ≠ '@') (rest : List Text) (lineNumber : ℕ) :
    parseUpdateFileChunk (line :: rest) lineNumber false =
      .error (.invalidHunkError (missingContextMessage line) lineNumber) := by
  have hempty : line ≠ emptyChangeContextMarker := by
    intro h
    rw [heq] at h
    exact hc (List.cons.inj h).1
  have hstrip : stripPrefix changeContextMarker line = none := by
    cases h : stripPrefix changeContextMarker line with
    | none => rfl
    | some context =>
      have hhead := head?_of_isInitial (isInitial_of_stripPrefix h) (by decide)
      rw [heq] at hhead
      exact absurd (Option.some.inj hhead) hc
  unfold parseUpdateFileChunk chunkContext
  dsimp only
  rw [if_neg hempty, hstrip]
  rfl

lemma taken_of_parseUpdateFileChunk
    (h : parseUpdateFileChunk ls lineNumber allowMissing = .ok (chunk, taken)) :
    1 ≤ taken ∧ taken ≤ ls.length := by
  cases ls with
  | nil => cases h
  | cons line rest =>
    obtain ⟨context, start, parsedLines, -, hlt, hlines, rfl⟩ := parseUpdateFileChunk_eq_ok_iff.mp h
    obtain ⟨-, hle, hpos⟩ := le_of_parseChunkLines hlines
    have := hpos (by rw [ne_eq, List.drop_eq_nil_iff]; omega)
    rw [List.length_drop] at hle
    omega

section

variable {lineNumber fuel parsedLines : ℕ} {line : Text} {ls : List Text}
  {chunks : List UpdateFileChunk} {allowIncomplete : Bool}

/-- What one round of the loop over the chunks does before it succeeds. -/
inductive ChunkRound (lineNumber : ℕ) (allowIncomplete : Bool) (fuel : ℕ) (line : Text)
    (ls : List Text) (chunks : List UpdateFileChunk) (parsedLines : ℕ)
    (result : List UpdateFileChunk × ℕ) : Prop
  /-- A blank line is passed over. -/
  | blank (hblank : trim line = [])
      (hrest : parseChunks lineNumber allowIncomplete fuel ls chunks (parsedLines + 1) =
        .ok result)
  /-- The loop ends before a star, a lone `@` or an incomplete chunk. -/
  | stop (hline : line.head? = some '*' ∨ allowIncomplete = true ∧ (line = ['@'] ∨
        chunks ≠ [] ∧ ∃ message number, parseUpdateFileChunk (line :: ls)
          (lineNumber + parsedLines) false = .error (.invalidHunkError message number)))
      (hresult : result = (chunks, parsedLines))
  /-- A chunk is read. -/
  | chunk (hblank : trim line ≠ []) (hstar : line.head? ≠ some '*')
      (hat : ¬ (allowIncomplete = true ∧ line = ['@'])) (chunk : UpdateFileChunk) (taken : ℕ)
      (hchunk : parseUpdateFileChunk (line :: ls) (lineNumber + parsedLines) chunks.isEmpty =
        .ok (chunk, taken))
      (hrest : parseChunks lineNumber allowIncomplete fuel ((line :: ls).drop taken)
        (chunks ++ [chunk]) (parsedLines + taken) = .ok result)

lemma round_of_parseChunks {result : List UpdateFileChunk × ℕ}
    (h : parseChunks lineNumber allowIncomplete (fuel + 1) (line :: ls) chunks parsedLines =
      .ok result) :
    ChunkRound lineNumber allowIncomplete fuel line ls chunks parsedLines result := by
  rw [parseChunks] at h
  by_cases hblank : trim line = []
  · rw [if_pos hblank] at h
    exact .blank hblank h
  rw [if_neg hblank] at h
  by_cases hstar : line.head? = some '*'
  · rw [if_pos hstar] at h
    exact .stop (.inl hstar) (Except.ok.inj h).symm
  rw [if_neg hstar] at h
  by_cases hat : allowIncomplete = true ∧ line = ['@']
  · rw [if_pos (by simpa using hat)] at h
    exact .stop (.inr ⟨hat.1, .inl hat.2⟩) (Except.ok.inj h).symm
  rw [if_neg (by simpa using hat)] at h
  cases hchunk : parseUpdateFileChunk (line :: ls) (lineNumber + parsedLines) chunks.isEmpty with
  | ok result =>
    rw [hchunk] at h
    exact .chunk hblank hstar hat result.1 result.2 hchunk h
  | error e =>
    rw [hchunk] at h
    cases e with
    | invalidPatchError message => cases h
    | invalidHunkError message number =>
      dsimp only at h
      split at h
      · rename_i hcond
        rw [Bool.and_eq_true, Bool.not_eq_true'] at hcond
        rw [hcond.2] at hchunk
        exact .stop (.inr ⟨hcond.1, .inr ⟨by simpa using hcond.2, message, number, hchunk⟩⟩)
          (Except.ok.inj h).symm
      · cases h

lemma parseChunks_blank (hblank : trim line = []) :
    parseChunks lineNumber allowIncomplete (fuel + 1) (line :: ls) chunks parsedLines =
      parseChunks lineNumber allowIncomplete fuel ls chunks (parsedLines + 1) := by
  rw [parseChunks, if_pos hblank]

lemma parseChunks_star (hblank : trim line ≠ []) (hstar : line.head? = some '*') :
    parseChunks lineNumber allowIncomplete (fuel + 1) (line :: ls) chunks parsedLines =
      .ok (chunks, parsedLines) := by
  rw [parseChunks, if_neg hblank, if_pos hstar]

/-- One round of the loop over the chunks. -/
lemma parseChunks_chunk (hblank : trim line ≠ []) (hstar : line.head? ≠ some '*')
    (hat : ¬ (allowIncomplete = true ∧ line = ['@']))
    (hchunk : parseUpdateFileChunk (line :: ls) (lineNumber + parsedLines) chunks.isEmpty =
      .ok (chunk, taken)) :
    parseChunks lineNumber allowIncomplete (fuel + 1) (line :: ls) chunks parsedLines =
      parseChunks lineNumber allowIncomplete fuel ((line :: ls).drop taken)
        (chunks ++ [chunk]) (parsedLines + taken) := by
  rw [parseChunks, if_neg hblank, if_neg hstar, if_neg (by simpa using hat), hchunk]

lemma parseChunks_incomplete (hblank : trim line ≠ []) (hstar : line.head? ≠ some '*')
    (hne : chunks ≠ []) {message : Text} {number : ℕ}
    (herror : parseUpdateFileChunk (line :: ls) (lineNumber + parsedLines) false =
      .error (.invalidHunkError message number)) :
    parseChunks lineNumber true (fuel + 1) (line :: ls) chunks parsedLines =
      .ok (chunks, parsedLines) := by
  have hempty : chunks.isEmpty = false := by simpa using hne
  rw [parseChunks, if_neg hblank, if_neg hstar, hempty, herror]
  simp

lemma le_of_parseChunks {chunks' : List UpdateFileChunk} {parsedLines' : ℕ}
    (h : parseChunks lineNumber allowIncomplete fuel ls chunks parsedLines =
      .ok (chunks', parsedLines')) :
    parsedLines ≤ parsedLines' ∧ parsedLines' ≤ parsedLines + ls.length ∧
      (parsedLines' = parsedLines → chunks' = chunks) := by
  induction fuel generalizing ls chunks parsedLines with
  | zero =>
    cases h
    exact ⟨Nat.le_refl _, Nat.le_add_right _ _, fun _ => rfl⟩
  | succ fuel ih =>
    cases ls with
    | nil =>
      cases h
      exact ⟨Nat.le_refl _, Nat.le_refl _, fun _ => rfl⟩
    | cons line ls =>
      cases round_of_parseChunks h with
      | blank _ hrest =>
        have := ih hrest
        rw [List.length_cons]
        omega
      | stop _ hresult =>
        cases hresult
        exact ⟨Nat.le_refl _, Nat.le_add_right _ _, fun _ => rfl⟩
      | chunk _ _ _ chunk taken hchunk hrest =>
        have htaken := taken_of_parseUpdateFileChunk hchunk
        have := ih hrest
        rw [List.length_drop] at this
        omega

end

/-! ## Added lines and updates -/

lemma parseAddLines_of_ne_plus {c : Char} (hc : c ≠ '+') {t : Text}
    {contents : Text} {parsedLines : ℕ} :
    parseAddLines ((c :: t) :: ls) contents parsedLines = (contents, parsedLines) := by
  unfold parseAddLines
  split
  · rename_i heq
    injection heq with heq
    exact absurd (List.cons.inj heq).1 hc
  · rfl

lemma le_of_parseAddLines (ls : List Text) (contents : Text) (parsedLines : ℕ) :
    parsedLines ≤ (parseAddLines ls contents parsedLines).2 ∧
      (parseAddLines ls contents parsedLines).2 ≤ parsedLines + ls.length := by
  fun_induction parseAddLines ls contents parsedLines with
  | case1 line ls contents parsedLines ih =>
    rw [List.length_cons]
    omega
  | case2 => exact ⟨Nat.le_refl _, Nat.le_add_right _ _⟩

lemma parseAddLines_cons (line : Text) :
    (∃ t, line = '+' :: t) ∨ ∀ ls contents parsedLines,
      parseAddLines (line :: ls) contents parsedLines = (contents, parsedLines) := by
  cases line with
  | nil => exact .inr fun _ _ _ => rfl
  | cons c t =>
    by_cases hc : c = '+'
    · exact .inl ⟨t, by rw [hc]⟩
    · exact .inr fun _ _ _ => parseAddLines_of_ne_plus hc

/-- How many lines the destination of an update takes. -/
def moveLines (ls : List Text) : ℕ :=
  if (ls.head?.bind (stripPrefix moveToMarker)).isSome then 1 else 0

lemma moveLines_le_one (ls : List Text) : moveLines ls ≤ 1 := by
  unfold moveLines
  split <;> omega

lemma moveLines_le_length (ls : List Text) : moveLines ls ≤ ls.length := by
  cases ls with
  | nil => exact Nat.le_refl 0
  | cons line ls => exact (moveLines_le_one _).trans (Nat.le_add_left 1 _)

variable {hunk : Hunk}

/-- An update is an optional move and at least one chunk. -/
lemma parseUpdate_eq_ok_iff {path : Text} {lineNumber parsedLines : ℕ} :
    parseUpdate path ls lineNumber allowIncomplete = .ok (hunk, parsedLines) ↔
      ∃ chunks, parseChunks lineNumber allowIncomplete ls.length (ls.drop (moveLines ls)) []
          (1 + moveLines ls) = .ok (chunks, parsedLines) ∧ chunks ≠ [] ∧
        hunk = .updateFile path (ls.head?.bind (stripPrefix moveToMarker)) chunks := by
  unfold parseUpdate
  show parseChunks _ _ _ (ls.drop (moveLines ls)) _ (1 + moveLines ls) >>= _ = _ ↔ _
  cases hchunks : parseChunks lineNumber allowIncomplete ls.length (ls.drop (moveLines ls)) []
      (1 + moveLines ls) with
  | error e =>
    constructor
    · intro h
      cases h
    · rintro ⟨chunks, h, -⟩
      cases h
  | ok result =>
    obtain ⟨chunks, parsedLines'⟩ := result
    show (if _ then _ else _) = _ ↔ _
    split
    · rename_i hempty
      constructor
      · intro h
        cases h
      · rintro ⟨chunks', h, hne, -⟩
        cases h
        exact absurd hempty hne
    · rename_i hne
      constructor
      · intro h
        cases h
        exact ⟨chunks, rfl, hne, rfl⟩
      · rintro ⟨chunks', h, -, rfl⟩
        cases h
        rfl

/-! ## What is read before a header -/

section

variable {header header' : Text} (hheader : IsHeader header) (hinit : header <+: header')

include hheader hinit

lemma exists_cons_of_grown : ∃ c rest rest', header = c :: rest ∧ header' = c :: rest' ∧
    (c = '*' ∨ isWhitespace c = true) := by
  obtain ⟨c, rest, rfl, hc⟩ := hheader.exists_cons
  obtain ⟨s, rfl⟩ := hinit
  exact ⟨c, rest, rest ++ s, rfl, rfl, hc⟩

variable {ls tail : List Text} {lineNumber : ℕ}

/-- Lines of a chunk that ends before a header do not depend on what follows. -/
lemma parseChunkLines_grown {chunk chunk' : UpdateFileChunk} {parsedLines parsedLines' : ℕ}
    (h : parseChunkLines lineNumber (ls ++ header :: tail) chunk parsedLines =
      .ok (chunk', parsedLines'))
    (hle : parsedLines' ≤ parsedLines + ls.length) (tail' : List Text) :
    parseChunkLines lineNumber (ls ++ header' :: tail') chunk parsedLines =
      .ok (chunk', parsedLines') := by
  induction ls generalizing chunk parsedLines with
  | nil =>
    obtain ⟨c, rest, rest', heq, heq', hc⟩ := exists_cons_of_grown hheader hinit
    have hne := hheader.ne_eofMarker
    have hne' := (hheader.of_isInitial hinit).ne_eofMarker
    rw [List.nil_append] at h ⊢
    rw [heq] at h hne
    rw [heq'] at hne' ⊢
    have hsign : c ∉ [' ', '+', '-'] := by
      intro hmem
      simp only [List.mem_cons, List.not_mem_nil, or_false] at hmem
      rcases hmem with rfl | rfl | rfl
      · -- a header behind a blank would have been read as a line of the chunk
        unfold parseChunkLines at h
        rw [if_neg hne] at h
        have := (le_of_parseChunkLines h).1
        rw [List.length_nil] at hle
        omega
      · rcases hc with hc | hc <;> cases hc
      · rcases hc with hc | hc <;> cases hc
    rw [parseChunkLines_other hne hsign] at h
    rw [parseChunkLines_other hne' hsign]
    split at h
    · cases h
    · rename_i hpos
      rw [if_neg hpos]
      exact h
  | cons line ls ih =>
    rw [List.cons_append] at h ⊢
    by_cases heof : line = eofMarker
    · unfold parseChunkLines at h ⊢
      rw [if_pos heof] at h ⊢
      exact h
    · obtain ⟨f, hf⟩ | ⟨message, hmessage⟩ := parseChunkLines_cons line heof
      · rw [hf] at h ⊢
        apply ih h
        rw [List.length_cons] at hle
        omega
      · rw [hmessage] at h ⊢
        exact h

lemma parseUpdateFileChunk_grown
    (h : parseUpdateFileChunk (ls ++ header :: tail) lineNumber allowMissing =
      .ok (chunk, taken)) (hle : taken ≤ ls.length) (tail' : List Text) :
    parseUpdateFileChunk (ls ++ header' :: tail') lineNumber allowMissing =
      .ok (chunk, taken) := by
  cases ls with
  | nil =>
    have hpos := taken_of_parseUpdateFileChunk h
    rw [List.length_nil] at hle
    omega
  | cons line ls =>
    rw [List.cons_append] at h ⊢
    obtain ⟨context, start, parsedLines, hcontext, -, hlines, rfl⟩ :=
      parseUpdateFileChunk_eq_ok_iff.mp h
    have hstart := le_one_of_chunkContext hcontext
    have hdrop : ∀ rest : List Text, (line :: ls ++ rest).drop start =
        (line :: ls).drop start ++ rest := by
      intro rest
      apply List.drop_append_of_le_length
      rw [List.length_cons]
      omega
    refine parseUpdateFileChunk_eq_ok_iff.mpr
      ⟨context, start, parsedLines, hcontext, ?_, ?_, rfl⟩
    · rw [List.length_cons, List.length_append, List.length_cons]
      omega
    · rw [← List.cons_append, hdrop] at hlines ⊢
      apply parseChunkLines_grown hheader hinit hlines
      rw [List.length_drop]
      omega

variable {parsedLines : ℕ}

/-- A header ends the chunks of an update, with or without white space before its star. -/
lemma parseChunks_grown_stop {lineNumber fuel fuel' : ℕ}
    {chunks : List UpdateFileChunk} {chunks' : List UpdateFileChunk}
    (h : parseChunks lineNumber true (fuel + 1) (header :: tail) chunks parsedLines =
      .ok (chunks', parsedLines)) (tail' : List Text) :
    parseChunks lineNumber true (fuel' + 1) (header' :: tail') chunks parsedLines =
      .ok (chunks', parsedLines) := by
  obtain ⟨c, rest, rest', heq, heq', hc⟩ := exists_cons_of_grown hheader hinit
  have hblank' := (hheader.of_isInitial hinit).trim_ne_nil
  have hat : c ≠ '@' := by
    rintro rfl
    rcases hc with hc | hc <;> cases hc
  cases round_of_parseChunks h with
  | blank hblank => exact absurd hblank hheader.trim_ne_nil
  | chunk _ _ _ chunk taken hchunk hrest =>
    have hpos := taken_of_parseUpdateFileChunk hchunk
    have := (le_of_parseChunks hrest).1
    omega
  | stop hline hresult =>
    cases hresult
    by_cases hstar : c = '*'
    · apply parseChunks_star hblank'
      rw [heq', hstar]
      rfl
    · -- behind white space the header is taken for a chunk that has no context yet
      rcases hline with hline | ⟨-, hline | ⟨hne, -⟩⟩
      · rw [heq] at hline
        exact absurd (Option.some.inj hline) hstar
      · rw [heq] at hline
        exact absurd (List.cons.inj hline).1 hat
      · apply parseChunks_incomplete hblank' _ hne
          (parseUpdateFileChunk_of_ne_at heq' hat tail' (lineNumber + parsedLines))
        rw [heq']
        exact fun hhead => hstar (Option.some.inj hhead)

/-- The chunks that end before a header do not depend on what follows. -/
lemma parseChunks_grown {lineNumber fuel fuel' : ℕ}
    {chunks chunks' : List UpdateFileChunk} (hfuel : ls.length < fuel)
    (hfuel' : ls.length < fuel')
    (h : parseChunks lineNumber true fuel (ls ++ header :: tail) chunks parsedLines =
      .ok (chunks', parsedLines + ls.length)) (tail' : List Text) :
    parseChunks lineNumber true fuel' (ls ++ header' :: tail') chunks parsedLines =
      .ok (chunks', parsedLines + ls.length) := by
  induction fuel generalizing fuel' ls chunks parsedLines with
  | zero => omega
  | succ fuel ih =>
    obtain ⟨fuel', rfl⟩ : ∃ f, fuel' = f + 1 := Nat.exists_eq_succ_of_ne_zero (by omega)
    cases ls with
    | nil => exact parseChunks_grown_stop hheader hinit h tail'
    | cons line ls =>
      rw [List.length_cons] at hfuel hfuel'
      rw [List.cons_append] at h ⊢
      cases round_of_parseChunks h with
      | blank hblank hrest =>
        have hcount : parsedLines + (line :: ls).length = parsedLines + 1 + ls.length := by
          rw [List.length_cons]
          omega
        rw [parseChunks_blank hblank]
        rw [hcount] at hrest ⊢
        exact ih (by omega) (by omega) hrest
      | stop _ hresult =>
        have := congrArg Prod.snd hresult
        simp only [List.length_cons] at this
        omega
      | chunk hblank hstar hat chunk taken hchunk hrest =>
        have hpos := taken_of_parseUpdateFileChunk hchunk
        have hle := (le_of_parseChunks hrest).1
        rw [List.length_cons] at hle
        rw [← List.cons_append] at hchunk hrest ⊢
        have hgrown := parseUpdateFileChunk_grown hheader hinit hchunk
          (by rw [List.length_cons]; omega) tail'
        have hdrop : ∀ rest : List Text, (line :: ls ++ rest).drop taken =
            (line :: ls).drop taken ++ rest := by
          intro rest
          apply List.drop_append_of_le_length
          rw [List.length_cons]
          omega
        have hcount : parsedLines + (line :: ls).length =
            parsedLines + taken + ((line :: ls).drop taken).length := by
          rw [List.length_drop, List.length_cons]
          omega
        rw [List.cons_append] at hgrown ⊢
        rw [parseChunks_chunk hblank hstar hat hgrown]
        rw [hdrop] at hrest
        rw [← List.cons_append, hdrop]
        rw [hcount] at hrest ⊢
        refine ih ?_ ?_ hrest
        · rw [List.length_drop, List.length_cons]
          omega
        · rw [List.length_drop, List.length_cons]
          omega

lemma parseAddLines_grown {contents contents' : Text}
    (h : parseAddLines (ls ++ header :: tail) contents parsedLines =
      (contents', parsedLines + ls.length)) (tail' : List Text) :
    parseAddLines (ls ++ header' :: tail') contents parsedLines =
      (contents', parsedLines + ls.length) := by
  induction ls generalizing contents parsedLines with
  | nil =>
    obtain ⟨c, rest, rest', heq, heq', hc⟩ := exists_cons_of_grown hheader hinit
    have hplus : c ≠ '+' := by
      rintro rfl
      rcases hc with hc | hc <;> cases hc
    rw [List.nil_append, heq, parseAddLines_of_ne_plus hplus] at h
    rw [List.nil_append, heq', parseAddLines_of_ne_plus hplus]
    exact h
  | cons line ls ih =>
    rw [List.cons_append] at h ⊢
    obtain ⟨t, rfl⟩ | hstop := parseAddLines_cons line
    · have hcount : parsedLines + (('+' :: t) :: ls).length = parsedLines + 1 + ls.length := by
        rw [List.length_cons]
        omega
      rw [parseAddLines, hcount] at h ⊢
      exact ih h
    · rw [hstop] at h
      have := congrArg Prod.snd h
      simp only [List.length_cons] at this
      omega

lemma parseUpdate_grown {path : Text}
    (h : parseUpdate path (ls ++ header :: tail) lineNumber true = .ok (hunk, 1 + ls.length))
    (tail' : List Text) :
    parseUpdate path (ls ++ header' :: tail') lineNumber true = .ok (hunk, 1 + ls.length) := by
  obtain ⟨chunks, hchunks, hne, rfl⟩ := parseUpdate_eq_ok_iff.mp h
  cases ls with
  | nil =>
    -- no chunk can have been read before the header
    have hcount := le_of_parseChunks hchunks
    rw [List.length_nil] at hcount
    have htaken : moveLines ([] ++ header :: tail) = 0 := by omega
    rw [htaken] at hcount
    exact absurd (hcount.2.2 rfl) hne
  | cons line ls =>
    have htaken : moveLines (line :: ls ++ header' :: tail') =
        moveLines (line :: ls ++ header :: tail) := rfl
    have hle : moveLines (line :: ls ++ header :: tail) ≤ (line :: ls).length := by
      have := moveLines_le_one (line :: ls ++ header :: tail)
      rw [List.length_cons]
      omega
    refine parseUpdate_eq_ok_iff.mpr ⟨chunks, ?_, hne, rfl⟩
    rw [htaken]
    have hcount : 1 + (line :: ls).length = 1 + moveLines (line :: ls ++ header :: tail) +
        ((line :: ls).drop (moveLines (line :: ls ++ header :: tail))).length := by
      rw [List.length_drop]
      omega
    rw [List.drop_append_of_le_length hle, hcount] at hchunks ⊢
    apply parseChunks_grown hheader hinit _ _ hchunks
    · rw [List.length_drop, List.length_append, List.length_cons, List.length_cons]
      omega
    · rw [List.length_drop, List.length_append, List.length_cons, List.length_cons]
      omega

/-- A hunk that ends before a header does not depend on what follows. -/
lemma parseOneHunk_grown
    (h : parseOneHunk line (ls ++ header :: tail) lineNumber true = .ok (hunk, 1 + ls.length))
    (tail' : List Text) :
    parseOneHunk line (ls ++ header' :: tail') lineNumber true = .ok (hunk, 1 + ls.length) := by
  unfold parseOneHunk at h ⊢
  dsimp only at h ⊢
  cases hadd : stripPrefix addFileMarker (trim line) with
  | some path =>
    rw [hadd] at h
    cases hlines : parseAddLines (ls ++ header :: tail) [] 1 with
    | mk contents parsedLines =>
      rw [hlines] at h
      cases h
      rw [parseAddLines_grown hheader hinit hlines]
  | none =>
    rw [hadd] at h
    cases hdelete : stripPrefix deleteFileMarker (trim line) with
    | some path =>
      rw [hdelete] at h
      exact h
    | none =>
      rw [hdelete] at h
      cases hupdate : stripPrefix updateFileMarker (trim line) with
      | some path =>
        rw [hupdate] at h
        exact parseUpdate_grown hheader hinit h tail'
      | none =>
        rw [hupdate] at h
        cases h

end

/-! ## Hunks -/

variable {hunks result : List Hunk} {fuel lineNumber : ℕ}

lemma parseHunks_eq_ok_iff :
    parseHunks allowIncomplete (fuel + 1) (line :: ls) lineNumber hunks = .ok result ↔
      ∃ hunk taken, parseOneHunk line ls lineNumber allowIncomplete = .ok (hunk, taken) ∧
        parseHunks allowIncomplete fuel ((line :: ls).drop taken) (lineNumber + taken)
          (hunks ++ [hunk]) = .ok result := by
  rw [parseHunks]
  cases hone : parseOneHunk line ls lineNumber allowIncomplete with
  | error e =>
    constructor
    · intro h
      cases h
    · rintro ⟨hunk, taken, h, -⟩
      cases h
  | ok first =>
    constructor
    · intro h
      exact ⟨first.1, first.2, rfl, h⟩
    · rintro ⟨hunk, taken, h, hrest⟩
      cases h
      exact hrest

lemma parseHunks_nil (allowIncomplete : Bool) (fuel lineNumber : ℕ) (hunks : List Hunk) :
    parseHunks allowIncomplete fuel [] lineNumber hunks = .ok hunks := by
  cases fuel <;> rfl

lemma isInitial_of_parseHunks (h : parseHunks allowIncomplete fuel ls lineNumber hunks = .ok result)
    : hunks <+: result := by
  induction fuel generalizing ls lineNumber hunks with
  | zero =>
    cases h
    exact List.prefix_refl _
  | succ fuel ih =>
    cases ls with
    | nil =>
      cases h
      exact List.prefix_refl _
    | cons line ls =>
      obtain ⟨hunk, taken, -, hrest⟩ := parseHunks_eq_ok_iff.mp h
      exact (List.prefix_append hunks [hunk]).trans (ih hrest)

lemma length_lt_of_parseHunks (hne : ls ≠ []) (hfuel : ls.length ≤ fuel)
    (h : parseHunks allowIncomplete fuel ls lineNumber hunks = .ok result) :
    hunks.length < result.length := by
  obtain ⟨line, ls, rfl⟩ := List.exists_cons_of_ne_nil hne
  rw [List.length_cons] at hfuel
  obtain ⟨fuel, rfl⟩ : ∃ f, fuel = f + 1 := Nat.exists_eq_succ_of_ne_zero (by omega)
  obtain ⟨hunk, taken, -, hrest⟩ := parseHunks_eq_ok_iff.mp h
  have hle := (isInitial_of_parseHunks hrest).length_le
  rw [List.length_append, List.length_singleton] at hle
  omega

lemma taken_of_parseOneHunk
    (h : parseOneHunk line ls lineNumber allowIncomplete = .ok (hunk, taken)) :
    1 ≤ taken ∧ taken ≤ (line :: ls).length := by
  rw [List.length_cons]
  unfold parseOneHunk at h
  dsimp only at h
  split at h
  · cases h
    have := le_of_parseAddLines ls [] 1
    omega
  · split at h
    · cases h
      omega
    split at h
    · obtain ⟨chunks, hchunks, -⟩ := parseUpdate_eq_ok_iff.mp h
      have hle := le_of_parseChunks hchunks
      have hmove := moveLines_le_length ls
      rw [List.length_drop] at hle
      omega
    · cases h

/-- The lines `last` end one text and `later` takes their place in a longer one: a header among
the last lines may have grown there. -/
structure Grown (last later : List Text) : Prop where
  length_le : last.length ≤ 1
  header : ∀ line ∈ last, IsHeader line → ∃ line' rest, later = line' :: rest ∧ line <+: line'

lemma Grown.exists_header {ls last later tail : List Text} {header : Text}
    (h : Grown last later) (heq : ls ++ last = header :: tail) (hheader : IsHeader header) :
    ∃ header' tail', ls ++ later = header' :: tail' ∧ header <+: header' := by
  cases ls with
  | nil =>
    rw [List.nil_append] at heq
    exact h.header header (heq ▸ List.mem_cons_self) hheader
  | cons line ls =>
    rw [List.cons_append, List.cons.injEq] at heq
    exact ⟨line, ls ++ later, rfl, heq.1 ▸ List.prefix_refl _⟩

lemma Grown.parseOneHunk_eq {ls last later tail : List Text} {header line : Text}
    (h : Grown last later) {k : ℕ} (hk : k ≤ ls.length)
    (heq : ls.drop k ++ last = header :: tail) (hheader : IsHeader header)
    (hone : parseOneHunk line (ls ++ last) lineNumber true = .ok (hunk, 1 + k)) :
    parseOneHunk line (ls ++ later) lineNumber true = .ok (hunk, 1 + k) := by
  obtain ⟨header', tail', heq', hinit⟩ := h.exists_header heq hheader
  have hsplit : ∀ l : List Text, ls ++ l = ls.take k ++ (ls.drop k ++ l) := by
    intro l
    rw [← List.append_assoc, List.take_append_drop]
  have hlength : (ls.take k).length = k := List.length_take_of_le hk
  rw [hsplit, heq] at hone
  rw [hsplit, heq']
  have hone' : parseOneHunk line (ls.take k ++ header :: tail) lineNumber true =
      .ok (hunk, 1 + (ls.take k).length) := by
    rw [hlength]
    exact hone
  have hgrown := parseOneHunk_grown hheader hinit hone' tail'
  rwa [hlength] at hgrown

/-- All hunks but the last are there again when the last line grows and more lines follow. -/
lemma parseHunks_grown {ls last later : List Text} (h : Grown last later)
    {fuel fuel' lineNumber : ℕ} (hfuel : (ls ++ last).length ≤ fuel)
    (hfuel' : (ls ++ later).length ≤ fuel') {hunks before after : List Hunk}
    (hbefore : parseHunks true fuel (ls ++ last) lineNumber hunks = .ok before)
    (hafter : parseHunks true fuel' (ls ++ later) lineNumber hunks = .ok after) :
    before.dropLast <+: after ∧ before.length ≤ after.length := by
  induction fuel generalizing ls fuel' lineNumber hunks with
  | zero =>
    cases hbefore
    have hinit := isInitial_of_parseHunks hafter
    exact ⟨(List.dropLast_prefix _).trans hinit, hinit.length_le⟩
  | succ fuel ih =>
    cases hlines : ls ++ last with
    | nil =>
      rw [hlines, parseHunks_nil] at hbefore
      cases hbefore
      have hinit := isInitial_of_parseHunks hafter
      exact ⟨(List.dropLast_prefix _).trans hinit, hinit.length_le⟩
    | cons line rest =>
      have hlen := congrArg List.length hlines
      rw [List.length_append] at hlen
      rw [hlines] at hbefore hfuel
      obtain ⟨hunk, taken, hone, hrest⟩ := parseHunks_eq_ok_iff.mp hbefore
      have hpos := taken_of_parseOneHunk hone
      cases hdrop : (line :: rest).drop taken with
      | nil =>
        -- the hunk is the last one, and the longer text has lines for another one as well
        rw [hdrop, parseHunks_nil] at hrest
        cases hrest
        obtain ⟨line', tail', hlater, -⟩ :=
          h.exists_header hlines (isHeader_of_parseOneHunk hone)
        have hlt := length_lt_of_parseHunks (by rw [hlater]; simp) hfuel' hafter
        rw [List.dropLast_concat, List.length_append, List.length_singleton]
        exact ⟨isInitial_of_parseHunks hafter, hlt⟩
      | cons header tail =>
        have htaken : taken < (line :: rest).length := by
          by_contra hle
          rw [List.drop_eq_nil_of_le (by omega)] at hdrop
          cases hdrop
        have hle := h.length_le
        obtain ⟨line₁, ls, rfl⟩ : ∃ l k, ls = l :: k := by
          apply List.exists_cons_of_ne_nil
          intro hnil
          rw [hnil, List.length_nil] at hlen
          omega
        rw [List.cons_append, List.cons.injEq] at hlines
        obtain ⟨rfl, rfl⟩ := hlines
        obtain ⟨k, rfl⟩ : ∃ k, taken = 1 + k := Nat.exists_eq_add_of_le hpos.1
        rw [List.length_cons, List.length_append] at htaken hfuel
        have hk : k ≤ ls.length := by omega
        have hdrop' : ∀ l : List Text, (line₁ :: (ls ++ l)).drop (1 + k) = ls.drop k ++ l := by
          intro l
          rw [Nat.add_comm, List.drop_succ_cons, List.drop_append_of_le_length hk]
        rw [hdrop'] at hdrop hrest
        have hheader : IsHeader header := by
          rw [hdrop] at hrest
          obtain ⟨fuel, rfl⟩ : ∃ f, fuel = f + 1 := Nat.exists_eq_succ_of_ne_zero (by omega)
          obtain ⟨_, _, hnext, -⟩ := parseHunks_eq_ok_iff.mp hrest
          exact isHeader_of_parseOneHunk hnext
        have hone' := h.parseOneHunk_eq hk hdrop hheader hone
        rw [List.cons_append] at hafter
        rw [List.cons_append, List.length_cons, List.length_append] at hfuel'
        obtain ⟨fuel', rfl⟩ : ∃ f, fuel' = f + 1 := Nat.exists_eq_succ_of_ne_zero (by omega)
        obtain ⟨hunk', taken', hone'', hrest'⟩ := parseHunks_eq_ok_iff.mp hafter
        rw [hone'] at hone''
        cases hone''
        rw [hdrop'] at hrest'
        refine ih ?_ ?_ hrest hrest'
        · rw [List.length_append, List.length_drop]
          omega
        · rw [List.length_append, List.length_drop]
          omega

/-! ## The streamed text -/

/-- The lines that are read for hunks while a patch is streamed: the last line is not one of them
once it is the end marker. -/
def streamedLines (ls : List Text) : List Text :=
  if ls.getLast?.map trim = some endPatchMarker then ls.tail.dropLast else ls.tail

/-- A streamed text is read if its first line is the begin marker and its lines are hunks. -/
lemma parsePatchStreaming_eq_ok {s : Text} {args : ApplyPatchArgs}
    (h : parsePatchStreaming s = .ok args) :
    (lines (trim s)).head?.map trim = some beginPatchMarker ∧
      parseHunks true (streamedLines (lines (trim s))).length (streamedLines (lines (trim s))) 2
        [] = .ok args.hunks := by
  unfold parsePatchStreaming parsePatchText checkPatchBoundaries checkPatchBoundariesStreaming at h
  dsimp only at h
  by_cases hbegin : (lines (trim s)).head?.map trim = some beginPatchMarker
  · refine ⟨hbegin, ?_⟩
    rw [if_pos hbegin] at h
    have hbounds : (if (lines (trim s)).getLast?.map trim = some endPatchMarker then
        (.ok (lines (trim s), (lines (trim s)).tail.dropLast) : Except ParseError _)
        else .ok (lines (trim s), (lines (trim s)).tail)) =
        .ok (lines (trim s), streamedLines (lines (trim s))) := by
      unfold streamedLines
      split <;> rfl
    rw [hbounds] at h
    cases hhunks : parseHunks true (streamedLines (lines (trim s))).length
        (streamedLines (lines (trim s))) 2 [] with
    | error e =>
      have herror : (.error e : Except ParseError ApplyPatchArgs) = .ok args := by
        rw [← h]
        show _ = parseHunks true _ _ _ _ >>= _
        rw [hhunks]
        rfl
      cases herror
    | ok hunks =>
      have hok : (.ok ⟨joinLines (lines (trim s)), hunks, none⟩ :
          Except ParseError ApplyPatchArgs) = .ok args := by
        rw [← h]
        show _ = parseHunks true _ _ _ _ >>= _
        rw [hhunks]
        rfl
      cases hok
      rfl
  · rw [if_neg hbegin] at h
    cases hstrict : checkPatchBoundariesStrict (lines (trim s)) with
    | error e =>
      rw [hstrict] at h
      cases h
    | ok bounds => exact absurd (marked_of_checkPatchBoundariesStrict hstrict).1.1 hbegin

lemma streamedLines_append (line : Text) (ls : List Text) {more : List Text} (hne : more ≠ []) :
    streamedLines (line :: ls ++ more) =
      ls ++ if more.getLast?.map trim = some endPatchMarker then more.dropLast else more := by
  have hlast : (line :: ls ++ more).getLast? = more.getLast? :=
    List.getLast?_append_of_ne_nil (line :: ls) hne
  unfold streamedLines
  rw [hlast]
  split
  · rw [List.cons_append, List.tail_cons, List.dropLast_append_of_ne_nil hne]
  · rfl

lemma grown_of_isInitial {last last' : Text} (hinit : last <+: last') (rest : List Text) :
    Grown (if [last].getLast?.map trim = some endPatchMarker then [last].dropLast else [last])
      (if (last' :: rest).getLast?.map trim = some endPatchMarker then (last' :: rest).dropLast
        else last' :: rest) := by
  constructor
  · split <;> simp
  · intro line hline hheader
    have hline' : line = last := by
      split at hline
      · cases hline
      · exact List.mem_singleton.mp hline
    subst hline'
    split
    · rename_i hend
      cases rest with
      | nil =>
        -- the line that grew is still a header, and no end marker
        have hne : trim last' ≠ endPatchMarker :=
          (hheader.of_isInitial hinit).trim_ne (by decide)
        rw [List.getLast?_singleton, Option.map_some, Option.some.injEq] at hend
        exact absurd hend hne
      | cons line rest => exact ⟨last', _, rfl, hinit⟩
    · exact ⟨last', rest, rfl, hinit⟩

lemma parsePatchStreaming_grown {p q : Text} {before after : ApplyPatchArgs} (hinit : p <+: q)
    (hbefore : parsePatchStreaming p = .ok before) (hafter : parsePatchStreaming q = .ok after) :
    before.hunks.length ≤ after.hunks.length ∧ before.hunks.dropLast <+: after.hunks := by
  obtain ⟨hbegin, hhunks⟩ := parsePatchStreaming_eq_ok hbefore
  obtain ⟨-, hhunks'⟩ := parsePatchStreaming_eq_ok hafter
  have hne : trim p ≠ [] := by
    intro hnil
    rw [hnil] at hbegin
    cases hbegin
  obtain ⟨s, hs⟩ := trim_isInitial (nonBlank_of_trim_ne_nil hne) hinit
  obtain ⟨ls, last, last', rest, hlines, hlines', hgrown⟩ :=
    lines_append hne (trimEnd_trim p) s
  rw [hlines] at hbegin hhunks
  rw [← hs, hlines'] at hhunks'
  cases ls with
  | nil =>
    -- only the begin marker has arrived
    have hempty : streamedLines ([] ++ [last]) = [] := by
      unfold streamedLines
      split <;> rfl
    rw [hempty, parseHunks_nil] at hhunks
    rw [← Except.ok.inj hhunks]
    exact ⟨Nat.zero_le _, List.nil_prefix⟩
  | cons line ls =>
    rw [streamedLines_append line ls (List.cons_ne_nil _ _)] at hhunks hhunks'
    obtain ⟨hgrows, hle⟩ := parseHunks_grown (grown_of_isInitial hgrown rest) (Nat.le_refl _)
      (Nat.le_refl _) hhunks hhunks'
    exact ⟨hle, hgrows⟩

/-! ## The complete text -/

/-- A lone `@` starts no chunk. -/
lemma parseUpdateFileChunk_at (rest : List Text) (lineNumber : ℕ) (allowMissing : Bool)
    (result : UpdateFileChunk × ℕ) :
    parseUpdateFileChunk (['@'] :: rest) lineNumber allowMissing ≠ .ok result := by
  intro h
  obtain ⟨context, start, parsedLines, hcontext, -, hlines, -⟩ :=
    parseUpdateFileChunk_eq_ok_iff.mp h
  cases allowMissing with
  | false => cases hcontext
  | true =>
    cases hcontext
    rw [List.drop_zero, parseChunkLines_other (by decide) (by decide)] at hlines
    cases hlines

lemma parseChunks_streaming {chunks : List UpdateFileChunk} {parsedLines : ℕ}
    {result : List UpdateFileChunk × ℕ}
    (h : parseChunks lineNumber false fuel ls chunks parsedLines = .ok result) :
    parseChunks lineNumber true fuel ls chunks parsedLines = .ok result := by
  induction fuel generalizing ls chunks parsedLines with
  | zero => exact h
  | succ fuel ih =>
    cases ls with
    | nil => exact h
    | cons line ls =>
      cases round_of_parseChunks h with
      | blank hblank hrest =>
        rw [parseChunks_blank hblank]
        exact ih hrest
      | stop hline hresult =>
        rcases hline with hstar | ⟨hfalse, -⟩
        · obtain ⟨t, rfl⟩ := List.head?_eq_some_iff.mp hstar
          rw [parseChunks_star (trim_cons_ne_nil t (by decide)) hstar, hresult]
        · cases hfalse
      | chunk hblank hstar _ chunk taken hchunk hrest =>
        have hat : ¬ (true = true ∧ line = ['@']) := by
          rintro ⟨-, rfl⟩
          exact parseUpdateFileChunk_at _ _ _ _ hchunk
        rw [parseChunks_chunk hblank hstar hat hchunk]
        exact ih hrest

lemma parseOneHunk_streaming {result : Hunk × ℕ}
    (h : parseOneHunk line ls lineNumber false = .ok result) :
    parseOneHunk line ls lineNumber true = .ok result := by
  unfold parseOneHunk at h ⊢
  dsimp only at h ⊢
  split at h
  · exact h
  split at h
  · exact h
  split at h
  · obtain ⟨chunks, hchunks, hne, hhunk⟩ := parseUpdate_eq_ok_iff.mp h
    exact parseUpdate_eq_ok_iff.mpr ⟨chunks, parseChunks_streaming hchunks, hne, hhunk⟩
  · cases h

lemma parseHunks_streaming (h : parseHunks false fuel ls lineNumber hunks = .ok result) :
    parseHunks true fuel ls lineNumber hunks = .ok result := by
  induction fuel generalizing ls lineNumber hunks with
  | zero => exact h
  | succ fuel ih =>
    cases ls with
    | nil => exact h
    | cons line ls =>
      obtain ⟨hunk, taken, hone, hrest⟩ := parseHunks_eq_ok_iff.mp h
      exact parseHunks_eq_ok_iff.mpr ⟨hunk, taken, parseOneHunk_streaming hone, ih hrest⟩

lemma parsePatchStreaming_of_strict {s : Text} {args : ApplyPatchArgs}
    (h : parsePatchText s .strict = .ok args) : parsePatchStreaming s = .ok args := by
  unfold parsePatchText checkPatchBoundaries at h
  dsimp only at h
  cases hbounds : checkPatchBoundariesStrict (lines (trim s)) with
  | error e =>
    rw [hbounds] at h
    cases h
  | ok bounds =>
    obtain ⟨hmarked, rfl⟩ := marked_of_checkPatchBoundariesStrict hbounds
    have hstreaming : checkPatchBoundariesStreaming (lines (trim s)) =
        .ok (lines (trim s), (lines (trim s)).tail.dropLast) := by
      unfold checkPatchBoundariesStreaming
      rw [if_pos hmarked.1, if_pos hmarked.2]
    rw [hbounds] at h
    unfold parsePatchStreaming parsePatchText checkPatchBoundaries
    dsimp only
    rw [hstreaming]
    show parseHunks true _ _ _ _ >>= _ = _
    change parseHunks false _ _ _ _ >>= _ = _ at h
    cases hhunks : parseHunks false (lines (trim s)).tail.dropLast.length
        (lines (trim s)).tail.dropLast 2 [] with
    | error e =>
      rw [hhunks] at h
      cases h
    | ok hunks =>
      rw [hhunks] at h
      rw [parseHunks_streaming hhunks]
      exact h

/-- A patch that is accepted has the same hunks when it is streamed, and of two texts on the way
to it the longer one has all hunks of the shorter one but its last. -/
theorem streaming_agrees (s : Text) (args : ApplyPatchArgs)
    (h : parsePatchText s .strict = .ok args) :
    (∃ args', parsePatchStreaming s = .ok args' ∧ args'.hunks = args.hunks) ∧
      ∀ p q : Text, p <+: q → q <+: s → ∀ before after : ApplyPatchArgs,
        parsePatchStreaming p = .ok before → parsePatchStreaming q = .ok after →
        before.hunks.length ≤ after.hunks.length ∧ before.hunks.dropLast <+: after.hunks := by
  refine ⟨⟨args, parsePatchStreaming_of_strict h, rfl⟩, ?_⟩
  intro p q hpq _ before after hbefore hafter
  exact parsePatchStreaming_grown hpq hbefore hafter

/-- Two cuts of one patch: the header of the second file is cut in its path, then seen whole. -/
theorem streaming_agrees_cut_header :
    let s := "*** Begin Patch\n*** Add File: a\n+x\n*** Delete File: bc\n*** End Patch".toList
    let args : ApplyPatchArgs :=
      ⟨s, [.addFile "a".toList "x\n".toList, .deleteFile "bc".toList], none⟩
    let p := "*** Begin Patch\n*** Add File: a\n+x\n*** Delete File: b".toList
    let before : ApplyPatchArgs :=
      ⟨p, [.addFile "a".toList "x\n".toList, .deleteFile "b".toList], none⟩
    parsePatchText s .strict = .ok args ∧ parsePatchStreaming p = .ok before ∧
      before.hunks.length ≤ args.hunks.length ∧ before.hunks.dropLast <+: args.hunks := by
  intro s args p before
  have h : parsePatchText s .strict = .ok args := by decide +kernel
  have hbefore : parsePatchStreaming p = .ok before := by decide +kernel
  have hafter : parsePatchStreaming s = .ok args := by decide +kernel
  exact ⟨h, hbefore, (streaming_agrees s args h).2 p s (by decide +kernel) (List.prefix_refl s)
    before args hbefore hafter⟩

end Supercodex.ApplyPatch
