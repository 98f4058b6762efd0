import Supercodex.ApplyPatch.Update
import Supercodex.Library.Ranking
import Supercodex.Library.Splice

/-!
# The replacements of an update (`apply-patch/src/lib.rs`)

The replacements of an update are ranges of the lines of the file, sorted by where they start. Where they
lie apart, making them one by one is the same as splicing all of them at once. A chunk for the end of the
file, and lines that are added before a final blank line, can get in the way of other replacements.
-/

namespace Supercodex.ApplyPatch

open Text Supercodex.Path Splice Replacement Ranking

/-- A replacement as an edit of a list of lines. -/
def Replacement.toEdit (r : Replacement) : Edit Text := ⟨r.start, r.oldLen, r.newLines⟩

/-! ## Applying replacements -/

lemma iterate_removeAt (i n : ℕ) (lines : List Text) :
    (fun ls => removeAt ls i)^[n] lines = lines.take i ++ lines.drop (i + n) := by
  induction n generalizing lines with
  | zero => rw [Function.iterate_zero, id, Nat.add_zero, List.take_append_drop]
  | succ n ih =>
    rw [Function.iterate_succ_apply, ih, removeAt]
    split_ifs with hi
    · have hlength : (lines.take i).length = i := List.length_take_of_le hi.le
      rw [List.take_left' hlength, List.drop_append, List.drop_eq_nil_of_le (by omega), List.nil_append, hlength,
        List.drop_drop]
      congr 2
      omega
    · rw [List.drop_eq_nil_of_le (by omega), List.drop_eq_nil_of_le (by omega)]

variable {lines : List Text}

lemma insertLines_eq {i : ℕ} (hi : i ≤ lines.length) (newLines : List Text) :
    insertLines lines i newLines = some (lines.take i ++ newLines ++ lines.drop i) := by
  induction newLines generalizing lines i with
  | nil => rw [insertLines, List.append_nil, List.take_append_drop]
  | cons line newLines ih =>
    have hlength : (lines.take i).length = i := List.length_take_of_le hi
    rw [insertLines, insertAt, if_pos hi, Option.bind_some, ih (by
      rw [List.length_append, List.length_cons, hlength]
      omega)]
    have htake : (lines.take i ++ line :: lines.drop i).take (i + 1) = lines.take i ++ [line] := by
      rw [List.take_append, hlength, List.take_of_length_le (by omega), Nat.add_sub_cancel_left]
      rfl
    have hdrop : (lines.take i ++ line :: lines.drop i).drop (i + 1) = lines.drop i := by
      rw [List.drop_append, hlength, List.drop_eq_nil_of_le (by omega), Nat.add_sub_cancel_left]
      rfl
    rw [htake, hdrop, List.append_assoc (lines.take i)]
    rfl

variable {r : Replacement}

lemma applyReplacement_eq (h : r.start ≤ lines.length) :
    applyReplacement lines r = some (replaceRange r.toEdit lines) := by
  have hlength : (lines.take r.start).length = r.start := List.length_take_of_le h
  rw [applyReplacement, iterate_removeAt, insertLines_eq (by rw [List.length_append, hlength]; omega),
    List.take_left' hlength, List.drop_left' hlength]
  rfl

lemma applyReplacements_eq {replacements : List Replacement}
    (hordered : Ordered (replacements.map toEdit))
    (hstop : ∀ r ∈ replacements, r.start + r.oldLen ≤ lines.length) :
    applyReplacements lines replacements = some (splice lines 0 (replacements.map toEdit)) := by
  have hbounds : ∀ e ∈ replacements.map toEdit, e.stop ≤ lines.length := by
    rw [List.forall_mem_map]
    exact hstop
  rw [← foldr_replaceRange hordered hbounds, applyReplacements]
  clear hbounds
  induction replacements with
  | nil => rfl
  | cons r replacements ih =>
    rw [List.map_cons, Ordered, List.pairwise_cons] at hordered
    rw [List.forall_mem_cons] at hstop
    rw [List.reverse_cons, List.foldlM_append, ih hordered.2 hstop.2]
    show (applyReplacement _ r).bind some = _
    rw [Option.bind_fun_some, applyReplacement_eq]
    · rfl
    · -- what comes before the later replacements is still there
      have hbounds : ∀ e ∈ replacements.map toEdit, e.stop ≤ lines.length := by
        rw [List.forall_mem_map]
        exact hstop.2
      have hfirst : r.toEdit.stop ≤ lines.length := hstop.1
      rw [foldr_replaceRange hordered.2 hbounds, splice_eq_take_append hordered.1 hbounds hfirst (Nat.zero_le _),
        List.length_append, List.drop_zero, List.length_take_of_le hfirst]
      exact (Nat.le_add_right r.start r.oldLen).trans (Nat.le_add_right _ _)

/-! ## Where chunks are found -/

lemma seekSequence_eq_some {lines pattern : List Text} {start i : ℕ} {eof : Bool}
    (h : seekSequence lines pattern start eof = some i) :
    (pattern = [] ∧ i = start) ∨ i + pattern.length ≤ lines.length ∧ (eof = false → start ≤ i) := by
  rw [seekSequence] at h
  split_ifs at h with hnil hlong heof
  · exact .inl ⟨hnil, (Option.some.inj h).symm⟩
  · obtain ⟨view, -, hfind⟩ := List.exists_of_findSome?_eq_some h
    have hmem := List.mem_range'_1.mp (List.mem_of_find?_eq_some hfind)
    refine .inr ⟨by omega, fun hnot => ?_⟩
    rw [heof] at hnot
    cases hnot
  · obtain ⟨view, -, hfind⟩ := List.exists_of_findSome?_eq_some h
    have hmem := List.mem_range'_1.mp (List.mem_of_find?_eq_some hfind)
    exact .inr ⟨by omega, fun _ => hmem.1⟩

variable {path : AbsolutePath} {originalLines : List Text} {chunk : UpdateFileChunk}

lemma seekContext_eq_ok {lineIndex searched : ℕ}
    (h : seekContext originalLines path chunk lineIndex = .ok searched) :
    lineIndex ≤ searched ∧ (lineIndex ≤ originalLines.length → searched ≤ originalLines.length) := by
  rw [seekContext] at h
  split at h
  · cases h
    exact ⟨le_rfl, id⟩
  split at h
  · rename_i context _ index hindex
    cases h
    rcases seekSequence_eq_some hindex with ⟨hnil, -⟩ | ⟨hle, hstart⟩
    · cases hnil
    · rw [List.length_singleton] at hle
      exact ⟨(hstart rfl).trans (Nat.le_succ _), fun _ => hle⟩
  · cases h

/-- The lines that a replacement is for, and its new lines. A final empty line may stand for the end of the
file. -/
def ReplacementOf (chunk : UpdateFileChunk) (r : Replacement) : Prop :=
  (r.oldLen = chunk.oldLines.length ∧ r.newLines = chunk.newLines) ∨
    chunk.oldLines.getLast? = some [] ∧ r.oldLen + 1 = chunk.oldLines.length ∧
      r.newLines = dropLastEmpty chunk.newLines

/-- A chunk is located within the lines, and from the line index on unless it is for the end. -/
lemma locateChunk_eq_some {lineIndex next : ℕ}
    (h : locateChunk originalLines chunk lineIndex = some (r, next)) :
    next = r.start + r.oldLen ∧ (lineIndex ≤ originalLines.length → next ≤ originalLines.length) ∧
      (chunk.isEndOfFile = false → lineIndex ≤ r.start) ∧ ReplacementOf chunk r := by
  have hfound : ∀ {pattern : List Text} {start : ℕ},
      seekSequence originalLines pattern lineIndex chunk.isEndOfFile = some start →
      (lineIndex ≤ originalLines.length → start + pattern.length ≤ originalLines.length) ∧
        (chunk.isEndOfFile = false → lineIndex ≤ start) := by
    intro pattern start hseek
    rcases seekSequence_eq_some hseek with ⟨rfl, rfl⟩ | ⟨hle, hstart⟩
    · exact ⟨id, fun _ => le_rfl⟩
    · exact ⟨fun _ => hle, hstart⟩
  rw [locateChunk] at h
  split at h
  · rename_i start hseek
    cases h
    obtain ⟨hle, hstart⟩ := hfound hseek
    exact ⟨rfl, hle, hstart, .inl ⟨rfl, rfl⟩⟩
  · split_ifs at h with hlast
    obtain ⟨start, hseek, heq⟩ := Option.map_eq_some_iff.mp h
    cases heq
    obtain ⟨hle, hstart⟩ := hfound hseek
    refine ⟨rfl, hle, hstart, .inr ⟨hlast, ?_, rfl⟩⟩
    have hne : chunk.oldLines ≠ [] := by
      intro hnil
      rw [hnil] at hlast
      cases hlast
    have hpos := List.length_pos_iff.mpr hne
    show chunk.oldLines.dropLast.length + 1 = chunk.oldLines.length
    rw [List.length_dropLast]
    omega

/-- Where lines that are added to a file go. -/
def insertionIdx (originalLines : List Text) : ℕ := (dropLastEmpty originalLines).length

lemma insertionIdx_le (originalLines : List Text) : insertionIdx originalLines ≤ originalLines.length := by
  rw [insertionIdx, dropLastEmpty]
  split_ifs
  · exact List.length_dropLast .. ▸ Nat.sub_le _ _
  · exact le_rfl

lemma length_le_insertionIdx (originalLines : List Text) : originalLines.length ≤ insertionIdx originalLines + 1 ∧
    (originalLines.getLast? ≠ some [] → insertionIdx originalLines = originalLines.length) := by
  rw [insertionIdx, dropLastEmpty]
  split_ifs with hlast
  · refine ⟨?_, fun hne => absurd hlast hne⟩
    rw [List.length_dropLast]
    omega
  · exact ⟨Nat.le_succ _, fun _ => rfl⟩

/-- The replacement of a chunk in a file, at its end if the chunk has no old lines. -/
def PlacedReplacementOf (originalLines : List Text) (chunk : UpdateFileChunk) (r : Replacement) : Prop :=
  ReplacementOf chunk r ∧ (chunk.oldLines = [] → r.start = insertionIdx originalLines)

variable {chunks : List UpdateFileChunk} {lineIndex : ℕ}

/-- One round: a chunk without old lines goes to the end, every other one where its lines are found. -/
lemma collectReplacements_cons {before replacements : List Replacement}
    (h : collectReplacements originalLines path (chunk :: chunks) lineIndex before = .ok replacements) :
    ∃ searched, seekContext originalLines path chunk lineIndex = .ok searched ∧
      ((chunk.oldLines = [] ∧ collectReplacements originalLines path chunks searched
          (before ++ [⟨insertionIdx originalLines, 0, chunk.newLines⟩]) = .ok replacements) ∨
        chunk.oldLines ≠ [] ∧ ∃ r next, locateChunk originalLines chunk searched = some (r, next) ∧
          collectReplacements originalLines path chunks next (before ++ [r]) = .ok replacements) := by
  rw [collectReplacements] at h
  cases hcontext : seekContext originalLines path chunk lineIndex with
  | error error =>
    rw [hcontext] at h
    cases h
  | ok searched =>
    rw [hcontext] at h
    refine ⟨searched, rfl, ?_⟩
    replace h : (if chunk.oldLines = [] then _ else _) = Except.ok replacements := h
    split_ifs at h with hold
    · exact .inl ⟨hold, h⟩
    split at h
    · rename_i r next hlocate
      exact .inr ⟨hold, r, next, hlocate, h⟩
    · cases h

lemma collectReplacements_eq_ok {before replacements : List Replacement} (hline : lineIndex ≤ originalLines.length)
    (h : collectReplacements originalLines path chunks lineIndex before = .ok replacements) :
    ∃ collected, replacements = before ++ collected ∧
      List.Forall₂ (PlacedReplacementOf originalLines) chunks collected ∧
        ∀ r ∈ collected, r.start + r.oldLen ≤ originalLines.length := by
  induction chunks generalizing lineIndex before with
  | nil =>
    cases h
    exact ⟨[], (List.append_nil _).symm, .nil, fun _ h => nomatch h⟩
  | cons chunk chunks ih =>
    obtain ⟨searched, hcontext, hcase⟩ := collectReplacements_cons h
    have hsearched := (seekContext_eq_ok hcontext).2 hline
    rcases hcase with ⟨hold, hrest⟩ | ⟨hold, r, next, hlocate, hrest⟩
    · obtain ⟨collected, rfl, hof, hbounds⟩ := ih hsearched hrest
      refine ⟨_, List.append_assoc _ _ _, .cons ⟨.inl ⟨?_, rfl⟩, fun _ => rfl⟩ hof,
        List.forall_mem_cons.mpr ⟨?_, hbounds⟩⟩
      · rw [hold]
        rfl
      · exact insertionIdx_le originalLines
    · obtain ⟨rfl, hnext, -, hofFirst⟩ := locateChunk_eq_some hlocate
      obtain ⟨collected, rfl, hof, hbounds⟩ := ih (hnext hsearched) hrest
      exact ⟨_, List.append_assoc _ _ _, .cons ⟨hofFirst, fun hnil => absurd hnil hold⟩ hof,
        List.forall_mem_cons.mpr ⟨hnext hsearched, hbounds⟩⟩

/-! ## Replacements that lie apart -/

/-- Are lines added before a final blank line? -/
def addsBeforeBlank (originalLines : List Text) (chunks : List UpdateFileChunk) : Bool :=
  originalLines.getLast? = some [] && chunks.any fun chunk => chunk.oldLines = []

/-- Does nothing get in the way of a replacement? No chunk for the end of the file is found before the end
of the replacement before it, and none replaces the final blank line if lines are added there. -/
def undisturbed (originalLines : List Text) (path : AbsolutePath) (adds : Bool) :
    List UpdateFileChunk → ℕ → ℕ → Bool
  | [], _, _ => true
  | chunk :: chunks, lineIndex, stop =>
    match seekContext originalLines path chunk lineIndex with
    | .error _ => true
    | .ok searched =>
      if chunk.oldLines = [] then undisturbed originalLines path adds chunks searched stop
      else match locateChunk originalLines chunk searched with
        | none => true
        | some (r, next) => (!chunk.isEndOfFile || stop ≤ r.start) &&
          (!adds || r.oldLen = 0 || next < originalLines.length) &&
          undisturbed originalLines path adds chunks next next

/-- What the loop has collected up to a line: additions at the end of the file, and replacements before the
line that leave room for them. -/
structure Collected (originalLines : List Text) (adds : Bool) (stop : ℕ) (replacements : List Replacement) :
    Prop where
  apart : (replacements.map Replacement.toEdit).Pairwise Apart
  each : ∀ r ∈ replacements,
    (r.start = insertionIdx originalLines ∧ r.oldLen = 0 ∧ (originalLines.getLast? = some [] → adds = true)) ∨
      r.start + r.oldLen ≤ stop ∧ (adds = true → r.oldLen = 0 ∨ r.start + r.oldLen < originalLines.length)

variable {originalLines : List Text} {adds : Bool} {stop : ℕ} {replacements : List Replacement}

section

variable (h : Collected originalLines adds stop replacements)
include h

lemma Collected.append {stop' : ℕ} (hle : stop ≤ stop')
    (hr : (r.start = insertionIdx originalLines ∧ r.oldLen = 0 ∧
        (originalLines.getLast? = some [] → adds = true)) ∨
      r.start + r.oldLen ≤ stop' ∧ (adds = true → r.oldLen = 0 ∨ r.start + r.oldLen < originalLines.length))
    (hapart : ∀ before ∈ replacements, Apart before.toEdit r.toEdit) :
    Collected originalLines adds stop' (replacements ++ [r]) where
  apart := by
    rw [List.map_append, List.pairwise_append]
    refine ⟨h.apart, List.pairwise_singleton _ _, ?_⟩
    rw [List.forall_mem_map]
    intro before hbefore e he
    rw [List.map_singleton, List.mem_singleton] at he
    rw [he]
    exact hapart before hbefore
  each := by
    intro before hbefore
    rcases List.mem_append.mp hbefore with hbefore | hbefore
    · exact (h.each before hbefore).imp_right fun hreplaced => ⟨hreplaced.1.trans hle, hreplaced.2⟩
    · rw [List.mem_singleton.mp hbefore]
      exact hr

lemma Collected.addition (hstop : stop ≤ originalLines.length)
    (hadds : originalLines.getLast? = some [] → adds = true) (newLines : List Text) :
    Collected originalLines adds stop (replacements ++ [⟨insertionIdx originalLines, 0, newLines⟩]) := by
  obtain ⟨hblank, hlast⟩ := length_le_insertionIdx originalLines
  refine h.append le_rfl (.inl ⟨rfl, rfl, hadds⟩) fun before hbefore => ?_
  show before.start + before.oldLen ≤ insertionIdx originalLines ∨
    insertionIdx originalLines + 0 ≤ before.start ∧ insertionIdx originalLines < before.start
  rcases h.each before hbefore with ⟨hstart, hlen, -⟩ | ⟨hend, hroom⟩
  · omega
  by_cases hempty : originalLines.getLast? = some []
  · have := hroom (hadds hempty)
    omega
  · have := hlast hempty
    omega

lemma Collected.located (hstart : stop ≤ r.start) (hend : r.start + r.oldLen ≤ originalLines.length)
    (hroom : adds = true → r.oldLen = 0 ∨ r.start + r.oldLen < originalLines.length) :
    Collected originalLines adds (r.start + r.oldLen) (replacements ++ [r]) := by
  obtain ⟨hblank, hlast⟩ := length_le_insertionIdx originalLines
  refine h.append (by omega) (.inr ⟨le_rfl, hroom⟩) fun before hbefore => ?_
  show before.start + before.oldLen ≤ r.start ∨ r.start + r.oldLen ≤ before.start ∧ r.start < before.start
  rcases h.each before hbefore with ⟨hbeforeStart, hbeforeLen, hadds⟩ | ⟨hbeforeEnd, -⟩
  · by_cases hempty : originalLines.getLast? = some []
    · have := hroom (hadds hempty)
      omega
    · have := hlast hempty
      omega
  · omega

end

/-- The loop collects replacements that lie apart, if nothing gets in their way. -/
lemma collected_of_undisturbed {before : List Replacement}
    (hundisturbed : undisturbed originalLines path adds chunks lineIndex stop = true)
    (hstop : stop ≤ lineIndex) (hline : lineIndex ≤ originalLines.length)
    (hadds : originalLines.getLast? = some [] → ∀ chunk ∈ chunks, chunk.oldLines = [] → adds = true)
    (hbefore : Collected originalLines adds stop before)
    (h : collectReplacements originalLines path chunks lineIndex before = .ok replacements) :
    ∃ stop, Collected originalLines adds stop replacements := by
  induction chunks generalizing lineIndex stop before with
  | nil =>
    cases h
    exact ⟨stop, hbefore⟩
  | cons chunk chunks ih =>
    obtain ⟨searched, hcontext, hcase⟩ := collectReplacements_cons h
    obtain ⟨hle, hsearched⟩ := seekContext_eq_ok hcontext
    rw [undisturbed, hcontext] at hundisturbed
    dsimp only at hundisturbed
    have haddsRest : originalLines.getLast? = some [] → ∀ chunk ∈ chunks, chunk.oldLines = [] → adds = true :=
      fun hempty chunk hchunk => hadds hempty chunk (List.mem_cons_of_mem _ hchunk)
    rcases hcase with ⟨hold, hrest⟩ | ⟨hold, r, next, hlocate, hrest⟩
    · rw [if_pos hold] at hundisturbed
      exact ih hundisturbed (hstop.trans hle) (hsearched hline) haddsRest
        (hbefore.addition (hstop.trans hline) (fun hempty => hadds hempty chunk List.mem_cons_self hold) _) hrest
    · rw [if_neg hold, hlocate] at hundisturbed
      simp only [Bool.and_eq_true, Bool.or_eq_true, Bool.not_eq_true', decide_eq_true_eq] at hundisturbed
      obtain ⟨⟨hendOfFile, hroom⟩, hafter⟩ := hundisturbed
      obtain ⟨rfl, hnext, hforward, -⟩ := locateChunk_eq_some hlocate
      have hstart : stop ≤ r.start := by
        cases heof : chunk.isEndOfFile with
        | true => exact hendOfFile.resolve_left (by simp [heof])
        | false => exact (hstop.trans hle).trans (hforward heof)
      have hleft : adds = true → r.oldLen = 0 ∨ r.start + r.oldLen < originalLines.length := by
        intro htrue
        rw [htrue] at hroom
        simpa using hroom
      exact ih hafter le_rfl (hnext (hsearched hline)) haddsRest
        (hbefore.located hstart (hnext (hsearched hline)) hleft) hrest

/-- What `compute_replacements` returns: the collected replacements, sorted by their starts. -/
lemma computeReplacements_eq_ok
    (h : computeReplacements originalLines path chunks = .ok replacements) :
    ∃ collected, collectReplacements originalLines path chunks 0 [] = .ok collected ∧
      replacements = upwards start collected := by
  rw [computeReplacements] at h
  cases hcollect : collectReplacements originalLines path chunks 0 [] with
  | error error =>
    rw [hcollect] at h
    cases h
  | ok collected =>
    rw [hcollect] at h
    cases h
    exact ⟨collected, rfl, rfl⟩

/-- The replacements of the chunks, sorted by where they start. -/
structure SortedReplacements (originalLines : List Text) (chunks : List UpdateFileChunk)
    (replacements : List Replacement) : Prop where
  sorted : replacements.Pairwise fun r r' => r.start ≤ r'.start
  chunkOrder : ∃ collected, List.Forall₂ (PlacedReplacementOf originalLines) chunks collected ∧
    replacements.Perm collected ∧
    ∀ start, replacements.filter (fun r => r.start = start) = collected.filter fun r => r.start = start

/-- Replacements are within the lines and sorted by their starts, in the order of the chunks where these are
equal, and those of chunks without old lines are at the end. If nothing gets in the way of one, they follow one another, and applying them splices all of them in
at once, with all their new lines. -/
theorem compute_replacements_well_formed {path : AbsolutePath} {chunks : List UpdateFileChunk}
    (h : computeReplacements originalLines path chunks = .ok replacements) :
    (∀ r ∈ replacements, r.start + r.oldLen ≤ originalLines.length) ∧
      SortedReplacements originalLines chunks replacements ∧
      (undisturbed originalLines path (addsBeforeBlank originalLines chunks) chunks 0 0 = true →
        replacements.Pairwise (fun r r' => r.start + r.oldLen ≤ r'.start) ∧
          applyReplacements originalLines replacements =
            some (splice originalLines 0 (replacements.map toEdit)) ∧
          ∀ r ∈ replacements, r.newLines <:+: splice originalLines 0 (replacements.map toEdit)) := by
  obtain ⟨collected, hcollect, rfl⟩ := computeReplacements_eq_ok h
  obtain ⟨_, rfl, hof, hbounds⟩ := collectReplacements_eq_ok (Nat.zero_le _) hcollect
  have hperm := upwards_perm start collected
  have hwithin : ∀ r ∈ upwards start collected, r.start + r.oldLen ≤ originalLines.length :=
    fun r hr => hbounds r (hperm.subset hr)
  refine ⟨hwithin, ⟨pairwise_upwards _ _, collected, hof, hperm, filter_upwards _ _⟩,
    fun hundisturbed => ?_⟩
  have hadds : originalLines.getLast? = some [] → ∀ chunk ∈ chunks, chunk.oldLines = [] →
      addsBeforeBlank originalLines chunks = true := by
    intro hblank chunk hchunk hold
    rw [addsBeforeBlank, decide_eq_true hblank, Bool.true_and, List.any_eq_true]
    exact ⟨chunk, hchunk, decide_eq_true hold⟩
  have hnil : Collected originalLines (addsBeforeBlank originalLines chunks) 0 [] :=
    ⟨List.Pairwise.nil, fun _ h => nomatch h⟩
  obtain ⟨stop, hcollected⟩ :=
    collected_of_undisturbed hundisturbed le_rfl (Nat.zero_le _) hadds hnil hcollect
  have hordered : Ordered ((upwards start collected).map toEdit) := by
    have hsorted := ordered_insertionSort hcollected.apart
    have hmap : upwards Edit.start (collected.map toEdit) =
        (upwards start collected).map toEdit :=
      map_upwards toEdit (fun _ => rfl) collected
    rw [← hmap]
    exact hsorted
  refine ⟨List.pairwise_map.mp hordered, applyReplacements_eq hordered hwithin, fun r hr => ?_⟩
  exact items_infix originalLines 0 (List.mem_map_of_mem (f := toEdit) hr)

/-- Two changes and an addition, which stands first in the patch and comes last in the file. -/
theorem compute_replacements_well_formed_three :
    let lines := ["a".toList, "b".toList]
    let replacements : List Replacement := [⟨0, 1, ["x".toList]⟩, ⟨1, 1, []⟩, ⟨2, 0, ["z".toList]⟩]
    applyReplacements lines replacements = some (splice lines 0 (replacements.map toEdit)) := by
  intro lines replacements
  have hcompute : computeReplacements lines [] [⟨none, [], ["z".toList], false⟩,
      ⟨none, ["a".toList], ["x".toList], false⟩, ⟨none, ["b".toList], [], true⟩] = .ok replacements := by
    decide +kernel
  exact ((compute_replacements_well_formed hcompute).2.2 (by decide +kernel)).2.1

/-- An addition that stands first is not returned first, and of two chunks for the same end of the file the
lines of the second one are removed again. -/
theorem replacements_out_of_order :
    (∃ replacements, computeReplacements ["a".toList] []
        [⟨none, [], ["z".toList], false⟩, ⟨none, ["a".toList], ["b".toList], false⟩] = .ok replacements ∧
      ¬List.Forall₂ ReplacementOf
        [⟨none, [], ["z".toList], false⟩, ⟨none, ["a".toList], ["b".toList], false⟩] replacements) ∧
    ∃ replacements, computeReplacements ["a".toList] []
        [⟨none, ["a".toList], ["b".toList], true⟩, ⟨none, ["a".toList], ["c".toList], true⟩] = .ok replacements ∧
      ¬replacements.Pairwise (fun r r' => r.start + r.oldLen ≤ r'.start) ∧
      applyReplacements ["a".toList] replacements = some ["b".toList] := by
  constructor
  · refine ⟨[⟨0, 1, ["b".toList]⟩, ⟨1, 0, ["z".toList]⟩], by decide +kernel, fun hof => ?_⟩
    rcases (List.forall₂_cons.mp hof).1 with ⟨hlen, -⟩ | ⟨hlast, -⟩
    · cases hlen
    · cases hlast
  · exact ⟨[⟨0, 1, ["b".toList]⟩, ⟨0, 1, ["c".toList]⟩], by decide +kernel, by decide +kernel, by decide +kernel⟩

/-! ## The new contents -/

/-- The last line of a file after replacements that follow one another, the last of them first: what the
last one puts at the end, or else what stands there. -/
def lastLine (lines : List Text) : ℕ → List Replacement → Option Text
  | stop, [] => (lines.take stop).getLast?
  | stop, r :: rs =>
    if r.start + r.oldLen < stop then (lines.take stop).getLast?
    else r.newLines.getLast?.or (lastLine lines r.start rs)

lemma getLast?_splice (hordered : Ordered (replacements.map toEdit))
    (hstop : stop ≤ lines.length) (hbounds : ∀ r ∈ replacements, r.start + r.oldLen ≤ stop) :
    (splice (lines.take stop) 0 (replacements.map toEdit)).getLast? =
      lastLine lines stop replacements.reverse := by
  induction replacements using List.reverseRecOn generalizing stop with
  | nil => rfl
  | append_singleton replacements r ih =>
    rw [List.map_append, List.map_singleton] at hordered ⊢
    have hr := hbounds r (List.mem_append_right _ List.mem_cons_self)
    have hbefore : ∀ before ∈ replacements, before.start + before.oldLen ≤ r.start := by
      intro before hbefore
      exact (List.pairwise_append.mp hordered).2.2 _ (List.mem_map_of_mem hbefore) _ List.mem_cons_self
    have hstart : r.toEdit.start ≤ stop := (Nat.le_add_right r.start r.oldLen).trans hr
    rw [splice_concat hordered, List.take_take, min_eq_left hstart, List.reverse_concat, lastLine,
      List.append_assoc, List.getLast?_append, List.getLast?_append]
    have hrest := ih (List.pairwise_append.mp hordered).1 (hstart.trans hstop) hbefore
    split_ifs with hlt
    · -- the replacement does not reach the end
      have hne : ((lines.take stop).drop r.toEdit.stop).getLast? = (lines.take stop).getLast? := by
        rw [List.getLast?_drop, if_neg]
        rw [List.length_take_of_le hstop]
        exact Nat.not_le.mpr hlt
      obtain ⟨last, hlast⟩ : ∃ last, (lines.take stop).getLast? = some last := by
        have hlines : lines.take stop ≠ [] := by
          rw [← List.length_pos_iff, List.length_take_of_le hstop]
          omega
        exact ⟨_, List.getLast?_eq_some_getLast hlines⟩
      rw [hne, hlast]
      rfl
    · have hnil : (lines.take stop).drop r.toEdit.stop = [] := by
        apply List.drop_eq_nil_of_le
        rw [List.length_take]
        exact (min_le_left _ _).trans (Nat.not_lt.mp hlt)
      rw [hnil, List.getLast?_nil, Option.none_or]
      exact congrArg (r.newLines.getLast?.or ·) hrest

lemma joinLines_eq_endLines_iff (newLines : List Text) :
    joinLines (if newLines.getLast? = some [] then newLines else newLines ++ [[]]) = endLines newLines ↔
      newLines.getLast? ≠ some [] := by
  split_ifs with hlast
  · refine ⟨fun heq => ?_, fun hne => absurd hlast hne⟩
    obtain ⟨before, rfl⟩ := List.getLast?_eq_some_iff.mp hlast
    rw [← endLines_eq_joinLines] at heq
    have hlength := congrArg List.length heq
    rw [endLines, endLines, List.flatMap_append, List.length_append] at hlength
    exact absurd hlength (Nat.ne_of_lt (Nat.lt_add_of_pos_right (by decide)))
  · exact ⟨fun _ => hlast, fun _ => (endLines_eq_joinLines newLines).symm⟩

/-- The lines of a text that ends with a newline. -/
def linesOf (contents : Text) : List Text := (contents.splitOn '\n').dropLast

lemma linesOf_spec {contents : Text} (h : contents.getLast? = some '\n') :
    endLines (linesOf contents) = contents ∧ dropLastEmpty (contents.splitOn '\n') = linesOf contents := by
  obtain ⟨body, rfl⟩ := List.getLast?_eq_some_iff.mp h
  have hsplit : (body ++ ['\n']).splitOn '\n' = body.splitOn '\n' ++ [[]] := by
    rw [List.splitOn_append_cons_self, List.splitOn_nil]
  have hlines : linesOf (body ++ ['\n']) = body.splitOn '\n' := by
    rw [linesOf, hsplit, List.dropLast_concat]
  constructor
  · rw [endLines_eq_joinLines, hlines, ← hsplit]
    exact List.intercalate_splitOn '\n'
  · rw [dropLastEmpty, if_pos (by rw [hsplit, List.getLast?_concat])]
    rfl

/-- Where the ranges are disjoint, a file keeps every line that no range touches, and its new contents are its
lines with each range replaced and each line ended, exactly if they do not end with a blank line. -/
theorem untouched_lines_survive {path : AbsolutePath} {contents : Text} {chunks : List UpdateFileChunk}
    (hnewline : contents.getLast? = some '\n')
    (hcompute : computeReplacements (linesOf contents) path chunks = .ok replacements)
    (hdisjoint : replacements.Pairwise fun r r' => r.start + r.oldLen ≤ r'.start) :
    let lines := linesOf contents
    let edits := replacements.map toEdit
    (newContents path contents chunks = .ok (endLines (splice lines 0 edits)) ↔
        lastLine lines lines.length replacements.reverse ≠ some []) ∧
      (untouched lines 0 edits).Sublist (splice lines 0 edits) := by
  intro lines edits
  have hbounds := (compute_replacements_well_formed hcompute).1
  have hordered : Ordered edits := List.pairwise_map.mpr hdisjoint
  have hlast := getLast?_splice hordered le_rfl hbounds
  rw [List.take_length] at hlast
  refine ⟨?_, untouched_sublist lines 0 edits⟩
  rw [← hlast, ← joinLines_eq_endLines_iff, newContents, (linesOf_spec hnewline).2, hcompute]
  dsimp only [bind, Except.bind]
  rw [applyReplacements_eq hordered hbounds]
  exact ⟨Except.ok.inj, congrArg Except.ok⟩

/-- A changed line, before one that stays. -/
theorem untouched_lines_survive_one : newContents [] "a\n\nb\n".toList [⟨none, ["a".toList], ["x".toList], false⟩] =
    .ok "x\n\nb\n".toList := by
  have hcompute : computeReplacements (linesOf "a\n\nb\n".toList) [] [⟨none, ["a".toList], ["x".toList], false⟩] =
      .ok [⟨0, 1, ["x".toList]⟩] := by decide +kernel
  exact (untouched_lines_survive (by decide) hcompute (List.pairwise_singleton _ _)).1.mpr (by decide +kernel)

/-- A file that ends with a blank line loses it when its first line is changed. -/
theorem blank_line_lost :
    computeReplacements (linesOf "a\n\n".toList) [] [⟨none, ["a".toList], ["x".toList], false⟩] =
        .ok [⟨0, 1, ["x".toList]⟩] ∧
      newContents [] "a\n\n".toList [⟨none, ["a".toList], ["x".toList], false⟩] = .ok "x\n".toList ∧
      newContents [] "a\n\n".toList [⟨none, ["a".toList], ["x".toList], false⟩] ≠
        .ok (endLines (splice (linesOf "a\n\n".toList) 0 [⟨0, 1, ["x".toList]⟩])) := by
  decide +kernel

end Supercodex.ApplyPatch
