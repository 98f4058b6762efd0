import Supercodex.ApplyPatch.SpliceTheorems

/-!
# Replacements within bounds (`apply-patch/src/lib.rs`)

Removing and inserting at an index panic beyond the end of the lines. A replacement leaves at least the lines
before its start, and the next one to be made starts no later, so it finds its start within the lines,
however the ranges overlap.
-/

namespace Supercodex.ApplyPatch

open Text Supercodex.Path Splice

/-! ## Operations that may panic -/

/-- `Vec::remove`, which panics at the end and beyond. -/
def vecRemove (lines : List Text) (i : ℕ) : Option (List Text) :=
  if i < lines.length then some (lines.take i ++ lines.drop (i + 1)) else none

/-- The loop of `apply_replacements` that removes the old lines. -/
def removeOldLines (start : ℕ) : ℕ → List Text → Option (List Text)
  | 0, lines => some lines
  | n + 1, lines =>
    (if start < lines.length then vecRemove lines start else some lines).bind (removeOldLines start n)

/-- One round of `apply_replacements`, `none` if it panics at a removal or an insertion. -/
def checkedReplacement (lines : List Text) (r : Replacement) : Option (List Text) :=
  (removeOldLines r.start r.oldLen lines).bind fun lines => insertLines lines r.start r.newLines

/-- `apply_replacements`, `none` if it panics. -/
def checkedReplacements (lines : List Text) (replacements : List Replacement) : Option (List Text) :=
  replacements.reverse.foldlM checkedReplacement lines

lemma removeOldLines_eq (start n : ℕ) (lines : List Text) :
    removeOldLines start n lines = some ((fun ls => removeAt ls start)^[n] lines) := by
  induction n generalizing lines with
  | zero => rfl
  | succ n ih =>
    have hremove : (if start < lines.length then vecRemove lines start else some lines) =
        some (removeAt lines start) := by
      rw [vecRemove, removeAt]
      split_ifs
      · rfl
      · rfl
    rw [removeOldLines, hremove, Option.bind_some, ih, Function.iterate_succ_apply]

lemma checkedReplacement_eq (lines : List Text) (r : Replacement) :
    checkedReplacement lines r = applyReplacement lines r := by
  rw [checkedReplacement, removeOldLines_eq, Option.bind_some, applyReplacement]

lemma checkedReplacements_eq (lines : List Text) (replacements : List Replacement) :
    checkedReplacements lines replacements = applyReplacements lines replacements := by
  have hround : checkedReplacement = applyReplacement := by
    ext1 lines
    ext1 r
    exact checkedReplacement_eq lines r
  rw [checkedReplacements, hround, applyReplacements]

/-! ## The lengths that are left -/

lemma applyReplacements_cons (lines : List Text) (r : Replacement) (rs : List Replacement) :
    applyReplacements lines (r :: rs) = (applyReplacements lines rs).bind (applyReplacement · r) := by
  rw [applyReplacements, applyReplacements, List.reverse_cons, List.foldlM_append]
  show (rs.reverse.foldlM applyReplacement lines >>= fun ls => [r].foldlM applyReplacement ls) = _
  simp only [List.foldlM_cons, List.foldlM_nil, bind_pure]
  rfl

lemma start_le_length_replaceRange {lines : List Text} {r : Replacement} (h : r.start ≤ lines.length) :
    r.start ≤ (replaceRange r.toEdit lines).length := by
  have htake : (lines.take r.start).length = r.start := List.length_take_of_le h
  show r.start ≤ (lines.take r.start ++ r.newLines ++ lines.drop _).length
  rw [List.length_append, List.length_append, htake]
  omega

lemma exists_applyReplacements {lines : List Text} {rs : List Replacement}
    (hsorted : rs.Pairwise fun r r' => r.start ≤ r'.start) (hbound : ∀ r ∈ rs, r.start ≤ lines.length) :
    ∃ newLines, applyReplacements lines rs = some newLines ∧
      ∀ i, i ≤ lines.length → (∀ r ∈ rs, i ≤ r.start) → i ≤ newLines.length := by
  induction rs with
  | nil => exact ⟨lines, rfl, fun i hi _ => hi⟩
  | cons r rs ih =>
    obtain ⟨hfirst, hrest⟩ := List.pairwise_cons.mp hsorted
    obtain ⟨newLines, hlines, hleft⟩ := ih hrest fun r' hr' => hbound r' (List.mem_cons_of_mem r hr')
    have hstart : r.start ≤ newLines.length := by
      apply hleft
      · exact hbound r List.mem_cons_self
      · exact hfirst
    refine ⟨replaceRange r.toEdit newLines, ?_, ?_⟩
    · rw [applyReplacements_cons, hlines, Option.bind_some]
      exact applyReplacement_eq hstart
    · intro i _ hi
      have hir : i ≤ r.start := hi r List.mem_cons_self
      have hlength := start_le_length_replaceRange hstart
      omega

lemma sorted_of_computeReplacements {originalLines : List Text} {path : AbsolutePath}
    {chunks : List UpdateFileChunk} {replacements : List Replacement}
    (h : computeReplacements originalLines path chunks = .ok replacements) :
    replacements.Pairwise (fun r r' => r.start ≤ r'.start) ∧
      ∀ r ∈ replacements, r.start ≤ originalLines.length := by
  obtain ⟨collected, hcollect, rfl⟩ := computeReplacements_eq_ok h
  obtain ⟨located, hlocated, -, hstop⟩ := collectReplacements_eq_ok (Nat.zero_le _) hcollect
  rw [List.nil_append] at hlocated
  refine ⟨Ranking.pairwise_upwards _ _, ?_⟩
  intro r hr
  have hend := hstop r (hlocated ▸ (Ranking.upwards_perm _ _).subset hr)
  omega

/-- Applying computed replacements neither removes nor inserts beyond the end of the lines: when the turn of a
replacement comes, its start is within them, and no operation panics. -/
theorem applied_replacements_in_bounds {originalLines : List Text} {path : AbsolutePath}
    {chunks : List UpdateFileChunk} {replacements : List Replacement}
    (h : computeReplacements originalLines path chunks = .ok replacements) :
    (∀ before r after, replacements = before ++ r :: after →
      ∃ lines, applyReplacements originalLines after = some lines ∧ r.start ≤ lines.length) ∧
    ∃ newLines, applyReplacements originalLines replacements = some newLines ∧
      checkedReplacements originalLines replacements = some newLines := by
  obtain ⟨hsorted, hbound⟩ := sorted_of_computeReplacements h
  constructor
  · intro before r after hsplit
    rw [hsplit] at hsorted hbound
    have hlater := (List.pairwise_append.mp hsorted).2.1
    rw [List.pairwise_cons] at hlater
    obtain ⟨lines, hlines, hleft⟩ := exists_applyReplacements hlater.2 fun r' hr' =>
      hbound r' (List.mem_append_right _ (List.mem_cons_of_mem r hr'))
    refine ⟨lines, hlines, ?_⟩
    apply hleft
    · exact hbound r (List.mem_append_right _ List.mem_cons_self)
    · exact hlater.1
  · obtain ⟨newLines, hlines, -⟩ := exists_applyReplacements hsorted hbound
    refine ⟨newLines, hlines, ?_⟩
    rw [checkedReplacements_eq, hlines]

/-- Two chunks for the end of the file, which replace the same line. -/
theorem applied_replacements_in_bounds_overlapping :
    ∃ newLines, checkedReplacements ["a".toList] [⟨0, 1, []⟩, ⟨0, 1, ["c".toList]⟩] = some newLines := by
  have hcompute : computeReplacements ["a".toList] []
      [⟨none, ["a".toList], [], true⟩, ⟨none, ["a".toList], ["c".toList], true⟩] =
        .ok [⟨0, 1, []⟩, ⟨0, 1, ["c".toList]⟩] := by decide +kernel
  obtain ⟨newLines, -, hchecked⟩ := (applied_replacements_in_bounds hcompute).2
  exact ⟨newLines, hchecked⟩

end Supercodex.ApplyPatch
