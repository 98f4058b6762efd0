import Supercodex.ApplyPatch.Parser

/-!
# Parsing the normalised patch again

`parsePatch` returns the text it has parsed, without the heredoc markers, and the text is parsed
once more when the patch is applied. The second parse sees the same lines exactly if the lines of
the patch are settled: no line but the last ends in a carriage return, and the outer lines have no
white space at the ends of the text.
-/

namespace Supercodex.ApplyPatch

open Text

/-! ## Boundaries -/

/-- The first and the last line are the patch markers, up to white space. -/
def Marked (ls : List Text) : Prop :=
  ls.head?.map trim = some beginPatchMarker ∧ ls.getLast?.map trim = some endPatchMarker

variable {ls : List Text}

lemma checkPatchBoundariesStrict_of_marked (h : Marked ls) :
    checkPatchBoundariesStrict ls = .ok (ls, ls.tail.dropLast) := by
  unfold checkPatchBoundariesStrict checkStartAndEndLinesStrict
  rw [h.1, h.2]
  simp only [and_self, if_true]
  rfl

lemma marked_of_checkPatchBoundariesStrict {bounds : List Text × List Text}
    (h : checkPatchBoundariesStrict ls = .ok bounds) :
    Marked ls ∧ bounds = (ls, ls.tail.dropLast) := by
  have hm : Marked ls := by
    unfold checkPatchBoundariesStrict at h
    cases hc : checkStartAndEndLinesStrict ls.head? ls.getLast? with
    | error e =>
      rw [hc] at h
      cases h
    | ok u =>
      unfold checkStartAndEndLinesStrict at hc
      unfold Marked
      split at hc
      · rename_i first last hfirst hlast
        split at hc
        · rename_i hmarks
          rw [hfirst, hlast, hmarks.1, hmarks.2]
          exact ⟨rfl, rfl⟩
        · split at hc <;> cases hc
      · split at hc <;> cases hc
      · cases hc
  rw [checkPatchBoundariesStrict_of_marked hm] at h
  exact ⟨hm, (Except.ok.inj h).symm⟩

lemma Marked.exists_eq (h : Marked ls) :
    ∃ first mid last, ls = first :: (mid ++ [last]) ∧ trim first = beginPatchMarker ∧
      trim last = endPatchMarker := by
  obtain ⟨first, hfirst, hbegin⟩ := Option.map_eq_some_iff.mp h.1
  obtain ⟨last, hlast, hend⟩ := Option.map_eq_some_iff.mp h.2
  obtain ⟨rest, rfl⟩ := List.head?_eq_some_iff.mp hfirst
  cases rest using List.reverseRecOn with
  | nil =>
    -- one line cannot be both markers
    rw [List.getLast?_singleton, Option.some.injEq] at hlast
    rw [← hlast, hbegin] at hend
    exact absurd hend (by decide)
  | append_singleton mid last' =>
    rw [← List.cons_append, List.getLast?_concat, Option.some.injEq] at hlast
    rw [hlast]
    exact ⟨first, mid, last, rfl, hbegin, hend⟩

lemma marked_of_eq {first last : Text} {mid : List Text} (hfirst : trim first = beginPatchMarker)
    (hlast : trim last = endPatchMarker) : Marked (first :: (mid ++ [last])) := by
  constructor
  · rw [List.head?_cons, Option.map_some, hfirst]
  · rw [← List.cons_append, List.getLast?_concat, Option.map_some, hlast]

/-- The lines of the patch in a text: those inside a heredoc if the text opens one. -/
def patchLines (s : Text) : List Text :=
  let ls := lines (trim s)
  if ls.head?.any (heredocMarkers.contains ·) then ls.tail.dropLast else ls

lemma not_heredoc_of_marked (h : Marked ls) :
    ls.head?.any (heredocMarkers.contains ·) = false := by
  obtain ⟨first, mid, last, rfl, hbegin, -⟩ := h.exists_eq
  rw [List.head?_cons, Option.any_some]
  by_contra hmem
  rw [Bool.not_eq_false, List.contains_iff_mem] at hmem
  have hall : ∀ marker ∈ heredocMarkers, trim marker ≠ beginPatchMarker := by decide
  exact hall first hmem hbegin

variable {s : Text}

lemma patchLines_of_marked (h : Marked (lines (trim s))) :
    patchLines s = lines (trim s) := by
  unfold patchLines
  simp only [not_heredoc_of_marked h, Bool.false_eq_true, if_false]

lemma checkPatchBoundariesLenient_eq_ok {bounds : List Text × List Text}
    (h : checkPatchBoundariesLenient (lines (trim s)) = .ok bounds) :
    Marked (patchLines s) ∧ bounds = (patchLines s, (patchLines s).tail.dropLast) := by
  unfold checkPatchBoundariesLenient at h
  cases hstrict : checkPatchBoundariesStrict (lines (trim s)) with
  | ok b =>
    rw [hstrict] at h
    obtain ⟨hm, hb⟩ := marked_of_checkPatchBoundariesStrict hstrict
    rw [patchLines_of_marked hm, ← Except.ok.inj h]
    exact ⟨hm, hb⟩
  | error e =>
    rw [hstrict] at h
    dsimp only at h
    split at h
    · rename_i hdoc
      have hhead : (lines (trim s)).head?.any (heredocMarkers.contains ·) = true := by
        unfold isHeredoc at hdoc
        simp only [Bool.and_eq_true] at hdoc
        exact hdoc.1.1
      have hlines : patchLines s = (lines (trim s)).tail.dropLast := by
        unfold patchLines
        simp only [hhead, if_true]
      rw [hlines]
      exact marked_of_checkPatchBoundariesStrict h
    · cases h

/-! ## What a successful parse returns -/

/-- The hunks between the markers of some lines. -/
def hunksOf (ls : List Text) : Except ParseError (List Hunk) :=
  parseHunks false ls.tail.dropLast.length ls.tail.dropLast 2 []

lemma parsePatch_of_boundaries
    (h : checkPatchBoundariesLenient (lines (trim s)) = .ok (ls, ls.tail.dropLast)) :
    parsePatch s = (hunksOf ls).map fun hunks => ⟨joinLines ls, hunks, none⟩ := by
  unfold parsePatch parsePatchText checkPatchBoundaries hunksOf
  simp only [h]
  rfl

lemma parsePatch_of_marked (h : Marked (lines (trim s))) :
    parsePatch s = (hunksOf (lines (trim s))).map
      fun hunks => ⟨joinLines (lines (trim s)), hunks, none⟩ := by
  apply parsePatch_of_boundaries
  unfold checkPatchBoundariesLenient
  rw [checkPatchBoundariesStrict_of_marked h]

variable {args : ApplyPatchArgs}

lemma parsePatch_eq_ok (h : parsePatch s = .ok args) :
    Marked (patchLines s) ∧ args.patch = joinLines (patchLines s) ∧
      hunksOf (patchLines s) = .ok args.hunks := by
  cases hb : checkPatchBoundariesLenient (lines (trim s)) with
  | error e =>
    unfold parsePatch parsePatchText checkPatchBoundaries at h
    simp only [hb] at h
    cases h
  | ok bounds =>
    obtain ⟨hm, rfl⟩ := checkPatchBoundariesLenient_eq_ok hb
    rw [parsePatch_of_boundaries hb] at h
    cases hh : hunksOf (patchLines s) with
    | error e =>
      rw [hh] at h
      cases h
    | ok hunks =>
      rw [hh] at h
      have := Except.ok.inj h
      rw [← this]
      exact ⟨hm, rfl, rfl⟩

/-! ## The second parse -/

lemma newline_not_mem_of_mem_patchLines {s l : Text} (h : l ∈ patchLines s) : '\n' ∉ l := by
  apply newline_not_mem_of_mem_lines (t := trim s)
  unfold patchLines at h
  dsimp only at h
  split at h
  · exact List.mem_of_mem_tail ((List.dropLast_sublist _).subset h)
  · exact h

lemma nonBlank_of_trim_eq {t marker : Text} (h : trim t = marker) (hne : marker ≠ []) :
    NonBlank t :=
  nonBlank_of_trim_ne_nil (h ▸ hne)

lemma marked_lines_trim_joinLines (h : Marked ls) (hnl : ∀ l ∈ ls, '\n' ∉ l) :
    Marked (lines (trim (joinLines ls))) := by
  obtain ⟨first, mid, last, rfl, hfirst, hlast⟩ := h.exists_eq
  rw [lines_trim_joinLines (nonBlank_of_trim_eq hfirst (by decide))
    (nonBlank_of_trim_eq hlast (by decide)) hnl]
  apply marked_of_eq
  · rw [trim_stripCr, trim_trimStart, hfirst]
  · rw [trim_trimEnd, hlast]

lemma lines_trim_joinLines_eq_iff_settled (h : Marked ls)
    (hnl : ∀ l ∈ ls, '\n' ∉ l) : lines (trim (joinLines ls)) = ls ↔ Settled ls := by
  obtain ⟨first, mid, last, rfl, hfirst, hlast⟩ := h.exists_eq
  exact lines_trim_joinLines_eq_iff (nonBlank_of_trim_eq hfirst (by decide))
    (nonBlank_of_trim_eq hlast (by decide)) hnl

/-- The patch lines of a text come back unchanged when the normalised text is parsed. -/
def Reparsable (s : Text) : Prop := Settled (patchLines s)

instance (s : Text) : Decidable (Reparsable s) := inferInstanceAs (Decidable (Settled _))

lemma parsePatch_patch_of_reparsable (h : parsePatch s = .ok args) (hs : Reparsable s) :
    parsePatch args.patch = .ok ⟨args.patch, args.hunks, none⟩ := by
  obtain ⟨hm, hpatch, hhunks⟩ := parsePatch_eq_ok h
  have hlines := (lines_trim_joinLines_eq_iff_settled hm
    (fun l hl => newline_not_mem_of_mem_patchLines hl)).mpr hs
  have hm' : Marked (lines (trim args.patch)) := by
    rw [hpatch, hlines]
    exact hm
  rw [parsePatch_of_marked hm', hpatch, hlines, hhunks]
  rfl

/-- The normalised text of a parsed patch is parsed to the same hunks and to itself exactly if
the patch lines of the text are settled. -/
theorem parsePatch_patch_iff (s : Text) (args : ApplyPatchArgs) (h : parsePatch s = .ok args) :
    (∃ args', parsePatch args.patch = .ok args' ∧ args'.hunks = args.hunks ∧
      args'.patch = args.patch) ↔ Reparsable s := by
  constructor
  · intro ⟨args', hparse, _, hsame⟩
    obtain ⟨hm, hpatch, -⟩ := parsePatch_eq_ok h
    have hnl : ∀ l ∈ patchLines s, '\n' ∉ l := fun l hl => newline_not_mem_of_mem_patchLines hl
    have hm' := marked_lines_trim_joinLines hm hnl
    -- the second parse returns the lines it has read, so they are the first ones
    obtain ⟨-, hpatch', -⟩ := parsePatch_eq_ok hparse
    rw [hsame, hpatch, patchLines_of_marked hm'] at hpatch'
    obtain ⟨first, mid, last, hls, -, -⟩ := hm.exists_eq
    obtain ⟨first', mid', last', hls', -, -⟩ := hm'.exists_eq
    have hlines : patchLines s = lines (trim (joinLines (patchLines s))) :=
      joinLines_injective hnl (by simp [hls]) (fun l hl => newline_not_mem_of_mem_lines hl)
        (by rw [hls']; simp) hpatch'
    exact (lines_trim_joinLines_eq_iff_settled hm hnl).mp hlines.symm
  · intro hs
    exact ⟨_, parsePatch_patch_of_reparsable h hs, rfl, rfl⟩

/-- No line between the markers ends in a carriage return. -/
def BodySettled (s : Text) : Prop :=
  ∀ l ∈ (patchLines s).tail.dropLast, l.getLast? ≠ some '\r'

instance (s : Text) : Decidable (BodySettled s) := inferInstanceAs (Decidable (∀ l ∈ _, _))

lemma parsePatch_patch_of_bodySettled (h : parsePatch s = .ok args) (hs : BodySettled s) :
    ∃ args', parsePatch args.patch = .ok args' ∧ args'.hunks = args.hunks := by
  obtain ⟨hm, hpatch, hhunks⟩ := parsePatch_eq_ok h
  have hnl : ∀ l ∈ patchLines s, '\n' ∉ l := fun l hl => newline_not_mem_of_mem_patchLines hl
  have hm' := marked_lines_trim_joinLines hm hnl
  unfold BodySettled at hs
  obtain ⟨first, mid, last, hls, hfirst, hlast⟩ := hm.exists_eq
  rw [hls] at hm' hpatch hhunks hnl hs
  have hbody : ∀ f l : Text, (f :: (mid ++ [l])).tail.dropLast = mid :=
    fun _ _ => List.dropLast_concat
  rw [hbody] at hs
  have hlines := lines_trim_joinLines (nonBlank_of_trim_eq hfirst (by decide))
    (nonBlank_of_trim_eq hlast (by decide)) hnl
  rw [(map_stripCr_eq_self_iff mid).mpr hs] at hlines
  have hsame : hunksOf (lines (trim (joinLines (first :: (mid ++ [last]))))) = .ok args.hunks := by
    rw [hlines]
    unfold hunksOf at hhunks ⊢
    rw [hbody] at hhunks ⊢
    exact hhunks
  refine ⟨⟨joinLines (lines (trim args.patch)), args.hunks, none⟩, ?_, rfl⟩
  rw [hpatch, parsePatch_of_marked hm', hsame]
  rfl

/-- A one-line file inside a heredoc: the second parse returns the same hunks. -/
theorem parsePatch_patch_heredoc :
    let s := "<<'EOF'\n*** Begin Patch\n*** Add File: f\n+x\n*** End Patch\nEOF\n".toList
    let args : ApplyPatchArgs := ⟨"*** Begin Patch\n*** Add File: f\n+x\n*** End Patch".toList,
      [.addFile "f".toList "x\n".toList], none⟩
    parsePatch s = .ok args ∧ ∃ args', parsePatch args.patch = .ok args' ∧
      args'.hunks = args.hunks ∧ args'.patch = args.patch := by
  intro s args
  have h : parsePatch s = .ok args := by decide
  exact ⟨h, (parsePatch_patch_iff s args h).mpr (by decide)⟩

/-- A line that ends in two carriage returns loses one in each parse, and the file that is
written is not the one that was verified. -/
theorem parsePatch_patch_drops_carriage_return :
    let s := "*** Begin Patch\n*** Add File: f\n+x\r\r\n*** End Patch".toList
    let args : ApplyPatchArgs :=
      ⟨"*** Begin Patch\n*** Add File: f\n+x\r\n*** End Patch".toList,
        [.addFile "f".toList "x\r\n".toList], none⟩
    parsePatch s = .ok args ∧
      (parsePatch args.patch).map (·.hunks) = .ok [.addFile "f".toList "x\n".toList] ∧
      ¬ ∃ args', parsePatch args.patch = .ok args' ∧ args'.hunks = args.hunks ∧
        args'.patch = args.patch := by
  intro s args
  have hsecond : (parsePatch args.patch).map (·.hunks) =
      .ok [.addFile "f".toList "x\n".toList] := by decide
  refine ⟨by decide, hsecond, ?_⟩
  intro ⟨args', hparse, hhunks, _⟩
  rw [hparse] at hsecond
  have hne : args.hunks ≠ [.addFile "f".toList "x\n".toList] := by decide
  exact hne (hhunks ▸ Except.ok.inj hsecond)

end Supercodex.ApplyPatch
