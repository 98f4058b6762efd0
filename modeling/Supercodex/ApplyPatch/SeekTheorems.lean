import Mathlib.Order.Bounds.Basic
import Supercodex.ApplyPatch.Update

/-!
# Searching for lines

The passes of a search are levels of strictness. From a start on, the first index of the strictest level that
has a match is found. A search at the end of the file looks at one index only.
-/

namespace Supercodex.ApplyPatch

/-! ## Matches -/

/-- The lines from an index on are the lines of the pattern, as far as `view` shows. -/
def Matches (view : Text → Text) (lines pattern : List Text) (i : ℕ) : Prop :=
  ∀ k < pattern.length, ∃ line ∈ lines[i + k]?, ∃ wanted ∈ pattern[k]?, view line = view wanted

/-- The smallest index from `start` on at which the pattern matches, at the strictest level with a match
there, or none if no level has a match. -/
def FirstMatch (lines pattern : List Text) (start : ℕ) : Option ℕ → Prop
  | some i => ∃ stricter view laxer, seekPasses = stricter ++ view :: laxer ∧
      (∀ v ∈ stricter, ∀ j, start ≤ j → ¬Matches v lines pattern j) ∧
      IsLeast {j | start ≤ j ∧ Matches view lines pattern j} i
  | none => ∀ view ∈ seekPasses, ∀ j, start ≤ j → ¬Matches view lines pattern j

/-- The pattern matches the last lines at some level. -/
def MatchesEnd (lines pattern : List Text) : Prop :=
  ∃ view ∈ seekPasses, Matches view lines pattern (lines.length - pattern.length)

/-- What the documentation says of the result: an empty pattern is found at the start. With `eof`, a match of
the last lines comes first, and the search from the start is the fallback. -/
def Documented (lines pattern : List Text) (start : ℕ) (eof : Bool) (result : Option ℕ) : Prop :=
  if pattern = [] then result = some start
  else
    (eof = true ∧ start ≤ lines.length - pattern.length ∧ MatchesEnd lines pattern ∧
      result = some (lines.length - pattern.length)) ∨
    (¬(eof = true ∧ start ≤ lines.length - pattern.length ∧ MatchesEnd lines pattern) ∧
      FirstMatch lines pattern start result)

/-- If the search is one at the end of the file, then a match of the last lines is not before the start, and
without one there is no match from the start on. -/
def EndDecides (lines pattern : List Text) (start : ℕ) (eof : Bool) : Prop :=
  eof = true → pattern ≠ [] → pattern.length ≤ lines.length →
    (MatchesEnd lines pattern ∧ start ≤ lines.length - pattern.length) ∨
    (¬MatchesEnd lines pattern ∧ ∀ view ∈ seekPasses, ∀ j, start ≤ j → ¬Matches view lines pattern j)

section

variable {view : Text → Text} {lines pattern : List Text} {start i : ℕ} {eof : Bool}

lemma Matches.fits (h : Matches view lines pattern i) (hne : pattern ≠ []) :
    i + pattern.length ≤ lines.length := by
  have hpos := List.length_pos_iff.mpr hne
  obtain ⟨line, hline, -⟩ := h (pattern.length - 1) (by omega)
  have hlt := (List.getElem?_eq_some_iff.mp (Option.mem_def.mp hline)).1
  omega

lemma matchesAt_iff (hfits : i + pattern.length ≤ lines.length) :
    matchesAt view lines pattern i = true ↔ Matches view lines pattern i := by
  have hlength : ((lines.drop i).take pattern.length).length = pattern.length := by
    rw [List.length_take, List.length_drop]
    omega
  rw [matchesAt, decide_eq_true_iff]
  constructor
  · intro h k hk
    have hget := congrArg (·[k]?) h
    have hline : i + k < lines.length := by omega
    simp only [List.getElem?_map, List.getElem?_take_of_lt hk, List.getElem?_drop,
      List.getElem?_eq_getElem hk, List.getElem?_eq_getElem hline, Option.map_some, Option.some.injEq] at hget
    exact ⟨lines[i + k], List.getElem?_eq_getElem hline, pattern[k], List.getElem?_eq_getElem hk, hget⟩
  · intro h
    apply List.ext_getElem?
    intro k
    by_cases hk : k < pattern.length
    · obtain ⟨line, hline, wanted, hwanted, heq⟩ := h k hk
      rw [List.getElem?_map, List.getElem?_take_of_lt hk, List.getElem?_drop, hline, List.getElem?_map, hwanted,
        Option.map_some, Option.map_some, heq]
    · rw [List.getElem?_eq_none, List.getElem?_eq_none] <;> simp only [List.length_map] <;> omega

/-! ## A search from an index on -/

/-- The passes over the indices from `searchStart` on. -/
def seekFrom (lines pattern : List Text) (searchStart : ℕ) : Option ℕ :=
  seekPasses.findSome? fun view =>
    (List.range' searchStart (lines.length - pattern.length + 1 - searchStart)).find?
      (matchesAt view lines pattern)

section

variable (hne : pattern ≠ [])
include hne

section

variable (hfits : pattern.length ≤ lines.length)
include hfits

lemma seekSequence_eq :
    seekSequence lines pattern start eof =
      seekFrom lines pattern (if eof then lines.length - pattern.length else start) := by
  rw [seekSequence, if_neg hne, if_neg (by omega)]
  rfl

lemma pass_eq_none_iff :
    (List.range' start (lines.length - pattern.length + 1 - start)).find? (matchesAt view lines pattern) = none ↔
      ∀ j, start ≤ j → ¬Matches view lines pattern j := by
  rw [List.find?_range'_eq_none]
  constructor
  · intro h j hj hmatches
    have hlast := hmatches.fits hne
    have hnot := h j hj (by omega)
    rw [(matchesAt_iff hlast).mpr hmatches] at hnot
    cases hnot
  · intro h j hj hlast
    have hnot := h j hj
    rw [← matchesAt_iff (by omega), Bool.not_eq_true] at hnot
    rw [hnot]
    rfl

lemma pass_eq_some_iff :
    (List.range' start (lines.length - pattern.length + 1 - start)).find? (matchesAt view lines pattern) = some i ↔
      IsLeast {j | start ≤ j ∧ Matches view lines pattern j} i := by
  rw [List.find?_range'_eq_some, List.mem_range'_1]
  constructor
  · rintro ⟨hmatch, ⟨hstart, hlast⟩, hbefore⟩
    refine ⟨⟨hstart, (matchesAt_iff (by omega)).mp hmatch⟩, ?_⟩
    intro j ⟨hj, hmatches⟩
    by_contra hlt
    have hnot := hbefore j hj (by omega)
    rw [(matchesAt_iff (hmatches.fits hne)).mpr hmatches] at hnot
    cases hnot
  · rintro ⟨⟨hstart, hmatches⟩, hleast⟩
    have hlast := hmatches.fits hne
    refine ⟨(matchesAt_iff hlast).mpr hmatches, ⟨hstart, by omega⟩, ?_⟩
    intro j hj hlt
    have hnot : ¬Matches view lines pattern j := fun h => absurd (hleast ⟨hj, h⟩) (by omega)
    rw [← matchesAt_iff (by omega), Bool.not_eq_true] at hnot
    rw [hnot]
    rfl

lemma seekFrom_eq_iff (result : Option ℕ) :
    seekFrom lines pattern start = result ↔ FirstMatch lines pattern start result := by
  cases result with
  | none =>
    rw [seekFrom, List.findSome?_eq_none_iff]
    exact forall₂_congr fun view _ => pass_eq_none_iff hne hfits
  | some i =>
    rw [seekFrom, List.findSome?_eq_some_iff]
    refine exists_congr fun stricter => exists_congr fun view => exists_congr fun laxer => ?_
    rw [pass_eq_some_iff hne hfits]
    constructor
    · rintro ⟨hpasses, hfirst, hstricter⟩
      exact ⟨hpasses, fun v hv => (pass_eq_none_iff hne hfits).mp (hstricter v hv), hfirst⟩
    · rintro ⟨hpasses, hstricter, hfirst⟩
      exact ⟨hpasses, hfirst, fun v hv => (pass_eq_none_iff hne hfits).mpr (hstricter v hv)⟩

lemma seekFrom_end :
    (MatchesEnd lines pattern ∧ seekFrom lines pattern (lines.length - pattern.length) =
      some (lines.length - pattern.length)) ∨
    (¬MatchesEnd lines pattern ∧ seekFrom lines pattern (lines.length - pattern.length) = none) := by
  cases h : seekFrom lines pattern (lines.length - pattern.length) with
  | none =>
    have hnone : FirstMatch lines pattern (lines.length - pattern.length) none := (seekFrom_eq_iff hne hfits _).mp h
    refine .inr ⟨?_, rfl⟩
    rintro ⟨view, hview, hmatches⟩
    exact hnone view hview _ le_rfl hmatches
  | some i =>
    obtain ⟨stricter, view, laxer, hpasses, -, ⟨hi, hmatches⟩, -⟩ := (seekFrom_eq_iff hne hfits _).mp h
    have hview : view ∈ seekPasses := by
      rw [hpasses]
      exact List.mem_append_right _ List.mem_cons_self
    have hlast := hmatches.fits hne
    obtain rfl : i = lines.length - pattern.length := by omega
    exact .inl ⟨⟨view, hview, hmatches⟩, rfl⟩

end

end

end

/-- A search does what its documentation says exactly if, where it is one at the end of the file, the last
lines decide: the search does not fall back to the start. -/
theorem seekSequence_documented_iff (lines pattern : List Text) (start : ℕ) (eof : Bool) :
    Documented lines pattern start eof (seekSequence lines pattern start eof) ↔
      EndDecides lines pattern start eof := by
  rw [Documented, EndDecides]
  by_cases hne : pattern = []
  · rw [if_pos hne, seekSequence, if_pos hne]
    exact ⟨fun _ _ h => absurd hne h, fun _ => rfl⟩
  rw [if_neg hne]
  by_cases hfits : pattern.length ≤ lines.length
  · rw [seekSequence_eq hne hfits]
    cases eof with
    | false =>
      have hfirst : FirstMatch lines pattern start (seekFrom lines pattern start) :=
        (seekFrom_eq_iff hne hfits _).mp rfl
      exact ⟨fun _ h => (Bool.false_ne_true h).elim, fun _ => .inr ⟨fun h => Bool.false_ne_true h.1, hfirst⟩⟩
    | true =>
      rw [if_pos rfl]
      obtain ⟨hend, hresult⟩ | ⟨hend, hresult⟩ := seekFrom_end hne hfits
      · rw [hresult]
        constructor
        · rintro (⟨-, hstart, -⟩ | ⟨-, hfirst⟩) - - -
          · exact .inl ⟨hend, hstart⟩
          · obtain ⟨stricter, view, laxer, -, -, ⟨hstart, -⟩, -⟩ := hfirst
            exact .inl ⟨hend, hstart⟩
        · intro h
          obtain ⟨-, hstart⟩ := (h rfl hne hfits).resolve_right fun h => h.1 hend
          exact .inl ⟨rfl, hstart, hend, rfl⟩
      · rw [hresult]
        constructor
        · intro h _ _ _
          -- the code found nothing, so the fallback has nothing to find either
          exact .inr ⟨hend, (h.resolve_left fun h => hend h.2.2.1).2⟩
        · intro h
          exact .inr ⟨fun h => hend h.2.2, ((h rfl hne hfits).resolve_left fun h => hend h.1).2⟩
  · have hnone : ∀ view j, ¬Matches view lines pattern j := by
      intro view j hmatches
      have hlast := hmatches.fits hne
      omega
    have hresult : seekSequence lines pattern start eof = none := by
      rw [seekSequence, if_neg hne, if_pos (by omega)]
    rw [hresult]
    refine ⟨fun _ _ _ h => absurd h hfits, fun _ => .inr ⟨?_, fun view _ j _ => hnone view j⟩⟩
    rintro ⟨-, -, view, -, hmatches⟩
    exact hnone view _ hmatches

/-- A pattern that is not at the end of the file is not found by a search there, though it is in the file. -/
theorem eof_search_without_fallback :
    let lines := ["a".toList, "b".toList]
    let pattern := ["a".toList]
    seekSequence lines pattern 0 true = none ∧ seekSequence lines pattern 0 false = some 0 ∧
      ¬Documented lines pattern 0 true (seekSequence lines pattern 0 true) := by
  intro lines pattern
  have hfound : seekSequence lines pattern 0 false = some 0 := by decide
  have hnothing : seekSequence lines pattern 0 true = none := by decide
  refine ⟨hnothing, hfound, ?_⟩
  have hmatches : Matches id lines pattern 0 := (matchesAt_iff (by decide)).mp (by decide)
  have hview : id ∈ seekPasses := List.mem_cons_self
  rw [hnothing, Documented, if_neg (List.cons_ne_nil _ _)]
  rintro (⟨-, -, -, hresult⟩ | ⟨-, hnone⟩)
  · cases hresult
  · exact hnone id hview 0 le_rfl hmatches

end Supercodex.ApplyPatch
