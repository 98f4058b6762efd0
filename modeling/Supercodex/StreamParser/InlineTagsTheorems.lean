import Supercodex.StreamParser.OpenerTheorems

/-!
# Hidden tags of several kinds

The loop of `push_str` with its output left open. Where no opener is found in another one, pushing two chunks
is pushing their concatenation: what is held back is exactly what the text that follows needs.
-/

namespace Supercodex.StreamParser

open Search StreamTextChunk

variable {T : Type}

/-- One chunk after another. -/
def StreamTextChunk.append {E : Type} (a b : StreamTextChunk E) : StreamTextChunk E :=
  ⟨a.visibleText ++ b.visibleText, a.extracted ++ b.extracted⟩

@[simp] lemma StreamTextChunk.append_empty {E : Type} (a : StreamTextChunk E) :
    a.append .empty = a := by
  cases a
  simp [append, empty]

lemma StreamTextChunk.append_assoc {E : Type} (a b c : StreamTextChunk E) :
    (a.append b).append c = a.append (b.append c) := by
  simp [append]

namespace InlineHiddenTagParser

/-! ## The loop -/

/-- What the loop returned, behind what there was. -/
def prepend (out : StreamTextChunk (ExtractedInlineTag T))
    (result : Text × Option (ActiveTag T) × StreamTextChunk (ExtractedInlineTag T)) :
    Text × Option (ActiveTag T) × StreamTextChunk (ExtractedInlineTag T) :=
  (result.1, result.2.1, out.append result.2.2)

lemma prepend_prepend (a b : StreamTextChunk (ExtractedInlineTag T))
    (result : Text × Option (ActiveTag T) × StreamTextChunk (ExtractedInlineTag T)) :
    prepend a (prepend b result) = prepend (a.append b) result := by
  simp only [prepend, append_assoc]

/-- The loop with enough fuel, started with no output. -/
def scan (specs : List (InlineTagSpec T)) (pending : Text) (active : Option (ActiveTag T)) :
    Text × Option (ActiveTag T) × StreamTextChunk (ExtractedInlineTag T) :=
  pushLoop specs (pending.length + 1) pending active .empty

/-- The delimiter that closes an open tag is not empty. -/
def Closable (active : Option (ActiveTag T)) : Prop := ∀ tag ∈ active, tag.closeTag ≠ []

lemma closable_none : Closable (none : Option (ActiveTag T)) := by
  intro tag h
  cases h

lemma closable_open (spec : InlineTagSpec T) :
    Closable (some ⟨spec.tag, spec.closeTag, []⟩ : Option (ActiveTag T)) := by
  intro tag h
  cases h
  exact spec.closeTag_ne_nil

lemma length_drop_found {needle pending : Text} (hne : needle ≠ []) {i : ℕ}
    (h : i + needle.length ≤ pending.length) :
    (pending.drop (i + needle.length)).length < pending.length := by
  have hpos := List.length_pos_iff.mpr hne
  rw [List.length_drop]
  omega

variable {pending : Text}

lemma FirstOpen.length_le {specs : List (InlineTagSpec T)} {i : ℕ} {s : InlineTagSpec T}
    (h : FirstOpen specs pending i s) : i + s.openTag.length ≤ pending.length := by
  have hpos := List.length_pos_iff.mpr s.openTag_ne_nil
  have hlen := h.starts.length_le
  rw [List.length_drop] at hlen
  omega

lemma length_of_findNextOpen {specs : List (InlineTagSpec T)} {i : ℕ} {s : InlineTagSpec T}
    (h : findNextOpen specs pending = some (i, s)) : i + s.openTag.length ≤ pending.length :=
  (findNextOpen_eq_some_iff.mp h).length_le

variable {specs : List (InlineTagSpec T)}

lemma pushLoop_prepend (specs : List (InlineTagSpec T)) (fuel : ℕ) (pending : Text)
    (active : Option (ActiveTag T)) (out : StreamTextChunk (ExtractedInlineTag T)) :
    pushLoop specs fuel pending active out =
      prepend out (pushLoop specs fuel pending active .empty) := by
  induction fuel generalizing pending active out with
  | zero => simp [pushLoop, prepend]
  | succ fuel ih =>
    cases active with
    | some active =>
      rw [pushLoop, pushLoop]
      cases h : find active.closeTag pending with
      | none => simp [prepend]
      | some closeIdx =>
        simp only
        rw [ih, ih _ _ ⟨_, empty.extracted ++ _⟩, prepend_prepend]
        simp [append, empty]
    | none =>
      rw [pushLoop, pushLoop]
      cases h : findNextOpen specs pending with
      | none => simp [prepend, append, empty]
      | some found =>
        simp only
        rw [ih, ih _ _ ⟨empty.visibleText ++ _, _⟩, prepend_prepend]
        simp [append, empty]

variable {active : Option (ActiveTag T)}

lemma pushLoop_fuel {fuel fuel' : ℕ}
    (hfuel : pending.length < fuel) (hfuel' : pending.length < fuel')
    (hactive : Closable active)
    (out : StreamTextChunk (ExtractedInlineTag T)) :
    pushLoop specs fuel pending active out = pushLoop specs fuel' pending active out := by
  induction fuel generalizing fuel' pending active out with
  | zero => omega
  | succ fuel ih =>
    obtain ⟨fuel', rfl⟩ : ∃ n, fuel' = n + 1 := ⟨fuel' - 1, by omega⟩
    cases active with
    | some active =>
      rw [pushLoop, pushLoop]
      cases h : find active.closeTag pending with
      | none => rfl
      | some closeIdx =>
        have hless := length_drop_found (hactive active rfl) (length_of_find h)
        exact ih (by omega) (by omega) closable_none _
    | none =>
      rw [pushLoop, pushLoop]
      cases h : findNextOpen specs pending with
      | none => rfl
      | some found =>
        have hless := length_drop_found found.2.openTag_ne_nil (length_of_findNextOpen h)
        exact ih (by omega) (by omega) (closable_open found.2) _

/-! ## One round of the loop -/

variable {pending : Text} {i : ℕ} {s : InlineTagSpec T}

lemma scan_closed (active : ActiveTag T) (hne : active.closeTag ≠ []) (h : find active.closeTag pending = some i) :
    scan specs pending (some active) =
      prepend ⟨[], [⟨active.tag, active.content ++ pending.take i⟩]⟩
        (scan specs (pending.drop (i + active.closeTag.length)) none) := by
  have hless := length_drop_found hne (length_of_find h)
  unfold scan
  rw [pushLoop, h]
  simp only
  rw [pushLoop_prepend, pushLoop_fuel hless (Nat.lt_succ_self _) closable_none]
  rfl

lemma scan_inside (active : ActiveTag T) (h : find active.closeTag pending = none) :
    scan specs pending (some active) =
      (pending.drop (settledLength pending active.closeTag),
        some { active with
          content := active.content ++ pending.take (settledLength pending active.closeTag) },
        .empty) := by
  unfold scan
  rw [pushLoop, h]
  rfl

lemma scan_opened (h : findNextOpen specs pending = some (i, s)) :
    scan specs pending none =
      prepend ⟨pending.take i, []⟩
        (scan specs (pending.drop (i + s.openTag.length)) (some ⟨s.tag, s.closeTag, []⟩)) := by
  have hless := length_drop_found s.openTag_ne_nil (length_of_findNextOpen h)
  have hround : scan specs pending none =
      pushLoop specs pending.length (pending.drop (i + s.openTag.length))
        (some ⟨s.tag, s.closeTag, []⟩) ⟨pending.take i, []⟩ := by
    unfold scan
    rw [pushLoop, h]
    rfl
  rw [hround, pushLoop_prepend, pushLoop_fuel hless (Nat.lt_succ_self _) (closable_open s)]
  rfl

lemma scan_outside (h : findNextOpen specs pending = none) :
    scan specs pending none =
      (pending.drop (settledOpen specs pending), none, ⟨pending.take (settledOpen specs pending), []⟩) := by
  unfold scan
  rw [pushLoop, h]
  rfl

lemma scan_closable (specs : List (InlineTagSpec T)) (c : Text)
    (hactive : Closable active) : Closable (scan specs c active).2.1 := by
  induction hn : c.length using Nat.strong_induction_on generalizing c active with
  | _ n ih =>
    subst hn
    cases active with
    | some active =>
      have hne := hactive active rfl
      cases h : find active.closeTag c with
      | some i =>
        rw [scan_closed active hne h]
        exact ih _ (length_drop_found hne (length_of_find h)) _ closable_none rfl
      | none =>
        rw [scan_inside active h]
        intro tag htag
        cases htag
        exact hne
    | none =>
      cases h : findNextOpen specs c with
      | some found =>
        rw [scan_opened h]
        exact ih _ (length_drop_found found.2.openTag_ne_nil (length_of_findNextOpen h)) _ (closable_open _) rfl
      | none =>
        rw [scan_outside h]
        exact closable_none

/-! ## Two chunks -/

lemma settledLength_append (c d : Text) {needle : Text} (hne : needle ≠ []) :
    settledLength (c ++ d) needle =
      settledLength c needle +
        settledLength (c.drop (settledLength c needle) ++ d) needle := by
  have hle := longestSuffixStart_le_length (c.drop (settledLength c needle) ++ d) needle
  have hsettled := settledLength_le c needle
  have hkeep := longestSuffixStart_append c d hne
  generalize settledLength c needle = s at *
  have hlen : (c.drop s ++ d).length = c.length - s + d.length := by
    rw [List.length_append, List.length_drop]
  unfold settledLength
  rw [hkeep, List.length_append, hlen]
  omega

variable {c : Text}

lemma take_add_settled {s : ℕ} (hs : s ≤ c.length) (d : Text) (i : ℕ) :
    (c ++ d).take (s + i) = c.take s ++ (c.drop s ++ d).take i := by
  rw [List.take_add, List.take_append_of_le_length hs, List.drop_append_of_le_length hs]

lemma drop_add_settled {s : ℕ} (hs : s ≤ c.length) (d : Text) (i : ℕ) :
    (c ++ d).drop (s + i) = (c.drop s ++ d).drop i := by
  rw [← List.drop_drop, List.drop_append_of_le_length hs]

lemma scan_inside_append {active : ActiveTag T} (hne : active.closeTag ≠ [])
    (h : find active.closeTag c = none) (d : Text) :
    scan specs (c.drop (settledLength c active.closeTag) ++ d)
        (some { active with
          content := active.content ++ c.take (settledLength c active.closeTag) }) =
      scan specs (c ++ d) (some active) := by
  have hfind := find_append_settled hne h d
  have hsettled := settledLength_append c d hne
  have hle := settledLength_le c active.closeTag
  generalize settledLength c active.closeTag = s at *
  cases hrest : find active.closeTag (c.drop s ++ d) with
  | some i =>
    rw [hrest, Option.map_some, Nat.add_comm] at hfind
    rw [scan_closed ⟨active.tag, active.closeTag, active.content ++ c.take s⟩ hne hrest,
      scan_closed active hne hfind, take_add_settled hle, Nat.add_assoc,
      drop_add_settled hle, List.append_assoc]
  | none =>
    rw [hrest, Option.map_none] at hfind
    rw [scan_inside ⟨active.tag, active.closeTag, active.content ++ c.take s⟩ hrest,
      scan_inside active hfind, hsettled, take_add_settled hle, drop_add_settled hle,
      List.append_assoc]

lemma scan_outside_append (h : findNextOpen specs c = none) (d : Text) :
    prepend ⟨c.take (settledOpen specs c), []⟩ (scan specs (c.drop (settledOpen specs c) ++ d) none) =
      scan specs (c ++ d) none := by
  have hfind := findNextOpen_append h d
  have hsettled := settledOpen_append specs c d
  have hle := settledOpen_le_length specs c
  generalize settledOpen specs c = k at *
  cases hrest : findNextOpen specs (c.drop k ++ d) with
  | some found =>
    rw [hrest, Option.map_some, Nat.add_comm] at hfind
    rw [scan_opened hrest, scan_opened hfind, take_add_settled hle, Nat.add_assoc, drop_add_settled hle,
      prepend_prepend]
    rfl
  | none =>
    rw [hrest, Option.map_none] at hfind
    rw [scan_outside hrest, scan_outside hfind, hsettled, take_add_settled hle, drop_add_settled hle]
    rfl

/-- Pushing two chunks is pushing their concatenation. -/
lemma scan_append (hspecs : Unnested specs) (c d : Text) (hactive : Closable active) :
    prepend (scan specs c active).2.2 (scan specs ((scan specs c active).1 ++ d) (scan specs c active).2.1) =
      scan specs (c ++ d) active := by
  induction hn : c.length using Nat.strong_induction_on generalizing c active with
  | _ n ih =>
    subst hn
    cases active with
    | some active =>
      have hne := hactive active rfl
      cases h : find active.closeTag c with
      | some i =>
        have hlen := length_of_find h
        have hless := length_drop_found hne hlen
        rw [scan_closed active hne h, scan_closed active hne (find_append h d),
          List.take_append_of_le_length (by omega), List.drop_append_of_le_length hlen,
          ← ih _ hless _ closable_none rfl, prepend_prepend]
        rfl
      | none =>
        rw [scan_inside active h]
        exact scan_inside_append hne h d
    | none =>
      cases h : findNextOpen specs c with
      | some found =>
        have hlen := length_of_findNextOpen h
        have hless := length_drop_found found.2.openTag_ne_nil hlen
        have happend : findNextOpen specs (c ++ d) = some found :=
          findNextOpen_eq_some_iff.mpr ((findNextOpen_eq_some_iff.mp h).append hspecs d)
        rw [scan_opened h, scan_opened happend, List.take_append_of_le_length (by omega),
          List.drop_append_of_le_length hlen, ← ih _ hless _ (closable_open found.2) rfl, prepend_prepend]
        rfl
      | none =>
        rw [scan_outside h]
        exact scan_outside_append h d

/-! ## The parser -/

/-- A parser in a state it can be in. -/
structure Parsing (specs : List (InlineTagSpec T)) (parser : InlineHiddenTagParser T) : Prop where
  specs_eq : parser.specs = specs
  closable : Closable parser.active

lemma parsing_new (specs : List (InlineTagSpec T)) : Parsing specs (.new specs) := ⟨rfl, closable_none⟩

variable {parser : InlineHiddenTagParser T}

lemma pushStr_eq_scan (h : Parsing specs parser) (chunk : Text) :
    parser.pushStr chunk =
      (⟨specs, (scan specs (parser.pending ++ chunk) parser.active).1,
        (scan specs (parser.pending ++ chunk) parser.active).2.1⟩,
        (scan specs (parser.pending ++ chunk) parser.active).2.2) := by
  unfold pushStr scan
  rw [h.specs_eq]

lemma Parsing.pushStr (h : Parsing specs parser) (chunk : Text) : Parsing specs (parser.pushStr chunk).1 := by
  rw [pushStr_eq_scan h]
  exact ⟨rfl, scan_closable specs _ h.closable⟩

lemma Parsing.pushStr_append (h : Parsing specs parser) (hspecs : Unnested specs) (c d : Text) :
    parser.pushStr (c ++ d) =
      (((parser.pushStr c).1.pushStr d).1,
        (parser.pushStr c).2.append ((parser.pushStr c).1.pushStr d).2) := by
  have hsplit := scan_append hspecs (parser.pending ++ c) d h.closable
  rw [List.append_assoc] at hsplit
  rw [pushStr_eq_scan h, pushStr_eq_scan (h.pushStr c), pushStr_eq_scan h, ← hsplit]
  rfl

end InlineHiddenTagParser

end Supercodex.StreamParser

/-!
# Hidden tags do not depend on how the text was cut

For a parser of one tag, pushing two chunks is pushing their concatenation: an opener is not found in itself
before it ends.
-/

namespace Supercodex.StreamParser.InlineHiddenTagParser

variable {T : Type} {spec : InlineTagSpec T} {parser : InlineHiddenTagParser T}

lemma unnested_singleton (spec : InlineTagSpec T) : Unnested [spec] := by
  intro s₁ hs₁ s₂ hs₂ hinside
  rw [List.mem_singleton.mp hs₁, List.mem_singleton.mp hs₂] at hinside
  have hpos := List.length_pos_iff.mpr spec.openTag_ne_nil
  have hle := hinside.length_le
  rw [List.length_dropLast] at hle
  omega

/-- A parser of one tag, in a state it can be in. -/
structure OneTag (spec : InlineTagSpec T) (parser : InlineHiddenTagParser T) : Prop where
  specs : parser.specs = [spec]
  closable : Closable parser.active

lemma oneTag_new (spec : InlineTagSpec T) : OneTag spec (.new [spec]) := ⟨rfl, closable_none⟩

lemma OneTag.parsing (h : OneTag spec parser) : Parsing [spec] parser := ⟨h.specs, h.closable⟩

lemma pushStr_append (h : OneTag spec parser) (c d : Text) :
    parser.pushStr (c ++ d) =
      (((parser.pushStr c).1.pushStr d).1,
        (parser.pushStr c).2.append ((parser.pushStr c).1.pushStr d).2) :=
  h.parsing.pushStr_append (unnested_singleton spec) c d

end Supercodex.StreamParser.InlineHiddenTagParser
