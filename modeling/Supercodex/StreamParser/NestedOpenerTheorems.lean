import Mathlib.Data.Set.Finite.Lemmas
import Mathlib.Data.Set.Finite.List
import Supercodex.StreamParser.InlineTagsTheorems

/-!
# When the cut of a text matters

A whole stream gives the same output however it was cut if and only if no opener is found in another one before
that one ends. Where one is, a chunk that ends with the inner opener commits the parser to it.
-/

namespace Supercodex.StreamParser.InlineHiddenTagParser

open Search StreamTextChunk

variable {T : Type} {specs : List (InlineTagSpec T)} {parser : InlineHiddenTagParser T}

/-- All output of a stream: of its chunks, and of its end. -/
def stream (parser : InlineHiddenTagParser T) : List Text → StreamTextChunk (ExtractedInlineTag T)
  | [] => parser.finish.2
  | chunk :: chunks => (parser.pushStr chunk).2.append ((parser.pushStr chunk).1.stream chunks)

/-! ## No opener in another one -/

lemma stream_cons_cons (hspecs : Unnested specs) (h : Parsing specs parser) (c d : Text) (chunks : List Text) :
    parser.stream (c :: d :: chunks) = parser.stream ((c ++ d) :: chunks) := by
  have hjoin := h.pushStr_append hspecs c d
  rw [stream, stream, stream, hjoin, append_assoc]

lemma stream_flatten (hspecs : Unnested specs) (h : Parsing specs parser) (c : Text) (chunks : List Text) :
    parser.stream (c :: chunks) = parser.stream [c ++ chunks.flatten] := by
  induction chunks generalizing c with
  | nil => rw [List.flatten_nil, List.append_nil]
  | cons d chunks ih => rw [stream_cons_cons hspecs h, ih, List.flatten_cons, List.append_assoc]

/-! ## All output of a text -/

/-- What a parser returns of a text and the end of the stream. -/
def flush (specs : List (InlineTagSpec T)) (active : Option (ActiveTag T)) (t : Text) :
    StreamTextChunk (ExtractedInlineTag T) :=
  (scan specs t active).2.2.append (finish ⟨specs, (scan specs t active).1, (scan specs t active).2.1⟩).2

lemma flush_prepend {active active' : Option (ActiveTag T)} {t t' : Text}
    {out : StreamTextChunk (ExtractedInlineTag T)} (h : scan specs t active = prepend out (scan specs t' active')) :
    flush specs active t = out.append (flush specs active' t') := by
  unfold flush
  rw [h, ← append_assoc]
  rfl

variable {t : Text} {i : ℕ} {s : InlineTagSpec T}

lemma flush_opened (h : findNextOpen specs t = some (i, s)) :
    flush specs none t =
      append ⟨t.take i, []⟩
        (flush specs (some ⟨s.tag, s.closeTag, []⟩) (t.drop (i + s.openTag.length))) :=
  flush_prepend (scan_opened h)

lemma flush_outside (h : findNextOpen specs t = none) : flush specs none t = ⟨t, []⟩ := by
  unfold flush
  rw [scan_outside h]
  show StreamTextChunk.mk (t.take _ ++ t.drop _) _ = _
  rw [List.take_append_drop]
  rfl

lemma flush_closed (active : ActiveTag T) (hne : active.closeTag ≠ []) (h : find active.closeTag t = some i) :
    flush specs (some active) t =
      append ⟨[], [⟨active.tag, active.content ++ t.take i⟩]⟩
        (flush specs none (t.drop (i + active.closeTag.length))) :=
  flush_prepend (scan_closed active hne h)

lemma flush_inside (active : ActiveTag T) (h : find active.closeTag t = none) :
    flush specs (some active) t = ⟨[], [⟨active.tag, active.content ++ t⟩]⟩ := by
  unfold flush
  rw [scan_inside active h]
  show StreamTextChunk.mk [] [ExtractedInlineTag.mk _ (active.content ++ t.take _ ++ t.drop _)] = _
  rw [List.append_assoc, List.take_append_drop]

lemma stream_cons (h : Parsing specs parser) (t : Text) :
    parser.stream [t] = flush specs parser.active (parser.pending ++ t) := by
  rw [stream, stream, pushStr_eq_scan h]
  rfl

lemma extracted_flush_active (specs : List (InlineTagSpec T)) (active : ActiveTag T) (hne : active.closeTag ≠ [])
    (t : Text) : (flush specs (some active) t).extracted ≠ [] := by
  cases h : find active.closeTag t with
  | none =>
    rw [flush_inside active h]
    exact List.cons_ne_nil _ _
  | some i =>
    rw [flush_closed active hne h]
    exact List.cons_ne_nil _ _

lemma eq_nil_of_flush (h : flush specs none t = .empty) : t = [] := by
  cases hfound : findNextOpen specs t with
  | none =>
    rw [flush_outside hfound] at h
    exact congrArg visibleText h
  | some found =>
    rw [flush_opened hfound] at h
    exact absurd (congrArg extracted h)
      (extracted_flush_active specs _ found.2.closeTag_ne_nil _)

lemma flush_nil (specs : List (InlineTagSpec T)) : flush specs none ([] : Text) = .empty := by
  refine flush_outside (findNextOpen_eq_none_iff.mpr fun s _ => ?_)
  exact if_neg s.openTag_ne_nil

/-! ## An opener in another one -/

/-- An opener in which another one is found before it ends. -/
def Nested (specs : List (InlineTagSpec T)) (s : InlineTagSpec T) : Prop :=
  ∃ s₁ ∈ specs, s₁.openTag <:+: s.openTag.dropLast

/-- The opener to look at: the longest in which another one is found, of the first kind that has it. -/
structure LongestNested (specs : List (InlineTagSpec T)) (s : InlineTagSpec T) : Prop where
  first : specs.find? (fun s' => s'.openTag = s.openTag) = some s
  nested : Nested specs s
  longest : ∀ s' ∈ specs, Nested specs s' → s'.openTag.length ≤ s.openTag.length

lemma exists_longestNested (h : ¬ Unnested specs) : ∃ s, LongestNested specs s := by
  have hsome : ∃ s ∈ specs, Nested specs s := by
    unfold Unnested at h
    push Not at h
    obtain ⟨s₁, hs₁, s₂, hs₂, hinside⟩ := h
    exact ⟨s₂, hs₂, s₁, hs₁, hinside⟩
  obtain ⟨s, ⟨hs, hnested⟩, hlongest⟩ := Set.exists_max_image {s | s ∈ specs ∧ Nested specs s}
    (fun s => s.openTag.length) (specs.finite_toSet.subset fun s h => h.1) hsome
  cases hfirst : specs.find? (fun s' => s'.openTag = s.openTag) with
  | none => exact absurd (decide_eq_true rfl) (List.find?_eq_none.mp hfirst s hs)
  | some s₂ =>
    have hdecide := List.find?_some hfirst
    have hopen : s₂.openTag = s.openTag := of_decide_eq_true hdecide
    refine ⟨s₂, ?_, ?_, ?_⟩
    · rw [hopen, hfirst]
    · unfold Nested
      rw [hopen]
      exact hnested
    · intro s' hs' hs'nested
      rw [hopen]
      exact hlongest s' ⟨hs', hs'nested⟩

lemma LongestNested.firstOpen (h : LongestNested specs s) (w : Text) : FirstOpen specs (s.openTag ++ w) 0 s where
  starts := List.prefix_append _ w
  earliest _ _ j hj := absurd hj (Nat.not_lt_zero j)
  longest s' hs' hstarts := by
    by_contra hlong
    have hwithin : s.openTag <+: s'.openTag :=
      List.prefix_of_prefix_length_le (List.prefix_append _ w) hstarts (by omega)
    -- a longer opener that goes on this one holds the same inner one
    obtain ⟨s₁, hs₁, hinside⟩ := h.nested
    have hbefore : s.openTag <+: s'.openTag.dropLast := by
      rw [List.dropLast_eq_take]
      exact List.prefix_take_iff.mpr ⟨hwithin, by omega⟩
    have hnested : Nested specs s' :=
      ⟨s₁, hs₁, hinside.trans ((List.dropLast_prefix _).trans hbefore).isInfix⟩
    exact hlong (h.longest s' hs' hnested)
  first := h.first

lemma LongestNested.stream_whole (h : LongestNested specs s) (w : Text) :
    (new specs).stream [s.openTag ++ w] = flush specs (some ⟨s.tag, s.closeTag, []⟩) w := by
  rw [stream_cons (parsing_new specs)]
  show flush specs none (s.openTag ++ w) = _
  rw [flush_opened (findNextOpen_eq_some_iff.mpr (h.firstOpen w)), Nat.zero_add, List.drop_left]
  rfl

lemma FirstOpen.front {p : ℕ} (h : FirstOpen specs t p s) : FirstOpen specs (t.take (p + s.openTag.length)) p s := by
  have hpart (j : ℕ) : (t.take (p + s.openTag.length)).drop j <+: t.drop j := by
    rw [List.drop_take]
    exact List.take_prefix _ _
  refine ⟨?_, fun s' hs' j hj hstarts => h.earliest s' hs' j hj (hstarts.trans (hpart j)),
    fun s' hs' hstarts => h.longest s' hs' (hstarts.trans (hpart p)), h.first⟩
  rw [List.drop_take, Nat.add_sub_cancel_left]
  exact List.prefix_take_iff.mpr ⟨h.starts, le_rfl⟩

lemma LongestNested.exists_front (h : LongestNested specs s) :
    ∃ p s₁ front rest, s.openTag = front ++ rest ∧ rest ≠ [] ∧ FirstOpen specs front p s₁ ∧
      front.drop (p + s₁.openTag.length) = [] := by
  obtain ⟨s₁, hs₁, before, after, hinside⟩ := h.nested
  have hfound : findNextOpen specs s.openTag.dropLast ≠ none := by
    intro hnone
    apply not_starts_of_find (findNextOpen_eq_none_iff.mp hnone s₁ hs₁) before.length s₁.openTag_ne_nil
    rw [← hinside, List.append_assoc, List.drop_left]
    exact List.prefix_append _ _
  obtain ⟨⟨p, s₀⟩, hfound⟩ := Option.ne_none_iff_exists'.mp hfound
  have hopen := findNextOpen_eq_some_iff.mp hfound
  have hlen := hopen.length_le
  have hpos := List.length_pos_iff.mpr s.openTag_ne_nil
  rw [List.length_dropLast] at hlen
  refine ⟨p, s₀, s.openTag.dropLast.take (p + s₀.openTag.length), s.openTag.drop (p + s₀.openTag.length), ?_, ?_,
    hopen.front, ?_⟩
  · rw [List.dropLast_eq_take, List.take_take, Nat.min_eq_left hlen, List.take_append_drop]
  · apply List.ne_nil_of_length_pos
    rw [List.length_drop]
    omega
  · rw [List.drop_eq_nil_iff, List.length_take]
    omega

lemma stream_opened {front : Text} {p : ℕ} (h : FirstOpen specs front p s)
    (hend : front.drop (p + s.openTag.length) = []) (d : Text) :
    stream (new specs) [front, d] =
      append ⟨front.take p, []⟩ (flush specs (some ⟨s.tag, s.closeTag, []⟩) d) := by
  have hnone : find s.closeTag [] = none := if_neg s.closeTag_ne_nil
  have hscan : scan specs front none =
      ([], some ⟨s.tag, s.closeTag, []⟩, ⟨front.take p, []⟩) := by
    rw [scan_opened (findNextOpen_eq_some_iff.mpr h), hend, scan_inside ⟨s.tag, s.closeTag, []⟩ hnone]
    simp [prepend]
  rw [stream, stream_cons ((parsing_new specs).pushStr front), pushStr_eq_scan (parsing_new specs)]
  show append (scan specs front none).2.2
    (flush specs (scan specs front none).2.1 ((scan specs front none).1 ++ d)) = _
  rw [hscan]
  rfl

lemma flush_active_nil (s : InlineTagSpec T) :
    flush specs (some ⟨s.tag, s.closeTag, []⟩) [] = ⟨[], [⟨s.tag, []⟩]⟩ :=
  flush_inside ⟨s.tag, s.closeTag, []⟩ (if_neg s.closeTag_ne_nil)

lemma flush_active_closeTag (s : InlineTagSpec T) :
    flush specs (some ⟨s.tag, s.closeTag, []⟩) s.closeTag = ⟨[], [⟨s.tag, []⟩]⟩ := by
  rw [flush_closed ⟨s.tag, s.closeTag, []⟩ s.closeTag_ne_nil (find_of_starts (List.prefix_refl _))]
  rw [Nat.zero_add, List.drop_length, flush_nil, append_empty]
  rfl

lemma eq_empty_of_append {E : Type} {visible : Text} {a b : E} {rest : StreamTextChunk E}
    (h : append ⟨visible, []⟩ (append ⟨[], [a]⟩ rest) = ⟨[], [b]⟩) :
    rest = .empty := by
  have hvisible : visible ++ rest.visibleText = [] := congrArg visibleText h
  have hextracted : a :: rest.extracted = [b] := congrArg extracted h
  show rest = ⟨[], []⟩
  rw [← (List.append_eq_nil_iff.mp hvisible).2, ← (List.cons_eq_cons.mp hextracted).2]

lemma outputs_differ {visible rest : Text} {s₁ : InlineTagSpec T} (hrest : rest ≠ [])
    (hend : append ⟨visible, []⟩ (flush specs (some ⟨s₁.tag, s₁.closeTag, []⟩) rest) =
      ⟨[], [⟨s.tag, []⟩]⟩)
    (hclose : append ⟨visible, []⟩
      (flush specs (some ⟨s₁.tag, s₁.closeTag, []⟩) (rest ++ s.closeTag)) = ⟨[], [⟨s.tag, []⟩]⟩) : False := by
  cases hfind : find s₁.closeTag rest with
  | none =>
    -- the rest is the content of the inner tag
    rw [flush_inside ⟨s₁.tag, s₁.closeTag, []⟩ hfind] at hend
    have hextracted := congrArg extracted hend
    have hcontent := congrArg ExtractedInlineTag.content (List.singleton_inj.mp hextracted)
    exact hrest hcontent
  | some i =>
    -- the inner tag is closed in the rest, and the delimiter behind the rest is output
    have hlen := length_of_find hfind
    rw [flush_closed ⟨s₁.tag, s₁.closeTag, []⟩ s₁.closeTag_ne_nil (find_append hfind s.closeTag),
      List.drop_append_of_le_length hlen] at hclose
    have hnil := eq_nil_of_flush (eq_empty_of_append hclose)
    exact s.closeTag_ne_nil (List.append_eq_nil_iff.mp hnil).2

/-- A stream gives the same output however its text is cut exactly when no opener is found in another one before
that one ends. -/
theorem chunking_independent_iff (specs : List (InlineTagSpec T)) :
    (∀ chunks, (new specs).stream chunks = (new specs).stream [chunks.flatten]) ↔ Unnested specs := by
  constructor
  · intro hsame
    by_contra hnested
    obtain ⟨s, hs⟩ := exists_longestNested hnested
    obtain ⟨p, s₁, front, rest, hopen, hrest, hfront, hend⟩ := hs.exists_front
    have hcut (w : Text) :
        append ⟨front.take p, []⟩ (flush specs (some ⟨s₁.tag, s₁.closeTag, []⟩) (rest ++ w)) =
          flush specs (some ⟨s.tag, s.closeTag, []⟩) w := by
      rw [← stream_opened hfront hend, hsame, ← hs.stream_whole, hopen, List.append_assoc]
      simp
    have hclose := hcut s.closeTag
    have hnil := hcut []
    rw [flush_active_closeTag] at hclose
    rw [flush_active_nil, List.append_nil] at hnil
    exact outputs_differ hrest hnil hclose
  · intro hspecs chunks
    cases chunks with
    | nil =>
      rw [stream_cons (parsing_new specs)]
      exact (flush_nil specs).symm
    | cons c chunks =>
      rw [List.flatten_cons]
      exact stream_flatten hspecs (parsing_new specs) c chunks

/-- Two kinds of tags, where the opener of one starts the opener of the other. -/
def nestedSpecs : List (InlineTagSpec ℕ) :=
  [⟨0, "<a".toList, "</a>".toList, by decide, by decide⟩,
    ⟨1, "<ab".toList, "</ab>".toList, by decide, by decide⟩]

/-- A chunk that ends after the shorter opener is taken for it. -/
theorem shorter_opener_committed :
    (new nestedSpecs).stream ["<a".toList, "b".toList] ≠
      (new nestedSpecs).stream [["<a".toList, "b".toList].flatten] := by
  decide

end Supercodex.StreamParser.InlineHiddenTagParser
