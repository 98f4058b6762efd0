import Supercodex.StreamParser.AssistantText
import Supercodex.StreamParser.InlineTagsTheorems

/-!
# Streamed assistant text does not depend on how it was cut

Both parsers carry their state across a cut. The plan segments of two chunks and of their concatenation
differ only in where adjacent text of one kind was split.
-/

namespace Supercodex.StreamParser

open Coalesce ProposedPlanSegment

/-- Two chunks that say the same, whatever follows. -/
structure AssistantTextChunk.Equivalent (a b : AssistantTextChunk) : Prop where
  visibleText : a.visibleText = b.visibleText
  citations : a.citations = b.citations
  planSegments : ∀ rest, joinAll ProposedPlanSegment.join a.planSegments rest =
    joinAll ProposedPlanSegment.join b.planSegments rest

namespace AssistantTextChunk

lemma Equivalent.refl (a : AssistantTextChunk) : a.Equivalent a := ⟨rfl, rfl, fun _ => rfl⟩

lemma Equivalent.trans {a b c : AssistantTextChunk} (hab : a.Equivalent b) (hbc : b.Equivalent c) :
    a.Equivalent c where
  visibleText := hab.visibleText.trans hbc.visibleText
  citations := hab.citations.trans hbc.citations
  planSegments rest := (hab.planSegments rest).trans (hbc.planSegments rest)

lemma Equivalent.append_right {a b : AssistantTextChunk} (h : a.Equivalent b)
    (c : AssistantTextChunk) : (a.append c).Equivalent (b.append c) where
  visibleText := by simp only [append, h.visibleText]
  citations := by simp only [append, h.citations]
  planSegments rest := by simp only [append, joinAll_append, h.planSegments]

lemma append_assoc (a b c : AssistantTextChunk) :
    (a.append b).append c = a.append (b.append c) := by
  simp only [append, List.append_assoc]

end AssistantTextChunk

/-! ## Plan segments -/

lemma mapSegment_surjective : Function.Surjective mapSegment := by
  intro segment
  cases segment with
  | normal text => exact ⟨.normal text, rfl⟩
  | proposedPlanStart => exact ⟨.tagStart .proposedPlan, rfl⟩
  | proposedPlanDelta text => exact ⟨.tagDelta .proposedPlan text, rfl⟩
  | proposedPlanEnd => exact ⟨.tagEnd .proposedPlan, rfl⟩

lemma join_mapSegment (a b : TaggedLineSegment PlanTag) :
    (mapSegment a).join (mapSegment b) = (a.join b).map mapSegment := by
  rcases a with a | ⟨⟨⟩⟩ | ⟨⟨⟩, a⟩ | ⟨⟨⟩⟩ <;> rcases b with b | ⟨⟨⟩⟩ | ⟨⟨⟩, b⟩ | ⟨⟨⟩⟩ <;> rfl

lemma visible_join (a b c : ProposedPlanSegment) (h : a.join b = some c) :
    c.visible = a.visible ++ b.visible := by
  cases a <;> cases b <;> cases h <;> rfl

lemma joinAll_mapSegments (plan : TaggedLineParser PlanTag) (c d : Text)
    (rest : List ProposedPlanSegment) :
    joinAll join (mapSegments (plan.parse (c ++ d)).2).extracted rest =
      joinAll join
        ((mapSegments (plan.parse c).2).extracted ++
          (mapSegments ((plan.parse c).1.parse d).2).extracted) rest := by
  obtain ⟨rest, rfl⟩ := List.map_surjective_iff.mpr mapSegment_surjective rest
  simp only [mapSegments, ← List.map_append]
  rw [joinAll_map join_mapSegment, joinAll_map join_mapSegment, joinAll_append]
  exact congrArg (List.map mapSegment) (plan.joinSegments_parse_append c d rest)

lemma visibleText_mapSegments (plan : TaggedLineParser PlanTag) (c d : Text) :
    (mapSegments (plan.parse (c ++ d)).2).visibleText =
      (mapSegments (plan.parse c).2).visibleText ++
        (mapSegments ((plan.parse c).1.parse d).2).visibleText := by
  have hjoin := congrArg (List.flatMap visible)
    (joinAll_mapSegments plan c d [])
  rw [flatMap_joinAll visible_join, flatMap_joinAll visible_join, List.flatMap_append] at hjoin
  simpa [mapSegments] using hjoin

namespace AssistantTextStreamParser

/-! ## Two chunks -/

/-- A parser in a state it can be in. -/
def Valid (parser : AssistantTextStreamParser) : Prop := parser.citations.OneTag citationSpec

lemma valid_new (planMode : Bool) : (new planMode).Valid :=
  InlineHiddenTagParser.oneTag_new citationSpec

section

variable (parser : AssistantTextStreamParser)

lemma parseVisibleText_append (c d : Text) :
    (parser.parseVisibleText (c ++ d)).1 = ((parser.parseVisibleText c).1.parseVisibleText d).1 ∧
      (parser.parseVisibleText (c ++ d)).2.Equivalent
        ((parser.parseVisibleText c).2.append
          ((parser.parseVisibleText c).1.parseVisibleText d).2) := by
  unfold parseVisibleText
  cases hmode : parser.planMode with
  | false =>
    simp only [hmode, Bool.false_eq_true, if_false]
    exact ⟨trivial, .refl _⟩
  | true =>
    simp only [if_true]
    refine ⟨?_, ?_, rfl, joinAll_mapSegments parser.plan c d⟩
    · rw [TaggedLineParser.parse_append_fst]
    · exact visibleText_mapSegments parser.plan c d

lemma parseVisibleText_with (citations : InlineHiddenTagParser CitationTag) (text : Text) :
    ({ parser with citations } : AssistantTextStreamParser).parseVisibleText text =
      ({ (parser.parseVisibleText text).1 with citations }, (parser.parseVisibleText text).2) := by
  obtain ⟨planMode, old, plan⟩ := parser
  cases planMode <;> rfl

lemma pushStr_eq (chunk : Text) :
    parser.pushStr chunk =
      ({ (parser.parseVisibleText (parser.citations.pushStr chunk).2.visibleText).1 with
          citations := (parser.citations.pushStr chunk).1 },
        { (parser.parseVisibleText (parser.citations.pushStr chunk).2.visibleText).2 with
          citations := (parser.citations.pushStr chunk).2.extracted.map (·.content) }) := by
  have hwith := parser.parseVisibleText_with (parser.citations.pushStr chunk).1
    (parser.citations.pushStr chunk).2.visibleText
  simp only [pushStr, citationChunk, hwith]

end

variable {parser : AssistantTextStreamParser}

lemma pushStr_append (h : parser.Valid) (c d : Text) :
    (parser.pushStr (c ++ d)).1 = ((parser.pushStr c).1.pushStr d).1 ∧
      (parser.pushStr (c ++ d)).2.Equivalent
        ((parser.pushStr c).2.append ((parser.pushStr c).1.pushStr d).2) := by
  have hcit := InlineHiddenTagParser.pushStr_append h c d
  obtain ⟨hstate, hout⟩ := parser.parseVisibleText_append
    (parser.citations.pushStr c).2.visibleText
    ((parser.citations.pushStr c).1.pushStr d).2.visibleText
  have hsecond : (parser.pushStr c).1.pushStr d =
      ({ ((parser.parseVisibleText (parser.citations.pushStr c).2.visibleText).1.parseVisibleText
            ((parser.citations.pushStr c).1.pushStr d).2.visibleText).1 with
          citations := ((parser.citations.pushStr c).1.pushStr d).1 },
        { ((parser.parseVisibleText (parser.citations.pushStr c).2.visibleText).1.parseVisibleText
            ((parser.citations.pushStr c).1.pushStr d).2.visibleText).2 with
          citations := ((parser.citations.pushStr c).1.pushStr d).2.extracted.map (·.content) }) := by
    simp only [pushStr_eq, parseVisibleText_with]
  rw [hsecond, pushStr_eq, pushStr_eq, hcit]
  refine ⟨?_, hout.visibleText, List.map_append, hout.planSegments⟩
  simp only [StreamTextChunk.append, hstate]

/-! ## All chunks -/

lemma stream_append (h : parser.Valid) (c d : Text) (chunks : List Text) :
    (parser.stream ((c ++ d) :: chunks)).Equivalent (parser.stream (c :: d :: chunks)) := by
  obtain ⟨hstate, hout⟩ := pushStr_append h c d
  show ((parser.pushStr (c ++ d)).2.append ((parser.pushStr (c ++ d)).1.stream chunks)).Equivalent
    ((parser.pushStr c).2.append (((parser.pushStr c).1.pushStr d).2.append
      (((parser.pushStr c).1.pushStr d).1.stream chunks)))
  rw [hstate, ← AssistantTextChunk.append_assoc]
  exact hout.append_right _

lemma stream_flatten (h : parser.Valid) (c : Text) (chunks : List Text) :
    (parser.stream [c ++ chunks.flatten]).Equivalent (parser.stream (c :: chunks)) := by
  induction chunks generalizing c with
  | nil =>
    rw [List.flatten_nil, List.append_nil]
    exact .refl _
  | cons d chunks ih =>
    have hwhole := ih (c ++ d)
    rw [List.append_assoc] at hwhole
    exact hwhole.trans (stream_append h c d chunks)

/-- Chunks pushed one after another give the visible text, the citations and, up to the joining of
adjacent text of one kind, the plan segments of their concatenation pushed at once. -/
theorem stream_chunking_independent (planMode : Bool) (chunks : List Text) :
    ((new planMode).stream chunks).visibleText =
        ((new planMode).stream [chunks.flatten]).visibleText ∧
      ((new planMode).stream chunks).citations =
        ((new planMode).stream [chunks.flatten]).citations ∧
      coalescePlan ((new planMode).stream chunks).planSegments =
        coalescePlan ((new planMode).stream [chunks.flatten]).planSegments := by
  have hsame : ((new planMode).stream [chunks.flatten]).Equivalent
      ((new planMode).stream chunks) := by
    cases chunks with
    | nil =>
      -- an empty push to a new parser does nothing
      cases planMode <;> exact .refl _
    | cons chunk chunks => exact stream_flatten (valid_new planMode) chunk chunks
  exact ⟨hsame.visibleText.symm, hsame.citations.symm, (hsame.planSegments []).symm⟩

-- a citation cut in its delimiters, in a plan that is cut in its closing tag
example : coalescePlan ((new true).stream
      ["<proposed_plan>\na<oai-mem".toList, "-citation>x</oai-mem-citation>b\n</prop".toList,
        "osed_plan>".toList]).planSegments =
    [.proposedPlanStart, .proposedPlanDelta "ab\n".toList, .proposedPlanEnd] := by
  decide +kernel

end AssistantTextStreamParser

end Supercodex.StreamParser
