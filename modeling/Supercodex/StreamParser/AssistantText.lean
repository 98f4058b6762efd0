import Supercodex.StreamParser.InlineHiddenTag
import Supercodex.StreamParser.TaggedLine

/-!
# Streamed assistant text (`utils/stream-parser/src/assistant_text.rs`, `proposed_plan.rs`)

Citations are taken out of the text first. In plan mode what is left goes through the parser of
`<proposed_plan>` blocks.
-/

namespace Supercodex.StreamParser

/-- `PlanTag`. -/
inductive PlanTag where
  | proposedPlan
deriving DecidableEq

/-- `ProposedPlanSegment`. -/
inductive ProposedPlanSegment where
  | normal (text : Text)
  | proposedPlanStart
  | proposedPlanDelta (text : Text)
  | proposedPlanEnd
deriving DecidableEq

/-- The delimiters `OPEN_TAG` and `CLOSE_TAG` of a plan. -/
def planSpec : TagSpec PlanTag :=
  ⟨"<proposed_plan>".toList, "</proposed_plan>".toList, .proposedPlan⟩

/-- `ProposedPlanParser::new`. -/
def newProposedPlanParser : TaggedLineParser PlanTag := .new [planSpec]

/-- The segment of a plan that `map_segments` makes of a segment of the line parser. -/
def mapSegment : TaggedLineSegment PlanTag → ProposedPlanSegment
  | .normal text => .normal text
  | .tagStart .proposedPlan => .proposedPlanStart
  | .tagDelta .proposedPlan text => .proposedPlanDelta text
  | .tagEnd .proposedPlan => .proposedPlanEnd

/-- The text that a segment adds to the visible text. -/
def ProposedPlanSegment.visible : ProposedPlanSegment → Text
  | .normal text => text
  | _ => []

/-- `map_segments`. -/
def mapSegments (segments : List (TaggedLineSegment PlanTag)) :
    StreamTextChunk ProposedPlanSegment :=
  ⟨(segments.map mapSegment).flatMap (·.visible), segments.map mapSegment⟩

/-- `AssistantTextChunk`. -/
structure AssistantTextChunk where
  visibleText : Text
  citations : List Text
  planSegments : List ProposedPlanSegment
deriving DecidableEq

/-- One chunk after another. -/
def AssistantTextChunk.append (a b : AssistantTextChunk) : AssistantTextChunk :=
  ⟨a.visibleText ++ b.visibleText, a.citations ++ b.citations, a.planSegments ++ b.planSegments⟩

/-- `AssistantTextStreamParser`. -/
structure AssistantTextStreamParser where
  planMode : Bool
  citations : InlineHiddenTagParser CitationTag
  plan : TaggedLineParser PlanTag

namespace AssistantTextStreamParser

/-- `AssistantTextStreamParser::new`. -/
def new (planMode : Bool) : AssistantTextStreamParser :=
  ⟨planMode, newCitationStreamParser, newProposedPlanParser⟩

/-- `parse_visible_text`. -/
def parseVisibleText (parser : AssistantTextStreamParser) (visibleText : Text) :
    AssistantTextStreamParser × AssistantTextChunk :=
  if parser.planMode then
    let (plan, segments) := parser.plan.parse visibleText
    let planChunk := mapSegments segments
    ({ parser with plan }, ⟨planChunk.visibleText, [], planChunk.extracted⟩)
  else (parser, ⟨visibleText, [], []⟩)

/-- `push_str`. -/
def pushStr (parser : AssistantTextStreamParser) (chunk : Text) :
    AssistantTextStreamParser × AssistantTextChunk :=
  let (citations, inner) := parser.citations.pushStr chunk
  let citationChunk := citationChunk inner
  let (parser, out) :=
    { parser with citations }.parseVisibleText citationChunk.visibleText
  (parser, { out with citations := citationChunk.extracted })

/-- `finish`. -/
def finish (parser : AssistantTextStreamParser) :
    AssistantTextStreamParser × AssistantTextChunk :=
  let (citations, inner) := parser.citations.finish
  let citationChunk := citationChunk inner
  let (parser, out) :=
    { parser with citations }.parseVisibleText citationChunk.visibleText
  if parser.planMode then
    let (plan, segments) := parser.plan.finish
    let tail := mapSegments segments
    ({ parser with plan },
      ⟨out.visibleText ++ tail.visibleText, citationChunk.extracted,
        out.planSegments ++ tail.extracted⟩)
  else (parser, { out with citations := citationChunk.extracted })

/-- What comes out when chunks are pushed one after another and the parser is finished. -/
def stream (parser : AssistantTextStreamParser) : List Text → AssistantTextChunk
  | [] => parser.finish.2
  | chunk :: chunks =>
    let (parser, out) := parser.pushStr chunk
    out.append (parser.stream chunks)

end AssistantTextStreamParser

/-! ## Coalescing -/

/-- Adjacent text of one kind is one segment. -/
def ProposedPlanSegment.join : ProposedPlanSegment → ProposedPlanSegment →
    Option ProposedPlanSegment
  | .normal a, .normal b => some (.normal (a ++ b))
  | .proposedPlanDelta a, .proposedPlanDelta b => some (.proposedPlanDelta (a ++ b))
  | _, _ => none

/-- The segments with adjacent text of one kind joined. -/
def coalescePlan (segments : List ProposedPlanSegment) : List ProposedPlanSegment :=
  Coalesce.coalesce ProposedPlanSegment.join segments

end Supercodex.StreamParser
