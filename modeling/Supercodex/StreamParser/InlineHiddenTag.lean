import Supercodex.Library.Search
import Supercodex.Library.Text

/-!
# Inline hidden tags (`utils/stream-parser/src/inline_hidden_tag.rs`, `citation.rs`)

Tags such as `<oai-mem-citation>` are taken out of streamed text, and what they hold is extracted. Text
that may be the start of a delimiter is held back until it is decided. The loop of `push_str` carries
the length of the pending text as fuel, which is enough because every round takes a delimiter.
-/

namespace Supercodex.StreamParser

open Search

/-- `StreamTextChunk`. -/
structure StreamTextChunk (E : Type) where
  visibleText : Text
  extracted : List E
deriving DecidableEq

/-- `StreamTextChunk::default`. -/
def StreamTextChunk.empty {E : Type} : StreamTextChunk E := ⟨[], []⟩

/-- `ExtractedInlineTag`. -/
structure ExtractedInlineTag (T : Type) where
  tag : T
  content : Text
deriving DecidableEq

/-- `InlineTagSpec`, with what `InlineHiddenTagParser::new` asserts of it. -/
structure InlineTagSpec (T : Type) where
  tag : T
  openTag : Text
  closeTag : Text
  openTag_ne_nil : openTag ≠ []
  closeTag_ne_nil : closeTag ≠ []

/-- `ActiveTag`. -/
structure ActiveTag (T : Type) where
  tag : T
  closeTag : Text
  content : Text
deriving DecidableEq

/-- `InlineHiddenTagParser`. -/
structure InlineHiddenTagParser (T : Type) where
  specs : List (InlineTagSpec T)
  pending : Text
  active : Option (ActiveTag T)

namespace InlineHiddenTagParser

variable {T : Type}

/-- `InlineHiddenTagParser::new`. -/
def new (specs : List (InlineTagSpec T)) : InlineHiddenTagParser T := ⟨specs, [], none⟩

/-- The order of `find_next_open`: the first occurrence, and of those the longest delimiter. -/
def nextOpen (best : Option (ℕ × InlineTagSpec T)) (found : ℕ × InlineTagSpec T) :
    Option (ℕ × InlineTagSpec T) :=
  match best with
  | none => some found
  | some best =>
    if found.1 < best.1 ∨
        (found.1 = best.1 ∧ best.2.openTag.length < found.2.openTag.length) then some found
    else some best

/-- `find_next_open`. -/
def findNextOpen (specs : List (InlineTagSpec T)) (pending : Text) :
    Option (ℕ × InlineTagSpec T) :=
  (specs.filterMap fun spec => (find spec.openTag pending).map (·, spec)).foldl nextOpen none

/-- `max_open_prefix_suffix_len`. -/
def maxOpenPrefixSuffixLen (specs : List (InlineTagSpec T)) (pending : Text) : ℕ :=
  (specs.map fun spec => longestSuffixStart pending spec.openTag).foldl max 0

/-- The loop of `push_str`. -/
def pushLoop (specs : List (InlineTagSpec T)) :
    ℕ → Text → Option (ActiveTag T) → StreamTextChunk (ExtractedInlineTag T) →
      Text × Option (ActiveTag T) × StreamTextChunk (ExtractedInlineTag T)
  | 0, pending, active, out => (pending, active, out)
  | fuel + 1, pending, some active, out =>
    match find active.closeTag pending with
    | some closeIdx =>
      pushLoop specs fuel (pending.drop (closeIdx + active.closeTag.length)) none
        { out with extracted :=
            out.extracted ++ [⟨active.tag, active.content ++ pending.take closeIdx⟩] }
    | none =>
      let take := pending.length - longestSuffixStart pending active.closeTag
      (pending.drop take, some { active with content := active.content ++ pending.take take }, out)
  | fuel + 1, pending, none, out =>
    match findNextOpen specs pending with
    | some (openIdx, spec) =>
      pushLoop specs fuel (pending.drop (openIdx + spec.openTag.length))
        (some ⟨spec.tag, spec.closeTag, []⟩)
        { out with visibleText := out.visibleText ++ pending.take openIdx }
    | none =>
      let take := pending.length - maxOpenPrefixSuffixLen specs pending
      (pending.drop take, none, { out with visibleText := out.visibleText ++ pending.take take })

/-- `push_str`. -/
def pushStr (parser : InlineHiddenTagParser T) (chunk : Text) :
    InlineHiddenTagParser T × StreamTextChunk (ExtractedInlineTag T) :=
  let pending := parser.pending ++ chunk
  let (pending, active, out) :=
    pushLoop parser.specs (pending.length + 1) pending parser.active .empty
  (⟨parser.specs, pending, active⟩, out)

/-- `finish`: a tag that is still open ends with the text. -/
def finish (parser : InlineHiddenTagParser T) :
    InlineHiddenTagParser T × StreamTextChunk (ExtractedInlineTag T) :=
  match parser.active with
  | some active =>
    (⟨parser.specs, [], none⟩, ⟨[], [⟨active.tag, active.content ++ parser.pending⟩]⟩)
  | none => (⟨parser.specs, [], none⟩, ⟨parser.pending, []⟩)

end InlineHiddenTagParser

/-! ## Citations -/

/-- `CitationTag`. -/
inductive CitationTag where
  | citation
deriving DecidableEq

/-- The delimiters of a citation. -/
def citationSpec : InlineTagSpec CitationTag where
  tag := .citation
  openTag := "<oai-mem-citation>".toList
  closeTag := "</oai-mem-citation>".toList
  openTag_ne_nil := by decide
  closeTag_ne_nil := by decide

/-- `CitationStreamParser::new`. -/
def newCitationStreamParser : InlineHiddenTagParser CitationTag := .new [citationSpec]

/-- What the citation parser returns of a chunk: the bodies of the tags. -/
def citationChunk (chunk : StreamTextChunk (ExtractedInlineTag CitationTag)) :
    StreamTextChunk Text :=
  ⟨chunk.visibleText, chunk.extracted.map (·.content)⟩

end Supercodex.StreamParser
