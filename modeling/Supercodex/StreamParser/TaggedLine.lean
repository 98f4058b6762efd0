import Supercodex.Library.Text
import Supercodex.Library.Coalesce

/-!
# Tags on lines of their own (`utils/stream-parser/src/tagged_line_parser.rs`)

Each line is held back until it cannot be a tag any more. Text is collected in a run within one call
and pushed to the segments, where text of one kind is joined.
-/

namespace Supercodex.StreamParser

open Text

/-- `TagSpec`. -/
structure TagSpec (T : Type) where
  openTag : Text
  closeTag : Text
  tag : T
deriving DecidableEq

/-- `TaggedLineSegment`. -/
inductive TaggedLineSegment (T : Type) where
  | normal (text : Text)
  | tagStart (tag : T)
  | tagDelta (tag : T) (text : Text)
  | tagEnd (tag : T)
deriving DecidableEq

/-- `TaggedLineParser`. -/
structure TaggedLineParser (T : Type) where
  specs : List (TagSpec T)
  activeTag : Option T
  detectTag : Bool
  lineBuffer : Text
deriving DecidableEq

variable {T : Type} [DecidableEq T]

/-- `push_segment`. -/
def pushSegment (segments : List (TaggedLineSegment T)) (segment : TaggedLineSegment T) :
    List (TaggedLineSegment T) :=
  match segment with
  | .normal delta =>
    if delta = [] then segments
    else
      match segments.getLast? with
      | some (.normal existing) => segments.dropLast ++ [.normal (existing ++ delta)]
      | _ => segments ++ [.normal delta]
  | .tagDelta tag delta =>
    if delta = [] then segments
    else
      match segments.getLast? with
      | some (.tagDelta existingTag existing) =>
        if existingTag = tag then segments.dropLast ++ [.tagDelta existingTag (existing ++ delta)]
        else segments ++ [.tagDelta tag delta]
      | _ => segments ++ [.tagDelta tag delta]
  | .tagStart tag => segments ++ [.tagStart tag]
  | .tagEnd tag => segments ++ [.tagEnd tag]

namespace TaggedLineParser

/-- `TaggedLineParser::new`. -/
def new (specs : List (TagSpec T)) : TaggedLineParser T := ⟨specs, none, true, []⟩

/-- `push_text`. -/
def pushText (parser : TaggedLineParser T) (text : Text) (segments : List (TaggedLineSegment T)) :
    List (TaggedLineSegment T) :=
  match parser.activeTag with
  | some tag => pushSegment segments (.tagDelta tag text)
  | none => pushSegment segments (.normal text)

/-- `is_tag_prefix`. -/
def isTagPrefix (parser : TaggedLineParser T) (slug : Text) : Bool :=
  parser.specs.any fun spec =>
    (trimEnd slug).isPrefixOf spec.openTag || (trimEnd slug).isPrefixOf spec.closeTag

/-- `match_open`. -/
def matchOpen (parser : TaggedLineParser T) (slug : Text) : Option T :=
  (parser.specs.find? fun spec => spec.openTag = slug).map (·.tag)

/-- `match_close`. -/
def matchClose (parser : TaggedLineParser T) (slug : Text) : Option T :=
  (parser.specs.find? fun spec => spec.closeTag = slug).map (·.tag)

/-- The line without its newline and the white space around it. -/
def lineSlug (line : Text) : Text :=
  trim (if line.getLast? = some '\n' then line.dropLast else line)

/-- What a complete line is: a tag that opens or closes a block here, or text. -/
inductive LineKind (T : Type) where
  | opens (tag : T)
  | closes (tag : T)
  | text
deriving DecidableEq

/-- The decision that `finish_line` and `finish` make about the buffered line. -/
def lineKind (parser : TaggedLineParser T) : LineKind T :=
  let slug := lineSlug parser.lineBuffer
  match parser.matchOpen slug, parser.activeTag with
  | some tag, none => .opens tag
  | _, activeTag =>
    match parser.matchClose slug with
    | some tag => if activeTag = some tag then .closes tag else .text
    | none => .text

/-- `finish_line`. -/
def finishLine (parser : TaggedLineParser T) (segments : List (TaggedLineSegment T)) :
    TaggedLineParser T × List (TaggedLineSegment T) :=
  let emptied := { parser with lineBuffer := [], detectTag := true }
  match parser.lineKind with
  | .opens tag => ({ emptied with activeTag := some tag }, pushSegment segments (.tagStart tag))
  | .closes tag => ({ emptied with activeTag := none }, pushSegment segments (.tagEnd tag))
  | .text => (emptied, parser.pushText parser.lineBuffer segments)

/-- The text collected in one call, pushed to the segments if there is some. -/
def pushRun (parser : TaggedLineParser T) (run : Text) (segments : List (TaggedLineSegment T)) :
    List (TaggedLineSegment T) :=
  if run = [] then segments else parser.pushText run segments

/-- The loop of `parse` over the characters, with the segments and the run of this call. -/
def parseChars : Text → TaggedLineParser T → List (TaggedLineSegment T) → Text →
    TaggedLineParser T × List (TaggedLineSegment T)
  | [], parser, segments, run => (parser, parser.pushRun run segments)
  | ch :: rest, parser, segments, run =>
    if parser.detectTag then
      let segments := parser.pushRun run segments
      let parser := { parser with lineBuffer := parser.lineBuffer ++ [ch] }
      if ch = '\n' then
        let (parser, segments) := parser.finishLine segments
        parseChars rest parser segments []
      else
        let slug := trimStart parser.lineBuffer
        if slug = [] ∨ parser.isTagPrefix slug then parseChars rest parser segments []
        else
          let segments := parser.pushText parser.lineBuffer segments
          parseChars rest { parser with lineBuffer := [], detectTag := false } segments []
    else if ch = '\n' then
      let segments := parser.pushText (run ++ [ch]) segments
      parseChars rest { parser with detectTag := true } segments []
    else parseChars rest parser segments (run ++ [ch])

/-- `parse`. -/
def parse (parser : TaggedLineParser T) (delta : Text) :
    TaggedLineParser T × List (TaggedLineSegment T) :=
  parseChars delta parser [] []

/-- `finish`: the buffered line is decided, and an open block is closed. -/
def finish (parser : TaggedLineParser T) : TaggedLineParser T × List (TaggedLineSegment T) :=
  let (parser, segments) :=
    if parser.lineBuffer = [] then (parser, []) else parser.finishLine []
  let segments :=
    match parser.activeTag with
    | some tag => pushSegment segments (.tagEnd tag)
    | none => segments
  ({ parser with activeTag := none, detectTag := true }, segments)

end TaggedLineParser

end Supercodex.StreamParser

/-!
# Tagged lines do not depend on how the text was cut

The run of text that `parse` collects is a matter of one call. Up to the joining of adjacent text, a call
returns what the characters return one by one, and the parser is where they leave it.
-/

namespace Supercodex.StreamParser

open Coalesce Text

variable {T : Type} [DecidableEq T]

/-- Adjacent text of one kind is one segment. -/
def TaggedLineSegment.join : TaggedLineSegment T → TaggedLineSegment T →
    Option (TaggedLineSegment T)
  | .normal a, .normal b => some (.normal (a ++ b))
  | .tagDelta t a, .tagDelta u b => if t = u then some (.tagDelta t (a ++ b)) else none
  | _, _ => none

/-- The segments with adjacent text of one kind joined, in front of others. -/
def joinSegments (segments rest : List (TaggedLineSegment T)) : List (TaggedLineSegment T) :=
  joinAll TaggedLineSegment.join segments rest

@[simp] lemma joinSegments_nil (rest : List (TaggedLineSegment T)) :
    joinSegments [] rest = rest := rfl

@[simp] lemma joinSegments_append (as bs rest : List (TaggedLineSegment T)) :
    joinSegments (as ++ bs) rest = joinSegments as (joinSegments bs rest) :=
  joinAll_append as bs rest

lemma join_assoc : Assoc (TaggedLineSegment.join (T := T)) := by
  constructor
  · rintro (a | t | ⟨t, a⟩ | t) (b | u | ⟨u, b⟩ | u) c h (d | v | ⟨v, d⟩ | v) <;>
      simp only [TaggedLineSegment.join, reduceCtorEq] at h <;> grind [TaggedLineSegment.join]
  · rintro (a | t | ⟨t, a⟩ | t) (b | u | ⟨u, b⟩ | u) c h (d | v | ⟨v, d⟩ | v) <;>
      simp only [TaggedLineSegment.join, reduceCtorEq] at h <;> grind [TaggedLineSegment.join]

/-! ## Segments -/

/-- Whether a segment is text without a character. -/
def TaggedLineSegment.isBlank : TaggedLineSegment T → Prop
  | .normal text => text = []
  | .tagDelta _ text => text = []
  | _ => False

lemma pushSegment_of_isBlank {segment : TaggedLineSegment T} (h : segment.isBlank)
    (segments : List (TaggedLineSegment T)) : pushSegment segments segment = segments := by
  cases segment with
  | normal text | tagDelta tag text => exact if_pos h
  | tagStart tag | tagEnd tag => cases h

lemma pushSegment_eq_joinBack {segment : TaggedLineSegment T} (h : ¬ segment.isBlank)
    (segments : List (TaggedLineSegment T)) :
    pushSegment segments segment = joinBack TaggedLineSegment.join segments segment := by
  rcases List.eq_nil_or_concat segments with rfl | ⟨segments, last, rfl⟩
  · cases segment with
    | normal text | tagDelta tag text => exact if_neg h
    | tagStart tag | tagEnd tag => rfl
  · unfold joinBack
    rw [List.concat_eq_append, List.getLast?_concat]
    cases segment with
    | normal text =>
      have hne : text ≠ [] := h
      simp only [pushSegment, List.getLast?_concat, List.dropLast_concat]
      rw [if_neg hne]
      cases last <;> simp [TaggedLineSegment.join]
    | tagDelta tag text =>
      have hne : text ≠ [] := h
      simp only [pushSegment, List.getLast?_concat, List.dropLast_concat]
      rw [if_neg hne]
      cases last with
      | tagDelta existing old =>
        simp only [TaggedLineSegment.join]
        split <;> simp_all
      | _ => simp [TaggedLineSegment.join]
    | tagStart tag | tagEnd tag => cases last <;> simp [pushSegment, TaggedLineSegment.join]

namespace TaggedLineParser

/-- The segment that `push_text` pushes. -/
def textSegment (parser : TaggedLineParser T) (text : Text) : TaggedLineSegment T :=
  match parser.activeTag with
  | some tag => .tagDelta tag text
  | none => .normal text

/-- The segments of a text: none if there is none. -/
def emitText (parser : TaggedLineParser T) (text : Text) : List (TaggedLineSegment T) :=
  if text = [] then [] else [parser.textSegment text]

section

variable (parser : TaggedLineParser T)

lemma joinSegments_pushText (text : Text)
    (segments rest : List (TaggedLineSegment T)) :
    joinSegments (parser.pushText text segments) rest =
      joinSegments segments (joinSegments (parser.emitText text) rest) := by
  have hpush : parser.pushText text segments = pushSegment segments (parser.textSegment text) := by
    unfold pushText textSegment
    cases parser.activeTag <;> rfl
  have hblank : (parser.textSegment text).isBlank ↔ text = [] := by
    unfold textSegment
    cases parser.activeTag <;> rfl
  rw [hpush]
  unfold emitText
  split
  · rename_i hnil
    rw [pushSegment_of_isBlank (hblank.mpr hnil)]
    rfl
  · rename_i hnil
    rw [pushSegment_eq_joinBack (mt hblank.mp hnil)]
    exact joinAll_joinBack join_assoc segments _ rest

lemma joinSegments_pushRun (run : Text)
    (segments rest : List (TaggedLineSegment T)) :
    joinSegments (parser.pushRun run segments) rest =
      joinSegments segments (joinSegments (parser.emitText run) rest) := by
  unfold pushRun
  split
  · rename_i hnil
    rw [hnil]
    rfl
  · exact joinSegments_pushText parser run segments rest

lemma joinSegments_emitText_append (a b : Text)
    (rest : List (TaggedLineSegment T)) :
    joinSegments (parser.emitText (a ++ b)) rest =
      joinSegments (parser.emitText a) (joinSegments (parser.emitText b) rest) := by
  have hjoin : (parser.textSegment a).join (parser.textSegment b) =
      some (parser.textSegment (a ++ b)) := by
    unfold textSegment
    cases parser.activeTag <;> simp [TaggedLineSegment.join]
  unfold emitText
  by_cases ha : a = []
  · simp [ha]
  by_cases hb : b = []
  · simp [hb]
  rw [if_neg (by simp [ha]), if_neg ha, if_neg hb]
  exact (joinFront_joinFront join_assoc hjoin rest).symm

end

/-! ## One character -/

/-- What one character does, without a run. -/
def stepChar (parser : TaggedLineParser T) (ch : Char) :
    TaggedLineParser T × List (TaggedLineSegment T) :=
  if parser.detectTag then
    let parser := { parser with lineBuffer := parser.lineBuffer ++ [ch] }
    if ch = '\n' then parser.finishLine []
    else if trimStart parser.lineBuffer = [] ∨ parser.isTagPrefix (trimStart parser.lineBuffer) then
      (parser, [])
    else ({ parser with lineBuffer := [], detectTag := false }, parser.emitText parser.lineBuffer)
  else if ch = '\n' then ({ parser with detectTag := true }, parser.emitText [ch])
  else (parser, parser.emitText [ch])

/-- What characters do one after another. -/
def emit : Text → TaggedLineParser T → TaggedLineParser T × List (TaggedLineSegment T)
  | [], parser => (parser, [])
  | ch :: rest, parser =>
    ((emit rest (parser.stepChar ch).1).1,
      (parser.stepChar ch).2 ++ (emit rest (parser.stepChar ch).1).2)

lemma emit_append (c d : Text) (parser : TaggedLineParser T) :
    emit (c ++ d) parser =
      ((emit d (emit c parser).1).1, (emit c parser).2 ++ (emit d (emit c parser).1).2) := by
  induction c generalizing parser with
  | nil => rfl
  | cons ch c ih =>
    rw [List.cons_append, emit, ih, emit, List.append_assoc]

lemma finishLine_fst (parser : TaggedLineParser T) (segments : List (TaggedLineSegment T)) :
    (parser.finishLine segments).1 = (parser.finishLine []).1 := by
  unfold finishLine
  cases parser.lineKind <;> rfl

lemma joinSegments_finishLine (parser : TaggedLineParser T)
    (segments rest : List (TaggedLineSegment T)) :
    joinSegments (parser.finishLine segments).2 rest =
      joinSegments segments (joinSegments (parser.finishLine []).2 rest) := by
  unfold finishLine
  cases parser.lineKind with
  | opens tag => exact joinSegments_append segments [.tagStart tag] rest
  | closes tag => exact joinSegments_append segments [.tagEnd tag] rest
  | text =>
    simp only [joinSegments_pushText, joinSegments_nil]

/-! ## One call -/

/-- A call returns what its characters return one by one, with the text collected before in front. -/
lemma parseChars_emit (text : Text) (parser : TaggedLineParser T)
    (segments : List (TaggedLineSegment T)) (run : Text) :
    (parseChars text parser segments run).1 = (emit text parser).1 ∧
      ∀ rest, joinSegments (parseChars text parser segments run).2 rest =
        joinSegments segments
          (joinSegments (parser.emitText run) (joinSegments (emit text parser).2 rest)) := by
  induction text generalizing parser segments run with
  | nil => exact ⟨rfl, fun rest => joinSegments_pushRun parser run segments rest⟩
  | cons ch text ih =>
    unfold parseChars emit stepChar
    by_cases hdetect : parser.detectTag = true
    · -- the run is pushed before the line is looked at
      simp only [hdetect, if_true]
      by_cases hend : ch = '\n'
      · simp only [hend, if_true]
        refine ⟨?_, fun rest => ?_⟩
        · rw [(ih _ _ _).1, finishLine_fst]
        · rw [(ih _ _ _).2, finishLine_fst, joinSegments_finishLine, joinSegments_pushRun,
            joinSegments_append]
          rfl
      · simp only [hend, if_false]
        split
        · refine ⟨(ih _ _ _).1, fun rest => ?_⟩
          rw [(ih _ _ _).2, joinSegments_pushRun]
          rfl
        · refine ⟨(ih _ _ _).1, fun rest => ?_⟩
          rw [(ih _ _ _).2, joinSegments_pushText, joinSegments_pushRun, joinSegments_append]
          rfl
    · simp only [hdetect, Bool.false_eq_true, if_false]
      by_cases hend : ch = '\n'
      · simp only [hend, if_true]
        refine ⟨(ih _ _ _).1, fun rest => ?_⟩
        rw [(ih _ _ _).2, joinSegments_pushText, joinSegments_append, joinSegments_emitText_append]
        rfl
      · simp only [hend, if_false]
        refine ⟨(ih _ _ _).1, fun rest => ?_⟩
        rw [(ih _ _ _).2, joinSegments_append, joinSegments_emitText_append]

lemma parse_append_fst (parser : TaggedLineParser T) (c d : Text) :
    (parser.parse (c ++ d)).1 = ((parser.parse c).1.parse d).1 := by
  unfold parse
  rw [(parseChars_emit _ _ _ _).1, (parseChars_emit _ _ _ _).1, (parseChars_emit _ _ _ _).1,
    emit_append]

lemma joinSegments_parse_append (parser : TaggedLineParser T) (c d : Text)
    (rest : List (TaggedLineSegment T)) :
    joinSegments (parser.parse (c ++ d)).2 rest =
      joinSegments (parser.parse c).2 (joinSegments ((parser.parse c).1.parse d).2 rest) := by
  unfold parse
  rw [(parseChars_emit _ _ _ _).2, (parseChars_emit _ _ _ _).2, (parseChars_emit _ _ _ _).1,
    (parseChars_emit _ _ _ _).2, emit_append, joinSegments_append]
  rfl

end TaggedLineParser

end Supercodex.StreamParser
