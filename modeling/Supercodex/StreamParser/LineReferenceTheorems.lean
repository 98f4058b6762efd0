import Supercodex.Library.Pieces
import Supercodex.StreamParser.TaggedLine

/-!
# Tagged lines against whole lines

The parser lets characters go as soon as their line cannot be a tag any more. Its segments are those of reading
whole lines: what was let go is the start of a line that is no tag.
-/

namespace Supercodex.StreamParser

open Coalesce Text Pieces

variable {T : Type} [DecidableEq T]

namespace TaggedLineParser

/-- All segments of a stream: of its chunks, and of its end. -/
def stream (parser : TaggedLineParser T) : List Text → List (TaggedLineSegment T)
  | [] => parser.finish.2
  | chunk :: chunks => (parser.parse chunk).2 ++ (parser.parse chunk).1.stream chunks

/-- Reading whole lines in order, with a tag that is open and what opens and closes tags. -/
def readLines (opens : Text → Option T) (closes : T → Text → Bool) :
    Option T → List Text → List (TaggedLineSegment T)
  | none, [] => []
  | some tag, [] => [.tagEnd tag]
  | none, line :: lines =>
    match opens (trim line) with
    | some tag => .tagStart tag :: readLines opens closes (some tag) lines
    | none => .normal line :: readLines opens closes none lines
  | some tag, line :: lines =>
    if closes tag (trim line) then .tagEnd tag :: readLines opens closes none lines
    else .tagDelta tag line :: readLines opens closes (some tag) lines

/-- The tag that a trimmed line opens. -/
def opensTag (specs : List (TagSpec T)) (slug : Text) : Option T :=
  (specs.find? fun spec => spec.openTag = slug).map (·.tag)

/-- Whether a trimmed line closes a tag. -/
def closesTag (specs : List (TagSpec T)) (tag : T) (slug : Text) : Bool :=
  specs.any fun spec => spec.tag = tag && spec.closeTag = slug

/-- The tag that the parser takes a trimmed line to close. -/
def matchesClose (specs : List (TagSpec T)) (tag : T) (slug : Text) : Bool :=
  (new specs).matchClose slug = some tag

/-- The parser at the start of a line. -/
def atLine (specs : List (TagSpec T)) (active : Option T) : TaggedLineParser T := ⟨specs, active, true, []⟩

/-- The parser with a whole line. -/
def withLine (specs : List (TagSpec T)) (active : Option T) (line : Text) : TaggedLineParser T :=
  ⟨specs, active, true, line⟩

variable {specs : List (TagSpec T)} {active : Option T} {body line : Text} {lines : List Text}

/-! ## Whole lines -/

lemma trim_newline (t : Text) : trim (t ++ ['\n']) = trim t := by
  rw [trim_eq_trimStart_trimEnd, trim_eq_trimStart_trimEnd t]
  unfold trimEnd
  rw [List.rdropWhile_concat_pos isWhitespace t '\n' (by decide)]

lemma lineSlug_eq_trim (line : Text) : lineSlug line = trim line := by
  unfold lineSlug
  split
  · rename_i h
    obtain ⟨init, rfl⟩ := List.getLast?_eq_some_iff.mp h
    rw [List.dropLast_concat, trim_newline]
  · rfl

lemma lineKind_none (specs : List (TagSpec T)) (line : Text) :
    (withLine specs none line).lineKind =
      match opensTag specs (trim line) with
      | some tag => .opens tag
      | none => .text := by
  have hopen : (withLine specs none line).matchOpen (lineSlug line) = opensTag specs (lineSlug line) := rfl
  have hclose : (withLine specs none line).matchClose (lineSlug line) =
      (new specs).matchClose (lineSlug line) := rfl
  rw [← lineSlug_eq_trim]
  unfold lineKind
  dsimp only
  rw [show (withLine specs none line).lineBuffer = line from rfl, hopen, hclose]
  cases opensTag specs (lineSlug line) with
  | some tag => rfl
  | none => cases (new specs).matchClose (lineSlug line) <;> rfl

lemma lineKind_some (specs : List (TagSpec T)) (tag : T) (line : Text) :
    (withLine specs (some tag) line).lineKind =
      if matchesClose specs tag (trim line) then .closes tag else .text := by
  have hkind : (withLine specs (some tag) line).lineKind =
      match (new specs).matchClose (lineSlug line) with
      | some closed => if some tag = some closed then .closes closed else .text
      | none => .text := by
    unfold lineKind
    dsimp only
    rw [show (withLine specs (some tag) line).lineBuffer = line from rfl]
    cases (withLine specs (some tag) line).matchOpen (lineSlug line) <;> rfl
  rw [hkind, lineSlug_eq_trim, matchesClose]
  cases hclose : (new specs).matchClose (trim line) with
  | none => rfl
  | some closed =>
    by_cases htag : tag = closed
    · subst htag
      simp
    · have htag' : ¬ closed = tag := fun h => htag h.symm
      simp [htag, htag']

variable {tag : T}

lemma finishLine_opens (h : (withLine specs active line).lineKind = .opens tag) :
    (withLine specs active line).finishLine [] = (atLine specs (some tag), [.tagStart tag]) := by
  unfold finishLine
  rw [h]
  rfl

lemma finishLine_closes (h : (withLine specs active line).lineKind = .closes tag) :
    (withLine specs active line).finishLine [] = (atLine specs none, [.tagEnd tag]) := by
  unfold finishLine
  rw [h]
  rfl

lemma finishLine_text (h : (withLine specs active line).lineKind = .text) :
    (withLine specs active line).finishLine [] = (atLine specs active, (atLine specs active).emitText line) := by
  unfold finishLine
  rw [h]
  cases active with
  | none | some tag => rfl

lemma readLines_cons (specs : List (TagSpec T)) (active : Option T) (hline : line ≠ []) (lines : List Text) :
    ∃ next, ((withLine specs active line).finishLine []).1 = atLine specs next ∧
      readLines (opensTag specs) (matchesClose specs) active (line :: lines) =
        ((withLine specs active line).finishLine []).2 ++
          readLines (opensTag specs) (matchesClose specs) next lines := by
  have hemit (active : Option T) :
      (atLine specs active).emitText line = [(atLine specs active).textSegment line] := if_neg hline
  cases active with
  | none =>
    have hkind := lineKind_none specs line
    rw [readLines]
    cases hopen : opensTag specs (trim line) with
    | some tag =>
      rw [hopen] at hkind
      rw [finishLine_opens hkind]
      exact ⟨some tag, rfl, rfl⟩
    | none =>
      rw [hopen] at hkind
      rw [finishLine_text hkind, hemit]
      exact ⟨none, rfl, rfl⟩
  | some tag =>
    have hkind := lineKind_some specs tag line
    rw [readLines]
    split_ifs with hclose
    · rw [if_pos hclose] at hkind
      rw [finishLine_closes hkind]
      exact ⟨none, rfl, rfl⟩
    · rw [if_neg hclose] at hkind
      rw [finishLine_text hkind, hemit]
      exact ⟨some tag, rfl, rfl⟩

/-! ## Characters of a line -/

/-- The start of a line was let go: it cannot be the start of a tag. -/
def Released (specs : List (TagSpec T)) (body : Text) : Prop :=
  ∃ front, front <+: body ∧ trimStart front ≠ [] ∧ ¬ (new specs).isTagPrefix (trimStart front)

omit [DecidableEq T] in
lemma Released.append (h : Released specs body) (more : Text) : Released specs (body ++ more) := by
  obtain ⟨front, hfront, hne, hno⟩ := h
  exact ⟨front, hfront.trans (List.prefix_append _ _), hne, hno⟩

lemma nonBlank_of_trimStart_ne_nil {t : Text} (h : trimStart t ≠ []) : NonBlank t := by
  by_contra hblank
  apply h
  refine List.dropWhile_eq_nil_iff.mpr fun c hc => ?_
  by_contra hws
  exact hblank ⟨c, hc, eq_false_of_ne_true hws⟩

omit [DecidableEq T] in
lemma Released.ne_tag (h : Released specs line) {spec : TagSpec T} (hspec : spec ∈ specs) :
    spec.openTag ≠ trim line ∧ spec.closeTag ≠ trim line := by
  obtain ⟨front, hfront, hne, hno⟩ := h
  have hprefix := trim_isInitial (nonBlank_of_trimStart_ne_nil hne) hfront
  have hspec : ¬ (trim front <+: spec.openTag ∨ trim front <+: spec.closeTag) := by
    intro hstart
    apply hno
    refine List.any_eq_true.mpr ⟨spec, hspec, ?_⟩
    rw [Bool.or_eq_true, List.isPrefixOf_iff_prefix, List.isPrefixOf_iff_prefix]
    exact hstart
  exact ⟨fun heq => hspec (.inl (heq ▸ hprefix)), fun heq => hspec (.inr (heq ▸ hprefix))⟩

lemma Released.lineKind (h : Released specs line) (active : Option T) :
    (withLine specs active line).lineKind = .text := by
  cases active with
  | none =>
    have hopen : opensTag specs (trim line) = none := by
      rw [opensTag, Option.map_eq_none_iff, List.find?_eq_none]
      intro spec hspec heq
      exact (h.ne_tag hspec).1 (of_decide_eq_true heq)
    rw [lineKind_none, hopen]
  | some tag =>
    have hclose : (new specs).matchClose (trim line) = none := by
      rw [matchClose, Option.map_eq_none_iff, List.find?_eq_none]
      intro spec hspec heq
      exact (h.ne_tag hspec).2 (of_decide_eq_true heq)
    rw [lineKind_some, matchesClose, hclose]
    rfl

/-- The parser within a line, with the segments of the line so far: the line is held back, or was let go. -/
inductive Within (specs : List (TagSpec T)) (active : Option T) (body : Text) :
    TaggedLineParser T × List (TaggedLineSegment T) → Prop where
  | held : Within specs active body (withLine specs active body, [])
  | released {segments : List (TaggedLineSegment T)} (hbody : Released specs body)
      (hsegments : ∀ rest, joinSegments segments rest = joinSegments ((atLine specs active).emitText body) rest) :
      Within specs active body (⟨specs, active, false, []⟩, segments)

lemma Within.stepChar {state : TaggedLineParser T × List (TaggedLineSegment T)} (h : Within specs active body state)
    {ch : Char} (hch : ch ≠ '\n') :
    Within specs active (body ++ [ch]) ((state.1.stepChar ch).1, state.2 ++ (state.1.stepChar ch).2) := by
  cases h with
  | held =>
    have hstep : (withLine specs active body).stepChar ch =
        if trimStart (body ++ [ch]) = [] ∨ (new specs).isTagPrefix (trimStart (body ++ [ch])) then
          (withLine specs active (body ++ [ch]), [])
        else (⟨specs, active, false, []⟩, (atLine specs active).emitText (body ++ [ch])) := by
      unfold TaggedLineParser.stepChar
      rw [if_pos (show (withLine specs active body).detectTag = true from rfl)]
      rw [if_neg hch]
      rfl
    rw [hstep]
    split_ifs with hheld
    · exact .held
    · rw [not_or] at hheld
      exact .released ⟨body ++ [ch], List.prefix_refl _, hheld.1, hheld.2⟩ fun rest => rfl
  | released hbody hsegments =>
    have hstep : (⟨specs, active, false, []⟩ : TaggedLineParser T).stepChar ch =
        (⟨specs, active, false, []⟩, (atLine specs active).emitText [ch]) := by
      unfold TaggedLineParser.stepChar
      rw [if_neg Bool.false_ne_true, if_neg hch]
      rfl
    rw [hstep]
    refine .released (hbody.append [ch]) fun rest => ?_
    rw [joinSegments_append, hsegments, joinSegments_emitText_append]

lemma emit_singleton (ch : Char) (parser : TaggedLineParser T) : emit [ch] parser = parser.stepChar ch := by
  show ((parser.stepChar ch).1, (parser.stepChar ch).2 ++ []) = _
  rw [List.append_nil]

lemma within_emit (specs : List (TagSpec T)) (active : Option T) (body : Text) (h : '\n' ∉ body) :
    Within specs active body (emit body (atLine specs active)) := by
  induction body using List.reverseRecOn with
  | nil => exact .held
  | append_singleton body ch ih =>
    rw [List.mem_append, not_or] at h
    have hch : ch ≠ '\n' := fun heq => h.2 (heq ▸ List.mem_singleton_self ch)
    have hstep := (ih h.1).stepChar hch
    rw [emit_append, emit_singleton]
    exact hstep

lemma emit_line (specs : List (TagSpec T)) (active : Option T) (h : '\n' ∉ body) :
    (emit (body ++ ['\n']) (atLine specs active)).1 =
        ((withLine specs active (body ++ ['\n'])).finishLine []).1 ∧
      ∀ rest, joinSegments (emit (body ++ ['\n']) (atLine specs active)).2 rest =
        joinSegments ((withLine specs active (body ++ ['\n'])).finishLine []).2 rest := by
  have hwithin := within_emit specs active body h
  rw [emit_append, emit_singleton]
  generalize emit body (atLine specs active) = state at hwithin
  cases hwithin with
  | held =>
    have hstep : (withLine specs active body).stepChar '\n' =
        (withLine specs active (body ++ ['\n'])).finishLine [] := rfl
    rw [hstep]
    exact ⟨rfl, fun rest => rfl⟩
  | released hbody hsegments =>
    have hstep : (⟨specs, active, false, []⟩ : TaggedLineParser T).stepChar '\n' =
        (atLine specs active, (atLine specs active).emitText ['\n']) := rfl
    rw [hstep, finishLine_text ((hbody.append ['\n']).lineKind active)]
    refine ⟨rfl, fun rest => ?_⟩
    rw [joinSegments_append, hsegments, joinSegments_emitText_append]

lemma finish_withLine (hline : line ≠ []) {next : Option T}
    (hnext : ((withLine specs active line).finishLine []).1 = atLine specs next) :
    (withLine specs active line).finish.2 =
      ((withLine specs active line).finishLine []).2 ++
        readLines (opensTag specs) (matchesClose specs) next [] := by
  unfold finish
  rw [if_neg (show (withLine specs active line).lineBuffer ≠ [] from hline)]
  dsimp only
  rw [hnext]
  cases next with
  | none => exact (List.append_nil _).symm
  | some tag => rfl

section

variable (specs : List (TagSpec T))

lemma finish_empty (active : Option T) (detectTag : Bool) :
    (⟨specs, active, detectTag, []⟩ : TaggedLineParser T).finish.2 =
      readLines (opensTag specs) (matchesClose specs) active [] := by
  cases active <;> rfl

lemma emit_last (active : Option T) (h : '\n' ∉ body)
    (rest : List (TaggedLineSegment T)) :
    joinSegments ((emit body (atLine specs active)).2 ++ (emit body (atLine specs active)).1.finish.2) rest =
      joinSegments (readLines (opensTag specs) (matchesClose specs) active (pieces '\n' body)) rest := by
  by_cases hnil : body = []
  · subst hnil
    rw [pieces_nil, ← finish_empty specs active true]
    rfl
  have hwithin := within_emit specs active body h
  obtain ⟨next, hnext, hread⟩ := readLines_cons specs active hnil []
  rw [pieces_of_not_mem hnil h, hread]
  generalize emit body (atLine specs active) = state at hwithin
  cases hwithin with
  | held => rw [finish_withLine hnil hnext, List.nil_append]
  | released hbody hsegments =>
    have htext := finishLine_text (hbody.lineKind active)
    rw [htext] at hnext ⊢
    have hactive : active = next := congrArg activeTag hnext
    rw [finish_empty, ← hactive, joinSegments_append, hsegments, joinSegments_append]

lemma emit_eq_readLines (active : Option T) (t : Text) (rest : List (TaggedLineSegment T)) :
    joinSegments ((emit t (atLine specs active)).2 ++ (emit t (atLine specs active)).1.finish.2) rest =
      joinSegments (readLines (opensTag specs) (matchesClose specs) active (pieces '\n' t)) rest := by
  induction hn : t.length using Nat.strong_induction_on generalizing t active with
  | _ n ih =>
    subst hn
    by_cases hmem : '\n' ∈ t
    · obtain ⟨body, t, rfl, hbody⟩ := List.eq_append_cons_of_mem hmem
      have hline : IsPiece '\n' (body ++ ['\n']) := ⟨body, hbody, rfl⟩
      have hne : body ++ ['\n'] ≠ [] := List.append_ne_nil_of_right_ne_nil _ (List.cons_ne_nil _ _)
      have hsplit : body ++ '\n' :: t = body ++ ['\n'] ++ t := by rw [List.append_assoc, List.singleton_append]
      have hless : t.length < (body ++ '\n' :: t).length := by
        rw [List.length_append, List.length_cons]
        omega
      obtain ⟨next, hnext, hread⟩ := readLines_cons specs active hne (pieces '\n' t)
      obtain ⟨hstate, hsegments⟩ := emit_line specs active hbody
      have hrest := ih t.length hless next t rfl
      rw [hsplit, emit_append, pieces_append hline.complete, hline.pieces, List.singleton_append, hread,
        List.append_assoc, joinSegments_append, hsegments, hstate, hnext, hrest, joinSegments_append]
    · exact emit_last specs active hmem rest

end

/-! ## Streams -/

lemma stream_eq_emit (parser : TaggedLineParser T) (chunks : List Text) (rest : List (TaggedLineSegment T)) :
    joinSegments (parser.stream chunks) rest =
      joinSegments ((emit chunks.flatten parser).2 ++ (emit chunks.flatten parser).1.finish.2) rest := by
  induction chunks generalizing parser with
  | nil => rfl
  | cons chunk chunks ih =>
    obtain ⟨hstate, hsegments⟩ := parseChars_emit chunk parser [] []
    have hparse : (parser.parse chunk).1 = (emit chunk parser).1 := hstate
    rw [stream, joinSegments_append, ih, List.flatten_cons, emit_append, hparse, List.append_assoc,
      joinSegments_append (emit chunk parser).2]
    exact hsegments _

lemma stream_eq_readLines (specs : List (TagSpec T)) (chunks : List Text) :
    joinSegments ((new specs).stream chunks) [] =
      joinSegments (readLines (opensTag specs) (matchesClose specs) none (pieces '\n' chunks.flatten)) [] := by
  rw [stream_eq_emit]
  exact emit_eq_readLines specs none chunks.flatten []

/-! ## Closers -/

/-- A text that a whole line can be. -/
def IsLine (slug : Text) : Prop := trim slug = slug ∧ '\n' ∉ slug

/-- A tag that a line can open. -/
def Opened (specs : List (TagSpec T)) (tag : T) : Prop :=
  ∃ opener ∈ specs, IsLine opener.openTag ∧ opensTag specs opener.openTag = some opener.tag ∧ opener.tag = tag

/-- Every closer of a tag that can be opened is found as a closer of that tag. -/
def ClosersFound (specs : List (TagSpec T)) : Prop :=
  ∀ closer ∈ specs, Opened specs closer.tag → IsLine closer.closeTag →
    (new specs).matchClose closer.closeTag = some closer.tag

lemma isLine_trim (h : line ∈ pieces '\n' body) : IsLine (trim line) := by
  refine ⟨trim_trim line, ?_⟩
  have hlast := not_mem_dropLast_of_mem_pieces h
  rcases List.eq_nil_or_concat line with rfl | ⟨init, last, rfl⟩
  · exact List.not_mem_nil
  rw [List.concat_eq_append, List.dropLast_concat] at hlast
  rw [List.concat_eq_append]
  intro hmem
  by_cases heq : last = '\n'
  · rw [heq, trim_newline] at hmem
    exact hlast (trim_subset init hmem)
  · rcases List.mem_append.mp (trim_subset _ hmem) with hinit | hlast'
    · exact hlast hinit
    · exact heq (List.mem_singleton.mp hlast').symm

omit [DecidableEq T] in
lemma opened_of_opensTag {slug : Text} (h : opensTag specs slug = some tag) (hslug : IsLine slug) :
    Opened specs tag := by
  obtain ⟨opener, hfind, rfl⟩ := Option.map_eq_some_iff.mp h
  have hdecide := List.find?_some hfind
  have hopen : opener.openTag = slug := of_decide_eq_true hdecide
  subst hopen
  exact ⟨opener, List.mem_of_find?_eq_some hfind, hslug, h, rfl⟩

lemma matchesClose_eq {slug : Text} (hclosers : ClosersFound specs) (htag : Opened specs tag)
    (hslug : IsLine slug) : matchesClose specs tag slug = closesTag specs tag slug := by
  rw [Bool.eq_iff_iff, matchesClose, decide_eq_true_iff, closesTag, List.any_eq_true]
  constructor
  · intro h
    obtain ⟨closer, hfind, rfl⟩ := Option.map_eq_some_iff.mp h
    have hdecide := List.find?_some hfind
    exact ⟨closer, List.mem_of_find?_eq_some hfind, by rw [decide_eq_true rfl, Bool.true_and]; exact hdecide⟩
  · rintro ⟨closer, hcloser, h⟩
    rw [Bool.and_eq_true, decide_eq_true_iff, decide_eq_true_iff] at h
    obtain ⟨rfl, rfl⟩ := h
    exact hclosers closer hcloser htag hslug

lemma readLines_closes (hclosers : ClosersFound specs) (hlines : ∀ line ∈ lines, IsLine (trim line))
    (hactive : ∀ tag ∈ active, Opened specs tag) :
    readLines (opensTag specs) (matchesClose specs) active lines =
      readLines (opensTag specs) (closesTag specs) active lines := by
  induction lines generalizing active with
  | nil => cases active <;> rfl
  | cons line lines ih =>
    rw [List.forall_mem_cons] at hlines
    have hnone : ∀ tag ∈ (none : Option T), Opened specs tag := fun tag h => nomatch h
    cases active with
    | none =>
      rw [readLines, readLines]
      cases hopen : opensTag specs (trim line) with
      | none =>
        rw [ih hlines.2 hnone]
      | some tag =>
        dsimp only
        rw [ih hlines.2 fun tag' h => Option.mem_some.mp h ▸ opened_of_opensTag hopen hlines.1]
    | some tag =>
      rw [readLines, readLines, matchesClose_eq hclosers (hactive tag rfl) hlines.1, ih hlines.2 hnone,
        ih hlines.2 hactive]

omit [DecidableEq T] in
/-- Two lines: an opener, and a closer or a line of text. -/
lemma readLines_block {opener closer : Text} {closes : T → Text → Bool} (hopener : IsLine opener)
    (hcloser : IsLine closer) (hopen : opensTag specs opener = some tag) :
    readLines (opensTag specs) closes none (pieces '\n' (opener ++ ['\n'] ++ (closer ++ ['\n']))) =
      .tagStart tag :: (if closes tag closer then [.tagEnd tag]
        else [.tagDelta tag (closer ++ ['\n']), .tagEnd tag]) := by
  have hfirst : IsPiece '\n' (opener ++ ['\n']) := ⟨opener, hopener.2, rfl⟩
  have hsecond : IsPiece '\n' (closer ++ ['\n']) := ⟨closer, hcloser.2, rfl⟩
  have htrim {slug : Text} (h : IsLine slug) : trim (slug ++ ['\n']) = slug := by rw [trim_newline, h.1]
  rw [pieces_append hfirst.complete, hfirst.pieces, hsecond.pieces, List.singleton_append, readLines,
    htrim hopener, hopen]
  dsimp only
  rw [readLines, htrim hcloser]
  rfl

/-- The segments of every stream are those of reading its lines exactly when the closers of each tag that can be
opened are found as closers of that tag. -/
theorem stream_eq_reference_iff (specs : List (TagSpec T)) :
    (∀ chunks, joinSegments ((new specs).stream chunks) [] =
      joinSegments (readLines (opensTag specs) (closesTag specs) none (pieces '\n' chunks.flatten)) []) ↔
      ClosersFound specs := by
  constructor
  · intro hsame closer hcloser hopened hline
    obtain ⟨opener, hopener, hopenerLine, hopen, htag⟩ := hopened
    by_contra hmissed
    have hblock := hsame [opener.openTag ++ ['\n'] ++ (closer.closeTag ++ ['\n'])]
    have hcode : matchesClose specs opener.tag closer.closeTag = false := by
      rw [matchesClose, htag]
      exact decide_eq_false hmissed
    have hreference : closesTag specs opener.tag closer.closeTag = true := by
      rw [closesTag, htag]
      exact List.any_eq_true.mpr ⟨closer, hcloser, by simp⟩
    rw [stream_eq_readLines, List.flatten_singleton, readLines_block hopenerLine hline hopen,
      readLines_block hopenerLine hline hopen, hcode, hreference] at hblock
    have hlength : 3 = 2 := congrArg List.length hblock
    exact absurd hlength (by decide)
  · intro hclosers chunks
    have hnone : ∀ tag ∈ (none : Option T), Opened specs tag := fun tag h => nomatch h
    rw [stream_eq_readLines, readLines_closes hclosers (fun line hline => isLine_trim hline) hnone]

omit [DecidableEq T] in
/-- Two tags with one closer. -/
def sharedCloser : List (TagSpec ℕ) :=
  [⟨"<a>".toList, "</x>".toList, 0⟩, ⟨"<b>".toList, "</x>".toList, 1⟩]

/-- The closer of the second tag is taken for the closer of the first one. -/
theorem shared_closer_missed :
    joinSegments ((new sharedCloser).stream ["<b>\n</x>\n".toList]) [] ≠
      joinSegments (readLines (opensTag sharedCloser) (closesTag sharedCloser) none
        (pieces '\n' ["<b>\n</x>\n".toList].flatten)) [] := by
  decide

/-! ## One tag -/

/-- The text that a segment carries. -/
def segmentText : TaggedLineSegment T → Text
  | .normal text => text
  | .tagDelta _ text => text
  | .tagStart _ => []
  | .tagEnd _ => []

/-- The lines that are no tags, read as `readLines` reads them. -/
def textLines (opens : Text → Option T) (closes : T → Text → Bool) : Option T → List Text → List Text
  | _, [] => []
  | none, line :: lines =>
    match opens (trim line) with
    | some tag => textLines opens closes (some tag) lines
    | none => line :: textLines opens closes none lines
  | some tag, line :: lines =>
    if closes tag (trim line) then textLines opens closes none lines
    else line :: textLines opens closes (some tag) lines

omit [DecidableEq T] in
/-- Reading whole lines keeps the text of all lines but the tags. -/
lemma text_readLines (opens : Text → Option T) (closes : T → Text → Bool) (active : Option T)
    (lines : List Text) :
    (readLines opens closes active lines).flatMap segmentText = (textLines opens closes active lines).flatten := by
  induction lines generalizing active with
  | nil => cases active <;> rfl
  | cons line lines ih =>
    cases active with
    | none =>
      rw [readLines, textLines]
      cases opens (trim line) with
      | none => exact congrArg (line ++ ·) (ih none)
      | some tag => exact ih (some tag)
    | some tag =>
      rw [readLines, textLines]
      split
      · exact ih none
      · exact congrArg (line ++ ·) (ih (some tag))

/-- Joining adjacent text of one kind keeps the text. -/
lemma text_joinSegments (segments : List (TaggedLineSegment T)) :
    (joinSegments segments []).flatMap segmentText = segments.flatMap segmentText := by
  rw [joinSegments, flatMap_joinAll, List.flatMap_nil, List.append_nil]
  intro a b c h
  cases a <;> cases b <;> simp only [TaggedLineSegment.join] at h <;> try cases h
  · rfl
  split at h
  · cases h
    rfl
  · cases h

omit [DecidableEq T] in
lemma closersFound_singleton (spec : TagSpec T) : ClosersFound [spec] := by
  intro closer hcloser _ _
  rw [List.mem_singleton.mp hcloser]
  simp [matchClose, new]

/-- A parser of one tag, such as that of proposed plans: in every chunking its segments are those of reading
whole lines, and they hold the text of all lines but the tags. -/
theorem stream_eq_reference (spec : TagSpec T) (chunks : List Text) :
    let lines := pieces '\n' chunks.flatten
    joinSegments ((new [spec]).stream chunks) [] =
        joinSegments (readLines (opensTag [spec]) (closesTag [spec]) none lines) [] ∧
      ((new [spec]).stream chunks).flatMap segmentText =
        (textLines (opensTag [spec]) (closesTag [spec]) none lines).flatten := by
  have hsame : joinSegments ((new [spec]).stream chunks) [] =
      joinSegments (readLines (opensTag [spec]) (closesTag [spec]) none (pieces '\n' chunks.flatten)) [] := by
    have hnone : ∀ tag ∈ (none : Option T), Opened [spec] tag := fun tag h => nomatch h
    rw [stream_eq_readLines, readLines_closes (closersFound_singleton spec)
      (fun line hline => isLine_trim hline) hnone]
  refine ⟨hsame, ?_⟩
  rw [← text_joinSegments, hsame, text_joinSegments, text_readLines]

end TaggedLineParser

end Supercodex.StreamParser
