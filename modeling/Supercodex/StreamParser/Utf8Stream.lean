import Supercodex.Library.Utf8Decoding
import Supercodex.History.TruncationTheorems
import Supercodex.StreamParser.InlineTagsTheorems

/-!
# Streams of bytes (`utils/stream-parser/src/stream_text.rs`, `utf8_stream.rs`)

An adapter gives a parser of text the text of a byte stream. The bytes of a character that is not complete
stay with the adapter. The methods that change the adapter return it beside their result.
-/

namespace Supercodex.StreamParser

open Utf8

/-- The trait `StreamTextParser`. -/
class StreamTextParser (P : Type) (E : outParam Type) where
  pushStr : P → Text → P × StreamTextChunk E
  finish : P → P × StreamTextChunk E

instance {T : Type} : StreamTextParser (InlineHiddenTagParser T) (ExtractedInlineTag T) where
  pushStr := InlineHiddenTagParser.pushStr
  finish := InlineHiddenTagParser.finish

/-- `Utf8StreamParserError`. -/
inductive Utf8StreamParserError where
  | invalidUtf8 (validUpTo errorLen : ℕ)
  | incompleteUtf8AtEof
deriving DecidableEq

/-- `Utf8StreamParser`. -/
structure Utf8StreamParser (P : Type) where
  inner : P
  pendingUtf8 : Bytes

namespace Utf8StreamParser

variable {P E : Type} [StreamTextParser P E]

/-- `Utf8StreamParser::new`. -/
def new (inner : P) : Utf8StreamParser P := ⟨inner, []⟩

/-- `push_bytes`. -/
def pushBytes (parser : Utf8StreamParser P) (chunk : Bytes) :
    Utf8StreamParser P × Except Utf8StreamParserError (StreamTextChunk E) :=
  let oldLen := parser.pendingUtf8.length
  let pending := parser.pendingUtf8 ++ chunk
  match fromUtf8 pending with
  | .ok text =>
    let (inner, out) := StreamTextParser.pushStr parser.inner text
    (⟨inner, []⟩, .ok out)
  | .error err =>
    match err.errorLen with
    | some errorLen => (⟨parser.inner, pending.take oldLen⟩, .error (.invalidUtf8 err.validUpTo errorLen))
    | none =>
      if err.validUpTo = 0 then (⟨parser.inner, pending⟩, .ok .empty)
      else
        match fromUtf8 (pending.take err.validUpTo) with
        | .ok text =>
          let (inner, out) := StreamTextParser.pushStr parser.inner text
          (⟨inner, pending.drop err.validUpTo⟩, .ok out)
        | .error prefixErr =>
          (⟨parser.inner, pending.take oldLen⟩,
            .error (.invalidUtf8 prefixErr.validUpTo (prefixErr.errorLen.getD 0)))

/-- What is wrong with bytes at the end of the stream. -/
def eofError (err : Utf8Error) : Utf8StreamParserError :=
  match err.errorLen with
  | some errorLen => .invalidUtf8 err.validUpTo errorLen
  | none => .incompleteUtf8AtEof

/-- `finish`. -/
def finish (parser : Utf8StreamParser P) :
    Utf8StreamParser P × Except Utf8StreamParserError (StreamTextChunk E) :=
  if parser.pendingUtf8 = [] then
    let (inner, tail) := StreamTextParser.finish parser.inner
    (⟨inner, []⟩, .ok tail)
  else
    match fromUtf8 parser.pendingUtf8 with
    | .error err => (parser, .error (eofError err))
    | .ok text =>
      let (inner, out) := StreamTextParser.pushStr parser.inner text
      let (inner, tail) := StreamTextParser.finish inner
      (⟨inner, []⟩, .ok ⟨out.visibleText ++ tail.visibleText, out.extracted ++ tail.extracted⟩)

end Utf8StreamParser

end Supercodex.StreamParser

/-!
# The adapter passes on what it is given

The parser of text sees the text of the bytes, piece by piece as its characters become complete. Bytes that
are no text change nothing.
-/

namespace Supercodex.StreamParser

open Utf8 History

variable {P E : Type} [StreamTextParser P E]

/-- A parser that is fed one piece of text after another, and all it returns. -/
def feed (inner : P) : List Text → P × StreamTextChunk E
  | [] => (inner, .empty)
  | piece :: pieces =>
    let (inner, out) := StreamTextParser.pushStr inner piece
    let (inner, rest) := feed inner pieces
    (inner, out.append rest)

/-- The pieces of a text that chunks of its bytes complete, where some bytes of its first character have been
held back before. A chunk that only goes on this character gives no piece. -/
def pieces (t : Text) (held : ℕ) : List Bytes → List Text
  | [] => []
  | chunk :: chunks =>
    let arrived := held + chunk.length
    let piece := takeBytes arrived t
    if piece = [] ∧ 0 < arrived then pieces t arrived chunks
    else piece :: pieces (t.drop piece.length) (arrived - byteLen piece) chunks

namespace Utf8StreamParser

/-- An adapter that is fed one chunk after another, up to the first error, and all it returns. -/
def run (parser : Utf8StreamParser P) :
    List Bytes → Utf8StreamParser P × Except Utf8StreamParserError (StreamTextChunk E)
  | [] => (parser, .ok .empty)
  | chunk :: chunks =>
    match parser.pushBytes chunk with
    | (parser, .error err) => (parser, .error err)
    | (parser, .ok out) =>
      let (parser, rest) := run parser chunks
      (parser, out.append <$> rest)

/-! ## One chunk -/

variable {parser : Utf8StreamParser P} {chunk part : Bytes} {u : Text}

lemma pushBytes_whole (h : parser.pendingUtf8 ++ chunk = encode u) :
    parser.pushBytes chunk =
      (new (StreamTextParser.pushStr parser.inner u).1, .ok (StreamTextParser.pushStr parser.inner u).2) := by
  unfold pushBytes
  simp only [h, fromUtf8_encode]
  rfl

lemma pushBytes_held {c : Char} (hpart : PartOf c part) (h : parser.pendingUtf8 ++ chunk = part) :
    parser.pushBytes chunk = (⟨parser.inner, part⟩, .ok .empty) := by
  have herror : fromUtf8 part = .error ⟨0, none⟩ := fromUtf8_part [] hpart
  unfold pushBytes
  simp only [h, herror, if_true]

lemma pushBytes_part {c : Char} (hpart : PartOf c part) (h : parser.pendingUtf8 ++ chunk = encode u ++ part)
    (hne : u ≠ []) :
    parser.pushBytes chunk =
      (⟨(StreamTextParser.pushStr parser.inner u).1, part⟩, .ok (StreamTextParser.pushStr parser.inner u).2) := by
  have hpos : (encode u).length ≠ 0 := (length_encode_pos hne).ne'
  unfold pushBytes
  simp only [h, fromUtf8_part u hpart, if_neg hpos, List.take_left', List.drop_left', fromUtf8_encode]

lemma pushBytes_error {err : Utf8StreamParserError} (h : (parser.pushBytes chunk).2 = .error err) :
    (parser.pushBytes chunk).1 = parser := by
  have hrestored : (⟨parser.inner, (parser.pendingUtf8 ++ chunk).take parser.pendingUtf8.length⟩ :
      Utf8StreamParser P) = parser := by
    rw [List.take_left']
    rfl
  unfold pushBytes at h ⊢
  dsimp only at h ⊢
  split
  · rename_i text htext
    rw [htext] at h
    cases h
  · rename_i e he
    rw [he] at h
    dsimp only at h ⊢
    split
    · exact hrestored
    rename_i hnone
    rw [hnone] at h
    dsimp only at h ⊢
    split at h
    · cases h
    rename_i hzero
    rw [if_neg hzero]
    split at h
    · cases h
    · exact hrestored

/-! ## All chunks -/

omit [StreamTextParser P E] in
lemma length_encode (t : Text) : (encode t).length = byteLen t := by
  induction t with
  | nil => rfl
  | cons c t ih =>
    have hencode : encode (c :: t) = String.utf8EncodeChar c ++ encode t := List.flatMap_cons
    rw [hencode, List.length_append, String.length_utf8EncodeChar, byteLen_cons, ih]

lemma takeBytes_within {u rest : Text} {n : ℕ} (h : ∀ c rest', rest = c :: rest' → n < c.utf8Size) :
    takeBytes (byteLen u + n) (u ++ rest) = u := by
  induction u with
  | nil =>
    cases rest with
    | nil => rfl
    | cons c rest =>
      have hlt := h c rest rfl
      rw [List.nil_append, takeBytes, byteLen_nil, if_neg (by omega)]
  | cons c u ih =>
    have hrest : c.utf8Size + byteLen u + n - c.utf8Size = byteLen u + n := by omega
    rw [List.cons_append, takeBytes, byteLen_cons, if_pos (by omega), hrest, ih]

/-- The adapter passes on the pieces. -/
lemma run_eq_feed (chunks : List Bytes) (parser : Utf8StreamParser P) {t : Text}
    (hpending : parser.pendingUtf8 = [] ∨ ∃ c, PartOf c parser.pendingUtf8)
    (h : parser.pendingUtf8 ++ chunks.flatten = encode t) :
    (pieces t parser.pendingUtf8.length chunks).flatten = t ∧
      run parser chunks =
        (new (feed parser.inner (pieces t parser.pendingUtf8.length chunks)).1,
          .ok (feed parser.inner (pieces t parser.pendingUtf8.length chunks)).2) := by
  induction chunks generalizing parser t with
  | nil =>
    rw [List.flatten_nil, List.append_nil] at h
    have hnil : parser.pendingUtf8 = [] := hpending.resolve_right fun ⟨c, hpart⟩ => hpart.ne_encode t h
    have ht : t = [] := by
      by_contra hne
      have hpos := length_encode_pos hne
      rw [← h, hnil] at hpos
      exact Nat.lt_irrefl 0 hpos
    refine ⟨ht.symm, ?_⟩
    show (parser, _) = (new parser.inner, _)
    rw [new, ← hnil]
    rfl
  | cons chunk chunks ih =>
    rw [List.flatten_cons, ← List.append_assoc] at h
    obtain ⟨u, rest, part, rfl, hsplit, hpart⟩ := exists_split_of_prefix ⟨_, h⟩
    have hrest : part ++ chunks.flatten = encode rest := by
      rw [hsplit, encode_append, List.append_assoc] at h
      exact List.append_cancel_left h
    have harrived : parser.pendingUtf8.length + chunk.length = byteLen u + part.length := by
      rw [← List.length_append, hsplit, List.length_append, length_encode]
    have hpiece : takeBytes (parser.pendingUtf8.length + chunk.length) (u ++ rest) = u := by
      rw [harrived]
      apply takeBytes_within
      rintro c rest' rfl
      rcases hpart with rfl | ⟨d, rest'', heq, hpart⟩
      · exact c.utf8Size_pos
      · cases heq
        exact hpart.length_lt
    -- a chunk either completes something, or ends between characters, or is held back
    by_cases hheld : u = [] ∧ 0 < parser.pendingUtf8.length + chunk.length
    · obtain ⟨rfl, hpos⟩ := hheld
      rw [harrived, byteLen_nil, Nat.zero_add] at hpos
      have hne : part ≠ [] := List.ne_nil_of_length_pos hpos
      obtain ⟨c, rest', rfl, hpart'⟩ := hpart.resolve_left hne
      obtain ⟨hflatten, hrun⟩ := ih ⟨parser.inner, part⟩ (.inr ⟨c, hpart'⟩) hrest
      have hpieces : pieces ([] ++ c :: rest') parser.pendingUtf8.length (chunk :: chunks) =
          pieces (c :: rest') part.length chunks := by
        rw [pieces, hpiece, harrived, byteLen_nil, Nat.zero_add, if_pos ⟨rfl, hpos⟩]
        rfl
      rw [hpieces]
      refine ⟨hflatten, ?_⟩
      rw [run, pushBytes_held hpart' hsplit]
      simp only [hrun]
      rfl
    · have hpieces : pieces (u ++ rest) parser.pendingUtf8.length (chunk :: chunks) =
          u :: pieces rest part.length chunks := by
        rw [pieces, hpiece, if_neg hheld, List.drop_left, harrived, Nat.add_sub_cancel_left]
      have hpush : parser.pushBytes chunk =
          (⟨(StreamTextParser.pushStr parser.inner u).1, part⟩,
            .ok (StreamTextParser.pushStr parser.inner u).2) := by
        rcases hpart with rfl | ⟨c, rest', rfl, hpart⟩
        · rw [List.append_nil] at hsplit
          exact pushBytes_whole hsplit
        refine pushBytes_part hpart hsplit ?_
        rintro rfl
        have hpos := List.length_pos_iff.mpr hpart.1
        exact hheld ⟨rfl, by omega⟩
      obtain ⟨hflatten, hrun⟩ := ih ⟨(StreamTextParser.pushStr parser.inner u).1, part⟩
        (hpart.imp_right fun ⟨c, _, _, hpart⟩ => ⟨c, hpart⟩) hrest
      rw [hpieces]
      refine ⟨by rw [List.flatten_cons, hflatten], ?_⟩
      rw [run, hpush]
      simp only [hrun]
      rfl

end Utf8StreamParser

/-- The adapter passes on the text of its bytes in the pieces that the chunks complete, and returns what the
parser returns of them, up to the end of the stream. An error leaves the adapter as it was. -/
theorem utf8_stream_transparent :
    (∀ (inner : P) (t : Text) (chunks : List Bytes), chunks.flatten = encode t →
      (pieces t 0 chunks).flatten = t ∧
        (Utf8StreamParser.new inner).run chunks =
          (.new (feed inner (pieces t 0 chunks)).1, .ok (feed inner (pieces t 0 chunks)).2) ∧
        ((Utf8StreamParser.new inner).run chunks).1.finish =
          (.new (StreamTextParser.finish (feed inner (pieces t 0 chunks)).1).1,
            .ok (StreamTextParser.finish (feed inner (pieces t 0 chunks)).1).2)) ∧
      ∀ (parser : Utf8StreamParser P) (chunk : Bytes) (validUpTo errorLen : ℕ),
        (parser.pushBytes chunk).2 = .error (.invalidUtf8 validUpTo errorLen) →
          (parser.pushBytes chunk).1 = parser := by
  refine ⟨fun inner t chunks h => ?_, fun _ _ _ _ => Utf8StreamParser.pushBytes_error⟩
  obtain ⟨hflatten, hrun⟩ := Utf8StreamParser.run_eq_feed chunks (.new inner) (.inl rfl) h
  refine ⟨hflatten, hrun, ?_⟩
  rw [hrun]
  rfl

/-- A character in two chunks, and a byte that is in no text. -/
theorem utf8_stream_transparent_citation :
    (Utf8StreamParser.new newCitationStreamParser).run [[0xC3], [0xA9]] =
        (.new (feed newCitationStreamParser (pieces "é".toList 0 [[0xC3], [0xA9]])).1,
          .ok (feed newCitationStreamParser (pieces "é".toList 0 [[0xC3], [0xA9]])).2) ∧
      ((Utf8StreamParser.new newCitationStreamParser).pushBytes [0xFF]).1 = .new newCitationStreamParser :=
  ⟨(utf8_stream_transparent.1 newCitationStreamParser "é".toList [[0xC3], [0xA9]] (by decide)).2.1,
    utf8_stream_transparent.2 (.new newCitationStreamParser) [0xFF] 0 1 rfl⟩

end Supercodex.StreamParser
