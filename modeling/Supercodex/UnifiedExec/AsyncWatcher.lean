import Supercodex.Library.Utf8Decoding
import Supercodex.UnifiedExec.HeadTailBuffer

/-!
# Streaming the output of a process (`core/src/unified_exec/async_watcher.rs`)

Received bytes are split into deltas. Every delta goes to the transcript, and the first ones of a call are
sent as events. The loop of `process_chunk` carries the number of pending bytes as fuel: every round takes one.
-/

namespace Supercodex.UnifiedExec

open Utf8

/-- `UNIFIED_EXEC_OUTPUT_DELTA_MAX_BYTES`. -/
def unifiedExecOutputDeltaMaxBytes : ℕ := 8192

/-- `MAX_EXEC_OUTPUT_DELTAS_PER_CALL`. -/
def maxExecOutputDeltasPerCall : ℕ := 10000

/-- The loop of `split_valid_utf8_prefix_with_max`: the length of the valid prefix it finds from `split` down. -/
def validSplit (buffer : Bytes) (maxLen : ℕ) : ℕ → Option ℕ
  | 0 => none
  | split + 1 =>
    if (fromUtf8 (buffer.take (split + 1))).isOk then some (split + 1)
    else if 4 < maxLen - (split + 1) then none
    else validSplit buffer maxLen split

/-- `split_valid_utf8_prefix_with_max`: the prefix, and what is left of the buffer. -/
def splitValidUtf8PrefixWithMax (buffer : Bytes) (maxBytes : ℕ) : Option (Bytes × Bytes) :=
  if buffer = [] then none
  else
    let maxLen := min buffer.length maxBytes
    match validSplit buffer maxLen maxLen with
    | some split => some (buffer.take split, buffer.drop split)
    -- no valid prefix: the first byte alone
    | none => some (buffer.take 1, buffer.drop 1)

/-- `split_valid_utf8_prefix`. -/
def splitValidUtf8Prefix (buffer : Bytes) : Option (Bytes × Bytes) :=
  splitValidUtf8PrefixWithMax buffer unifiedExecOutputDeltaMaxBytes

/-- What the task of `start_streaming_output` holds, and the events it sent. -/
structure OutputStream where
  pending : Bytes
  transcript : HeadTailBuffer
  emittedDeltas : ℕ
  events : List Bytes
deriving DecidableEq

namespace OutputStream

/-- The start of the task. -/
def start (transcript : HeadTailBuffer) : OutputStream := ⟨[], transcript, 0, []⟩

/-- What `process_chunk` does before its loop. -/
def receive (stream : OutputStream) (chunk : Bytes) : OutputStream :=
  { stream with pending := stream.pending ++ chunk }

/-- One round of the loop of `process_chunk`, `none` at its end. -/
def round (stream : OutputStream) : Option OutputStream :=
  match splitValidUtf8Prefix stream.pending with
  | none => none
  | some (delta, rest) =>
    let stream := { stream with pending := rest, transcript := stream.transcript.pushChunk delta }
    if maxExecOutputDeltasPerCall ≤ stream.emittedDeltas then some stream
    else some { stream with events := stream.events ++ [delta], emittedDeltas := stream.emittedDeltas + 1 }

/-- The loop of `process_chunk`. -/
def rounds : ℕ → OutputStream → OutputStream
  | 0, stream => stream
  | fuel + 1, stream =>
    match stream.round with
    | none => stream
    | some stream => rounds fuel stream

/-- `process_chunk`. -/
def processChunk (stream : OutputStream) (chunk : Bytes) : OutputStream :=
  let stream := stream.receive chunk
  rounds stream.pending.length stream

/-- The states of a call, with the chunks that it received: a chunk is received after the loop over the one
before it has ended. -/
inductive Reached (transcript : HeadTailBuffer) : List Bytes → OutputStream → Prop where
  | start : Reached transcript [] (start transcript)
  | receive {received : List Bytes} {stream : OutputStream} (h : Reached transcript received stream)
      (hdone : stream.round = none) (chunk : Bytes) :
      Reached transcript (received ++ [chunk]) (stream.receive chunk)
  | round {received : List Bytes} {stream stream' : OutputStream} (h : Reached transcript received stream)
      (hround : stream.round = some stream') : Reached transcript received stream'

end OutputStream

end Supercodex.UnifiedExec

/-!
# Deltas are bounded, lossless and text

What was split off, and what is pending, is what was received. Where the chunks are text, so are the deltas:
the last four bytes below the limit hold the end of a character.
-/

namespace Supercodex.UnifiedExec

open Utf8

/-! ## One delta -/

section

variable {buffer delta rest : Bytes} {maxLen maxBytes split n k : ℕ}

lemma validSplit_some (h : validSplit buffer maxLen split = some n) :
    0 < n ∧ n ≤ split ∧ Valid (buffer.take n) := by
  induction split with
  | zero => cases h
  | succ split ih =>
    rw [validSplit] at h
    split_ifs at h with hok hfar
    · cases h
      exact ⟨Nat.succ_pos split, le_rfl, valid_iff.mpr hok⟩
    · obtain ⟨hpos, hle, hvalid⟩ := ih h
      exact ⟨hpos, hle.trans (Nat.le_succ split), hvalid⟩

lemma validSplit_isSome (hpos : 0 < k) (hk : k ≤ split) (hnear : maxLen ≤ k + 4) (hvalid : Valid (buffer.take k)) :
    ∃ n, validSplit buffer maxLen split = some n := by
  induction split with
  | zero => omega
  | succ split ih =>
    rw [validSplit]
    split_ifs with hok hfar
    · exact ⟨split + 1, rfl⟩
    · omega
    apply ih
    have hne : k ≠ split + 1 := by
      rintro rfl
      exact hok (valid_iff.mp hvalid)
    omega

lemma split_append (hmax : 0 < maxBytes) (h : splitValidUtf8PrefixWithMax buffer maxBytes = some (delta, rest)) :
    delta ++ rest = buffer ∧ 0 < delta.length ∧ delta.length ≤ maxBytes := by
  unfold splitValidUtf8PrefixWithMax at h
  split_ifs at h with hne
  have hlen := List.length_pos_iff.mpr hne
  dsimp only at h
  split at h
  · rename_i split hsplit
    obtain ⟨hpos, hle, -⟩ := validSplit_some hsplit
    cases h
    rw [List.length_take]
    exact ⟨List.take_append_drop _ _, by omega, by omega⟩
  · cases h
    rw [List.length_take]
    exact ⟨List.take_append_drop _ _, by omega, by omega⟩

lemma exists_valid_prefix (hmax : 4 ≤ maxBytes) (hvalid : Valid buffer) (hne : buffer ≠ []) :
    ∃ k, 0 < k ∧ k ≤ min buffer.length maxBytes ∧ min buffer.length maxBytes ≤ k + 4 ∧
      Valid (buffer.take k) := by
  obtain ⟨t, rfl⟩ := hvalid
  obtain ⟨u, rest, part, rfl, hsplit, hpart⟩ :=
    exists_split_of_prefix (List.take_prefix (min (encode t).length maxBytes) (encode t))
  have hlen := congrArg List.length hsplit
  rw [List.length_take, List.length_append] at hlen
  have htotal : (encode (u ++ rest)).length = (encode u).length + (encode rest).length := by
    rw [encode_append, List.length_append]
  have hpos := List.length_pos_iff.mpr hne
  have hprefix : (encode (u ++ rest)).take (encode u).length = encode u := by
    rw [encode_append, List.take_left' rfl]
  -- the part of a character that the limit cuts off has at most three bytes
  have hpart : part.length = 0 ∨ part.length < 4 ∧ part.length < (encode rest).length := by
    rcases hpart with rfl | ⟨c, rest', rfl, hpart⟩
    · exact .inl rfl
    have hlt := hpart.length_lt
    have hfour := c.utf8Size_le_four
    have hencode : encode (c :: rest') = String.utf8EncodeChar c ++ encode rest' := List.flatMap_cons
    rw [hencode, List.length_append, String.length_utf8EncodeChar]
    omega
  exact ⟨(encode u).length, by omega, by omega, by omega, u, hprefix⟩

lemma split_valid (hmax : 4 ≤ maxBytes) (hvalid : Valid buffer)
    (h : splitValidUtf8PrefixWithMax buffer maxBytes = some (delta, rest)) : Valid delta ∧ Valid rest := by
  have hsplit := (split_append (by omega) h).1
  have hdelta : Valid delta := by
    unfold splitValidUtf8PrefixWithMax at h
    split_ifs at h with hne
    obtain ⟨k, hpos, hk, hnear, hprefix⟩ := exists_valid_prefix hmax hvalid hne
    obtain ⟨n, hn⟩ := validSplit_isSome hpos hk hnear hprefix
    dsimp only at h
    rw [hn] at h
    cases h
    exact (validSplit_some hn).2.2
  rw [← hsplit] at hvalid
  exact ⟨hdelta, hdelta.of_append hvalid⟩

end

namespace OutputStream

/-! ## A call -/

/-- The state after some received chunks, with the deltas that were split off. -/
structure Streamed (transcript : HeadTailBuffer) (received : List Bytes) (stream : OutputStream)
    (deltas : List Bytes) : Prop where
  recorded : stream.transcript = transcript.pushChunks deltas
  sent : stream.events = deltas.take maxExecOutputDeltasPerCall
  counted : stream.emittedDeltas = min deltas.length maxExecOutputDeltasPerCall
  conserved : deltas.flatten ++ stream.pending = received.flatten
  bounded : ∀ delta ∈ deltas, delta.length ≤ unifiedExecOutputDeltaMaxBytes
  valid : (∀ chunk ∈ received, Valid chunk) → Valid stream.pending ∧ ∀ delta ∈ deltas, Valid delta

variable {transcript : HeadTailBuffer} {received deltas : List Bytes} {stream stream' : OutputStream} {chunk : Bytes}

lemma streamed_start (transcript : HeadTailBuffer) : Streamed transcript [] (start transcript) [] where
  recorded := rfl
  sent := rfl
  counted := rfl
  conserved := rfl
  bounded := fun _ h => nomatch h
  valid _ := ⟨⟨[], rfl⟩, fun _ h => nomatch h⟩

lemma Streamed.receive (h : Streamed transcript received stream deltas) (chunk : Bytes) :
    Streamed transcript (received ++ [chunk]) (stream.receive chunk) deltas where
  recorded := h.recorded
  sent := h.sent
  counted := h.counted
  conserved := by
    show deltas.flatten ++ (stream.pending ++ chunk) = _
    rw [← List.append_assoc, h.conserved, List.flatten_append, List.flatten_singleton]
  bounded := h.bounded
  valid hvalid := by
    obtain ⟨hpending, hdeltas⟩ := h.valid fun c hc => hvalid c (List.mem_append_left _ hc)
    exact ⟨hpending.append (hvalid chunk (List.mem_append_right _ (List.mem_singleton_self _))), hdeltas⟩

/-- A round moves a valid prefix to the transcript, and emits it below the cap. -/
lemma round_some (h : stream.round = some stream') :
    ∃ delta, splitValidUtf8Prefix stream.pending = some (delta, stream'.pending) ∧
      stream'.transcript = stream.transcript.pushChunk delta ∧
      stream'.events = (if maxExecOutputDeltasPerCall ≤ stream.emittedDeltas then stream.events
        else stream.events ++ [delta]) ∧
      stream'.emittedDeltas = (if maxExecOutputDeltasPerCall ≤ stream.emittedDeltas then stream.emittedDeltas
        else stream.emittedDeltas + 1) := by
  unfold round at h
  split at h
  · cases h
  rename_i delta rest hsplit
  dsimp only at h
  split_ifs at h with hcap
  · cases h
    exact ⟨delta, hsplit, rfl, (if_pos hcap).symm, (if_pos hcap).symm⟩
  · cases h
    exact ⟨delta, hsplit, rfl, (if_neg hcap).symm, (if_neg hcap).symm⟩

lemma Streamed.round (h : Streamed transcript received stream deltas) (hround : stream.round = some stream') :
    ∃ delta, Streamed transcript received stream' (deltas ++ [delta]) := by
  obtain ⟨delta, hsplit, htranscript, hevents, hemitted⟩ := round_some hround
  obtain ⟨happend, -, hlen⟩ := split_append (Nat.succ_pos _) hsplit
  refine ⟨delta, ?_, ?_, ?_, ?_, ?_, ?_⟩
  · rw [htranscript, h.recorded, HeadTailBuffer.pushChunks, HeadTailBuffer.pushChunks, List.foldl_append]
    rfl
  · rw [hevents, h.counted, h.sent]
    split_ifs with hcap
    · rw [List.take_append_of_le_length (by omega)]
    · rw [List.take_of_length_le (by omega), List.take_of_length_le (by rw [List.length_append]; simp; omega)]
  · rw [hemitted, h.counted, List.length_append, List.length_singleton]
    split_ifs <;> omega
  · rw [List.flatten_append, List.flatten_singleton, List.append_assoc, happend, h.conserved]
  · intro d hd
    rcases List.mem_append.mp hd with hd | hd
    · exact h.bounded d hd
    · rw [List.mem_singleton.mp hd]
      exact hlen
  · intro hvalid
    obtain ⟨hpending, hdeltas⟩ := h.valid hvalid
    obtain ⟨hdelta, hrest⟩ := split_valid (by decide) hpending hsplit
    refine ⟨hrest, fun d hd => ?_⟩
    rcases List.mem_append.mp hd with hd | hd
    · exact hdeltas d hd
    · rw [List.mem_singleton.mp hd]
      exact hdelta

lemma Reached.streamed (h : Reached transcript received stream) :
    ∃ deltas, Streamed transcript received stream deltas := by
  induction h with
  | start => exact ⟨[], streamed_start transcript⟩
  | receive _ _ chunk ih =>
    obtain ⟨deltas, h⟩ := ih
    exact ⟨deltas, h.receive chunk⟩
  | round _ hround ih =>
    obtain ⟨deltas, h⟩ := ih
    obtain ⟨delta, h⟩ := h.round hround
    exact ⟨_, h⟩

/-! ## The loop ends -/

lemma round_of_nil (h : stream.pending = []) : stream.round = none := by
  unfold round splitValidUtf8Prefix splitValidUtf8PrefixWithMax
  rw [if_pos h]

lemma Reached.rounds (n : ℕ) (h : Reached transcript received stream) (hn : stream.pending.length ≤ n) :
    Reached transcript received (stream.rounds n) ∧ (stream.rounds n).round = none := by
  induction n generalizing stream with
  | zero =>
    refine ⟨h, ?_⟩
    have hnil : stream.pending = [] := List.length_eq_zero_iff.mp (Nat.le_zero.mp hn)
    exact round_of_nil hnil
  | succ n ih =>
    rw [OutputStream.rounds]
    cases hround : stream.round with
    | none => exact ⟨h, hround⟩
    | some next =>
      obtain ⟨delta, hsplit, -⟩ := round_some hround
      obtain ⟨happend, hpos, -⟩ := split_append (Nat.succ_pos _) hsplit
      have hlen := congrArg List.length happend
      rw [List.length_append] at hlen
      exact ih (h.round hround) (by omega)

/-- `process_chunk` is a chunk that is received, and rounds to the end of the loop. -/
lemma Reached.processChunk (h : Reached transcript received stream) (hdone : stream.round = none) (chunk : Bytes) :
    Reached transcript (received ++ [chunk]) (stream.processChunk chunk) ∧
      (stream.processChunk chunk).round = none :=
  (h.receive hdone chunk).rounds _ le_rfl

end OutputStream

open OutputStream

/-- At every moment the deltas that were split off and the pending bytes are what was received. The transcript
has all deltas, the first ones of the call were sent, and none is over the limit. As long as every chunk ends
at the end of a character, every delta is text. -/
theorem output_deltas {transcript : HeadTailBuffer} {received : List Bytes} {stream : OutputStream}
    (h : Reached transcript received stream) :
    ∃ deltas, deltas.flatten ++ stream.pending = received.flatten ∧
      stream.transcript = transcript.pushChunks deltas ∧
      stream.events = deltas.take maxExecOutputDeltasPerCall ∧
      (∀ delta ∈ deltas, delta.length ≤ unifiedExecOutputDeltaMaxBytes) ∧
      ((∀ chunk ∈ received, Valid chunk) → ∀ delta ∈ deltas, Valid delta) := by
  obtain ⟨deltas, hstreamed⟩ := h.streamed
  exact ⟨deltas, hstreamed.conserved, hstreamed.recorded, hstreamed.sent, hstreamed.bounded,
    fun hvalid => (hstreamed.valid hvalid).2⟩

/-- A text with a character of two bytes across the limit of a delta. -/
def longText : Text := List.replicate (unifiedExecOutputDeltaMaxBytes - 1) 'a' ++ ['é', 'b']

/-- The call after it has received the text, and another letter. -/
def afterLongText : OutputStream := ((start (.new 8)).processChunk (encode longText)).processChunk (encode ['c'])

/-- A call that received a chunk over the limit, and then another one. -/
theorem output_deltas_longText :
    ∃ deltas : List Bytes, deltas.flatten ++ afterLongText.pending = encode longText ++ encode ['c'] ∧
      afterLongText.events = deltas.take maxExecOutputDeltasPerCall ∧
      (∀ delta ∈ deltas, delta.length ≤ unifiedExecOutputDeltaMaxBytes) ∧ ∀ delta ∈ deltas, Valid delta := by
  obtain ⟨hlong, hdone⟩ := (Reached.start : Reached (.new 8) [] _).processChunk rfl (encode longText)
  obtain ⟨deltas, hconserved, -, hsent, hbounded, hvalid⟩ := output_deltas (hlong.processChunk hdone (encode ['c'])).1
  refine ⟨deltas, hconserved.trans (by simp), hsent, hbounded, hvalid fun chunk hchunk => ?_⟩
  rw [List.nil_append, List.mem_append, List.mem_singleton, List.mem_singleton] at hchunk
  rcases hchunk with rfl | rfl
  · exact ⟨longText, rfl⟩
  · exact ⟨['c'], rfl⟩

lemma reached_letters (n : ℕ) :
    ∃ transcript, Reached (.new 8) (List.replicate n [0x61])
      ⟨[], transcript, min n maxExecOutputDeltasPerCall,
        List.replicate (min n maxExecOutputDeltasPerCall) [0x61]⟩ := by
  induction n with
  | zero => exact ⟨_, .start⟩
  | succ n ih =>
    obtain ⟨transcript, h⟩ := ih
    have hreceived := h.receive (round_of_nil rfl) [0x61]
    rw [← List.replicate_succ'] at hreceived
    refine ⟨transcript.pushChunk [0x61], hreceived.round ?_⟩
    have hsplit : splitValidUtf8Prefix ([] ++ [0x61]) = some ([0x61], []) := rfl
    unfold OutputStream.round
    rw [OutputStream.receive, hsplit]
    dsimp only
    split_ifs with hcap
    · have hmin : min (n + 1) maxExecOutputDeltasPerCall = min n maxExecOutputDeltasPerCall := by omega
      rw [hmin]
    · have hmin : min (n + 1) maxExecOutputDeltasPerCall = min n maxExecOutputDeltasPerCall + 1 := by omega
      rw [hmin, List.replicate_succ']

/-- After the limit of events, letters are received that are in no event. A character that was cut between two
chunks is sent in parts. -/
theorem events_capped_and_cut :
    (∃ stream, Reached (.new 8) (List.replicate 10001 [0x61]) stream ∧
      stream.events.flatten ++ stream.pending ≠ (List.replicate 10001 [0x61]).flatten) ∧
      ∃ stream, Reached (.new 8) [[0xC3], [0xA9]] stream ∧ [0xC3] ∈ stream.events ∧ ¬ Valid [0xC3] := by
  constructor
  · obtain ⟨transcript, h⟩ := reached_letters 10001
    refine ⟨_, h, ?_⟩
    intro heq
    have hlen := congrArg List.length heq
    rw [List.append_nil, List.flatten_replicate_singleton, List.flatten_replicate_singleton, List.length_replicate,
      List.length_replicate] at hlen
    have hcap : maxExecOutputDeltasPerCall = 10000 := rfl
    omega
  · obtain ⟨hfirst, hdone⟩ := (Reached.start : Reached (.new 8) [] _).processChunk rfl [0xC3]
    refine ⟨_, (hfirst.processChunk hdone [0xA9]).1, by decide, ?_⟩
    rw [valid_iff]
    decide

end Supercodex.UnifiedExec
