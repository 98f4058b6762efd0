import Supercodex.History.Truncation
import Supercodex.Library.Utf8

/-!
# A buffer that keeps a head and a tail (`core/src/unified_exec/head_tail_buffer.rs`)

Half of the capacity is for the first bytes of the output and the rest for the last ones. Bytes between them
are dropped and counted.
-/

namespace Supercodex.UnifiedExec

open History (saturatingAdd usizeMax)
open Utf8 (Bytes)

/-- `HeadTailBuffer`. -/
structure HeadTailBuffer where
  maxBytes : ℕ
  headBudget : ℕ
  tailBudget : ℕ
  head : List Bytes
  tail : List Bytes
  headBytes : ℕ
  tailBytes : ℕ
  omittedBytes : ℕ
deriving DecidableEq

namespace HeadTailBuffer

/-- `HeadTailBuffer::new`. -/
def new (maxBytes : ℕ) : HeadTailBuffer :=
  let headBudget := maxBytes / 2
  ⟨maxBytes, headBudget, maxBytes - headBudget, [], [], 0, 0, 0⟩

/-- `retained_bytes`. -/
def retainedBytes (buffer : HeadTailBuffer) : ℕ := saturatingAdd buffer.headBytes buffer.tailBytes

/-- The loop of `trim_tail_to_budget`: the tail, its number of bytes and the omitted bytes after it. -/
def trimLoop : ℕ → List Bytes → ℕ → ℕ → List Bytes × ℕ × ℕ
  | _, [], tailBytes, omittedBytes => ([], tailBytes, omittedBytes)
  | excess, front :: tail, tailBytes, omittedBytes =>
    if excess = 0 then (front :: tail, tailBytes, omittedBytes)
    else if front.length ≤ excess then
      trimLoop (excess - front.length) tail (tailBytes - front.length) (saturatingAdd omittedBytes front.length)
    else (front.drop excess :: tail, tailBytes - excess, saturatingAdd omittedBytes excess)

/-- `trim_tail_to_budget`. -/
def trimTailToBudget (buffer : HeadTailBuffer) : HeadTailBuffer :=
  let excess := buffer.tailBytes - buffer.tailBudget
  let (tail, tailBytes, omittedBytes) := trimLoop excess buffer.tail buffer.tailBytes buffer.omittedBytes
  { buffer with tail, tailBytes, omittedBytes }

/-- `push_to_tail`. -/
def pushToTail (buffer : HeadTailBuffer) (chunk : Bytes) : HeadTailBuffer :=
  if buffer.tailBudget = 0 then
    { buffer with omittedBytes := saturatingAdd buffer.omittedBytes chunk.length }
  else if buffer.tailBudget ≤ chunk.length then
    let start := chunk.length - buffer.tailBudget
    let kept := chunk.drop start
    let dropped := chunk.length - kept.length
    { buffer with
      omittedBytes := saturatingAdd (saturatingAdd buffer.omittedBytes buffer.tailBytes) dropped
      tail := [kept]
      tailBytes := kept.length }
  else
    { buffer with
      tailBytes := saturatingAdd buffer.tailBytes chunk.length
      tail := buffer.tail ++ [chunk] }.trimTailToBudget

/-- `push_chunk`. -/
def pushChunk (buffer : HeadTailBuffer) (chunk : Bytes) : HeadTailBuffer :=
  if buffer.maxBytes = 0 then
    { buffer with omittedBytes := saturatingAdd buffer.omittedBytes chunk.length }
  else if buffer.headBytes < buffer.headBudget then
    let remainingHead := buffer.headBudget - buffer.headBytes
    if chunk.length ≤ remainingHead then
      { buffer with
        headBytes := saturatingAdd buffer.headBytes chunk.length
        head := buffer.head ++ [chunk] }
    else
      let headPart := chunk.take remainingHead
      let tailPart := chunk.drop remainingHead
      let buffer :=
        if headPart ≠ [] then
          { buffer with
            headBytes := saturatingAdd buffer.headBytes headPart.length
            head := buffer.head ++ [headPart] }
        else buffer
      buffer.pushToTail tailPart
  else buffer.pushToTail chunk

/-- `to_bytes`. -/
def toBytes (buffer : HeadTailBuffer) : Bytes := buffer.head.flatten ++ buffer.tail.flatten

/-- Chunks pushed one after another. -/
def pushChunks (buffer : HeadTailBuffer) (chunks : List Bytes) : HeadTailBuffer := chunks.foldl pushChunk buffer

end HeadTailBuffer

end Supercodex.UnifiedExec

/-!
# What a buffer keeps

The head holds the first bytes of the output and the tail the last ones of what is not in the head, each as
many as its budget allows. Every push keeps this.
-/

namespace Supercodex.UnifiedExec

open History (saturatingAdd usizeMax)
open Utf8 (Bytes)

namespace HeadTailBuffer

/-- The tail of a buffer holds the last bytes of `rest`, and the others are counted. -/
structure KeepsTail (buffer : HeadTailBuffer) (rest : Bytes) : Prop where
  tail : buffer.tail.flatten = rest.drop (rest.length - buffer.tailBudget)
  tailBytes : buffer.tailBytes = min buffer.tailBudget rest.length
  omittedBytes : buffer.omittedBytes = min (rest.length - buffer.tailBudget) usizeMax

/-- The buffer of a capacity that got some bytes. -/
structure Holds (maxBytes : ℕ) (bytes : Bytes) (buffer : HeadTailBuffer) : Prop where
  maxBytes_eq : buffer.maxBytes = maxBytes
  headBudget_eq : buffer.headBudget = maxBytes / 2
  tailBudget_eq : buffer.tailBudget = maxBytes - maxBytes / 2
  head : buffer.head.flatten = bytes.take (maxBytes / 2)
  headBytes : buffer.headBytes = min (maxBytes / 2) bytes.length
  keepsTail : buffer.KeepsTail (bytes.drop (maxBytes / 2))

variable {buffer : HeadTailBuffer} {maxBytes : ℕ} {bytes rest chunk : Bytes} {tail : List Bytes}
  {excess omittedBytes : ℕ}

/-! ## The tail -/

lemma trimLoop_eq (tailBytes : ℕ) (hexcess : excess ≤ tail.flatten.length) (homitted : omittedBytes ≤ usizeMax) :
    (trimLoop excess tail tailBytes omittedBytes).1.flatten = tail.flatten.drop excess ∧
      (trimLoop excess tail tailBytes omittedBytes).2 = (tailBytes - excess, saturatingAdd omittedBytes excess) := by
  induction tail generalizing excess tailBytes omittedBytes with
  | nil =>
    obtain rfl : excess = 0 := Nat.le_zero.mp hexcess
    rw [trimLoop, saturatingAdd, Nat.add_zero, Nat.min_eq_left homitted]
    exact ⟨rfl, rfl⟩
  | cons front tail ih =>
    rw [List.flatten_cons, List.length_append] at hexcess
    rw [trimLoop]
    by_cases hzero : excess = 0
    · rw [if_pos hzero, hzero, saturatingAdd, Nat.add_zero, Nat.min_eq_left homitted]
      exact ⟨rfl, rfl⟩
    rw [if_neg hzero]
    by_cases hfront : front.length ≤ excess
    · rw [if_pos hfront]
      have hless : excess - front.length ≤ tail.flatten.length := by omega
      have hcounted : saturatingAdd omittedBytes front.length ≤ usizeMax := Nat.min_le_right _ _
      refine ⟨?_, ?_⟩
      · rw [(ih _ hless hcounted).1, List.flatten_cons, List.drop_append, List.drop_of_length_le hfront, List.nil_append]
      · rw [(ih _ hless hcounted).2]
        simp only [saturatingAdd, Prod.mk.injEq]
        omega
    · rw [if_neg hfront]
      refine ⟨?_, rfl⟩
      rw [List.flatten_cons, List.flatten_cons, List.drop_append_of_le_length (by omega)]

lemma pushToTail_frame (buffer : HeadTailBuffer) (chunk : Bytes) :
    (buffer.pushToTail chunk).maxBytes = buffer.maxBytes ∧
      (buffer.pushToTail chunk).headBudget = buffer.headBudget ∧
      (buffer.pushToTail chunk).tailBudget = buffer.tailBudget ∧
      (buffer.pushToTail chunk).head = buffer.head ∧
      (buffer.pushToTail chunk).headBytes = buffer.headBytes := by
  rw [pushToTail]
  split
  · exact ⟨rfl, rfl, rfl, rfl, rfl⟩
  split
  · exact ⟨rfl, rfl, rfl, rfl, rfl⟩
  · exact ⟨rfl, rfl, rfl, rfl, rfl⟩

lemma KeepsTail.replace (h : buffer.KeepsTail rest) (hchunk : buffer.tailBudget ≤ chunk.length) :
    KeepsTail { buffer with
      omittedBytes := saturatingAdd (saturatingAdd buffer.omittedBytes buffer.tailBytes)
        (chunk.length - (chunk.drop (chunk.length - buffer.tailBudget)).length)
      tail := [chunk.drop (chunk.length - buffer.tailBudget)]
      tailBytes := (chunk.drop (chunk.length - buffer.tailBudget)).length } (rest ++ chunk) := by
  constructor
  · show [chunk.drop (chunk.length - buffer.tailBudget)].flatten =
      (rest ++ chunk).drop ((rest ++ chunk).length - buffer.tailBudget)
    rw [List.flatten_singleton, List.length_append, Nat.add_sub_assoc hchunk, List.drop_append,
      List.drop_of_length_le (Nat.le_add_right _ _), Nat.add_sub_cancel_left, List.nil_append]
  · show (chunk.drop (chunk.length - buffer.tailBudget)).length = min buffer.tailBudget (rest ++ chunk).length
    rw [List.length_drop, List.length_append]
    omega
  · show saturatingAdd (saturatingAdd buffer.omittedBytes buffer.tailBytes) _ = _
    rw [List.length_drop, List.length_append, h.omittedBytes, h.tailBytes]
    simp only [saturatingAdd]
    omega

/-- A smaller chunk goes behind the tail, which loses as many of its first bytes as it has too many. -/
lemma KeepsTail.extend (h : buffer.KeepsTail rest) (hbudget : 2 * buffer.tailBudget ≤ usizeMax + 1)
    (hchunk : chunk.length < buffer.tailBudget) :
    KeepsTail { buffer with
      tailBytes := saturatingAdd buffer.tailBytes chunk.length
      tail := buffer.tail ++ [chunk] }.trimTailToBudget (rest ++ chunk) := by
  have htailLength : buffer.tail.flatten.length = buffer.tailBytes := by
    rw [h.tail, h.tailBytes, List.length_drop]
    omega
  have htailBytes : saturatingAdd buffer.tailBytes chunk.length = buffer.tailBytes + chunk.length := by
    have := h.tailBytes
    simp only [saturatingAdd]
    omega
  have hlength : (buffer.tail ++ [chunk]).flatten.length = buffer.tailBytes + chunk.length := by
    rw [List.flatten_append, List.flatten_singleton, List.length_append, htailLength]
  have hexcess : buffer.tailBytes + chunk.length - buffer.tailBudget ≤ (buffer.tail ++ [chunk]).flatten.length := by
    omega
  have homitted : buffer.omittedBytes ≤ usizeMax := by
    rw [h.omittedBytes]
    exact Nat.min_le_right _ _
  obtain ⟨hflatten, hcounts⟩ := trimLoop_eq (buffer.tailBytes + chunk.length) hexcess homitted
  rw [trimTailToBudget]
  rw [htailBytes]
  constructor
  · show (trimLoop _ _ _ _).1.flatten = _
    have hdropped : rest.length - buffer.tailBudget + (buffer.tailBytes + chunk.length - buffer.tailBudget) =
        (rest ++ chunk).length - buffer.tailBudget := by
      rw [List.length_append, h.tailBytes]
      omega
    rw [hflatten, List.flatten_append, List.flatten_singleton, h.tail,
      ← List.drop_append_of_le_length (Nat.sub_le _ _), List.drop_drop, hdropped]
  · show (trimLoop _ _ _ _).2.1 = _
    rw [hcounts, List.length_append]
    have := h.tailBytes
    dsimp only
    omega
  · show (trimLoop _ _ _ _).2.2 = _
    rw [hcounts, List.length_append, h.omittedBytes, h.tailBytes]
    simp only [saturatingAdd]
    omega

lemma KeepsTail.pushToTail (h : buffer.KeepsTail rest) (hbudget : 2 * buffer.tailBudget ≤ usizeMax + 1)
    (chunk : Bytes) : (buffer.pushToTail chunk).KeepsTail (rest ++ chunk) := by
  rw [HeadTailBuffer.pushToTail]
  split
  · rename_i hzero
    constructor
    · show buffer.tail.flatten = (rest ++ chunk).drop ((rest ++ chunk).length - buffer.tailBudget)
      rw [h.tail, hzero, Nat.sub_zero, Nat.sub_zero, List.drop_length, List.drop_length]
    · show buffer.tailBytes = min buffer.tailBudget (rest ++ chunk).length
      rw [h.tailBytes, hzero, Nat.zero_min, Nat.zero_min]
    · show saturatingAdd buffer.omittedBytes chunk.length = min ((rest ++ chunk).length - buffer.tailBudget) usizeMax
      rw [h.omittedBytes, hzero, List.length_append]
      simp only [saturatingAdd]
      omega
  split
  · rename_i hchunk
    exact h.replace hchunk
  · rename_i hchunk
    exact h.extend hbudget (by omega)

/-! ## The whole buffer -/

lemma holds_new (maxBytes : ℕ) : Holds maxBytes [] (new maxBytes) where
  maxBytes_eq := rfl
  headBudget_eq := rfl
  tailBudget_eq := rfl
  head := List.take_nil.symm
  headBytes := (Nat.min_zero _).symm
  keepsTail := by
    rw [List.drop_nil]
    exact ⟨List.drop_nil.symm, (Nat.min_zero _).symm, by rw [List.length_nil, Nat.zero_sub, Nat.zero_min]; rfl⟩

section

variable (h : Holds maxBytes bytes buffer)
include h

section

variable (hmax : maxBytes ≤ usizeMax)
include hmax

lemma Holds.pushToHead (hfits : bytes.length + chunk.length ≤ maxBytes / 2) :
    Holds maxBytes (bytes ++ chunk)
      { buffer with
        headBytes := saturatingAdd buffer.headBytes chunk.length
        head := buffer.head ++ [chunk] } where
  maxBytes_eq := h.maxBytes_eq
  headBudget_eq := h.headBudget_eq
  tailBudget_eq := h.tailBudget_eq
  head := by
    show (buffer.head ++ [chunk]).flatten = (bytes ++ chunk).take (maxBytes / 2)
    rw [List.flatten_append, List.flatten_singleton, h.head, List.take_of_length_le (by omega),
      List.take_of_length_le (by rw [List.length_append]; omega)]
  headBytes := by
    show saturatingAdd buffer.headBytes chunk.length = min (maxBytes / 2) (bytes ++ chunk).length
    rw [h.headBytes, List.length_append, saturatingAdd]
    omega
  keepsTail := by
    have hrest := h.keepsTail
    rw [List.drop_of_length_le (by omega)] at hrest
    rw [List.drop_of_length_le (by rw [List.length_append]; omega)]
    exact ⟨hrest.tail, hrest.tailBytes, hrest.omittedBytes⟩

lemma Holds.pushToTail (hfull : maxBytes / 2 ≤ bytes.length) (chunk : Bytes) :
    Holds maxBytes (bytes ++ chunk) (buffer.pushToTail chunk) := by
  have hbudget : 2 * buffer.tailBudget ≤ usizeMax + 1 := by
    rw [h.tailBudget_eq]
    omega
  obtain ⟨hmaxBytes, hheadBudget, htailBudget, hhead, hheadBytes⟩ := buffer.pushToTail_frame chunk
  constructor
  · rw [hmaxBytes, h.maxBytes_eq]
  · rw [hheadBudget, h.headBudget_eq]
  · rw [htailBudget, h.tailBudget_eq]
  · rw [hhead, h.head, List.take_append_of_le_length hfull]
  · rw [hheadBytes, h.headBytes, List.length_append]
    omega
  · rw [List.drop_append_of_le_length hfull]
    exact h.keepsTail.pushToTail hbudget chunk

/-- Every push keeps what the buffer holds. -/
lemma Holds.pushChunk (chunk : Bytes) :
    Holds maxBytes (bytes ++ chunk) (buffer.pushChunk chunk) := by
  have hheadBytes := h.headBytes
  rw [HeadTailBuffer.pushChunk]
  by_cases hzero : buffer.maxBytes = 0
  · -- without a capacity the chunk is counted as one for the tail is
    have hnothing : maxBytes = 0 := h.maxBytes_eq.symm.trans hzero
    have htail : buffer.tailBudget = 0 := by
      rw [h.tailBudget_eq]
      omega
    have hpush := h.pushToTail hmax (by omega) chunk
    rw [HeadTailBuffer.pushToTail, if_pos htail] at hpush
    rw [if_pos hzero]
    exact hpush
  have hbudget := h.headBudget_eq
  rw [if_neg hzero]
  split
  · rename_i hroom
    have hlength : buffer.headBytes = bytes.length := by omega
    dsimp only
    split
    · exact h.pushToHead hmax (by omega)
    rename_i hlong
    have hpart : (chunk.take (buffer.headBudget - buffer.headBytes)).length =
        buffer.headBudget - buffer.headBytes :=
      List.length_take_of_le (Nat.le_of_not_le hlong)
    have hne : chunk.take (buffer.headBudget - buffer.headBytes) ≠ [] := by
      intro hnil
      rw [hnil, List.length_nil] at hpart
      omega
    have hfits : bytes.length + (chunk.take (buffer.headBudget - buffer.headBytes)).length ≤ maxBytes / 2 := by
      omega
    have hfull : maxBytes / 2 ≤ (bytes ++ chunk.take (buffer.headBudget - buffer.headBytes)).length := by
      rw [List.length_append]
      omega
    have hboth := (h.pushToHead hmax hfits).pushToTail hmax hfull
      (chunk.drop (buffer.headBudget - buffer.headBytes))
    rw [List.append_assoc, List.take_append_drop] at hboth
    rw [if_pos hne]
    exact hboth
  · exact h.pushToTail hmax (by omega) chunk

lemma Holds.pushChunks (chunks : List Bytes) :
    Holds maxBytes (bytes ++ chunks.flatten) (buffer.pushChunks chunks) := by
  induction chunks generalizing bytes buffer with
  | nil =>
    rw [List.flatten_nil, List.append_nil]
    exact h
  | cons chunk chunks ih =>
    have hrest := ih (h.pushChunk hmax chunk)
    rw [List.append_assoc] at hrest
    exact hrest

end

lemma Holds.toBytes :
    buffer.toBytes = (if bytes.length ≤ maxBytes then bytes
      else bytes.take (maxBytes / 2) ++ bytes.drop (bytes.length - (maxBytes - maxBytes / 2))) ∧
    buffer.omittedBytes = min (bytes.length - maxBytes) usizeMax := by
  have htail := h.keepsTail.tail
  have homitted := h.keepsTail.omittedBytes
  rw [h.tailBudget_eq, List.length_drop] at htail homitted
  constructor
  · rw [HeadTailBuffer.toBytes, h.head, htail, List.drop_drop]
    split
    · rename_i hfits
      rw [show bytes.length - maxBytes / 2 - (maxBytes - maxBytes / 2) = 0 by omega, Nat.add_zero,
        List.take_append_drop]
    · rename_i hlong
      congr 2
      omega
  · rw [homitted]
    omega

end

/-- A buffer of some capacity holds all of an input that fits. Of a longer one it holds the first half of the
capacity and the last bytes for the rest of it, and it counts the others, as far as the counter goes. -/
theorem head_and_tail_kept (maxBytes : ℕ) (hmax : maxBytes ≤ usizeMax) (chunks : List Bytes) :
    let buffer := (new maxBytes).pushChunks chunks
    let input := chunks.flatten
    buffer.toBytes = (if input.length ≤ maxBytes then input
      else input.take (maxBytes / 2) ++ input.drop (input.length - (maxBytes - maxBytes / 2))) ∧
    buffer.retainedBytes = buffer.toBytes.length ∧
    buffer.omittedBytes = min (input.length - buffer.toBytes.length) usizeMax := by
  intro buffer input
  have h : Holds maxBytes input buffer := (holds_new maxBytes).pushChunks hmax chunks
  obtain ⟨hbytes, homitted⟩ := h.toBytes
  have hlength : buffer.toBytes.length = min input.length maxBytes := by
    rw [hbytes]
    split
    · omega
    · rw [List.length_append, List.length_take, List.length_drop]
      omega
  refine ⟨hbytes, ?_, ?_⟩
  · have hheadBytes := h.headBytes
    have htailBytes := h.keepsTail.tailBytes
    rw [h.tailBudget_eq, List.length_drop] at htailBytes
    rw [retainedBytes, saturatingAdd, hlength, hheadBytes, htailBytes]
    omega
  · rw [homitted, hlength]
    congr 1
    omega

theorem head_and_tail_kept_small :
    10 ≤ usizeMax ∧ ((new 10).pushChunks [[0, 1, 2, 3, 4, 5, 6, 7], [8, 9, 10], [11]]).toBytes =
      [0, 1, 2, 3, 4, 7, 8, 9, 10, 11] := by
  have hmax : 10 ≤ usizeMax := by decide
  refine ⟨hmax, ?_⟩
  rw [(head_and_tail_kept 10 hmax _).1]
  decide

lemma omittedBytes_new_zero (chunks : List Bytes) :
    ((new 0).pushChunks chunks).omittedBytes = min chunks.flatten.length usizeMax ∧
      ((new 0).pushChunks chunks).toBytes.length = 0 := by
  have h : Holds 0 chunks.flatten ((new 0).pushChunks chunks) := (holds_new 0).pushChunks (Nat.zero_le _) chunks
  obtain ⟨hbytes, homitted⟩ := h.toBytes
  refine ⟨by rw [homitted, Nat.sub_zero], ?_⟩
  rw [hbytes]
  split
  · omega
  · rw [List.length_append, List.length_take, List.length_drop]
    omega

/-- The counter is not the number of bytes that were left out when there are too many of them, here of chunks of
one byte. -/
theorem omittedBytes_saturates :
    ∃ chunks : List Bytes, chunks = List.replicate (2 ^ 64) [0] ∧
      ((new 0).pushChunks chunks).omittedBytes ≠
        chunks.flatten.length - ((new 0).pushChunks chunks).toBytes.length := by
  refine ⟨_, rfl, ?_⟩
  generalize hchunks : List.replicate (2 ^ 64) [(0 : UInt8)] = chunks
  have hinput : chunks.flatten.length = 2 ^ 64 := by
    rw [← hchunks, List.flatten_replicate_singleton, List.length_replicate]
  obtain ⟨homitted, hnothing⟩ := omittedBytes_new_zero chunks
  rw [homitted, hnothing, hinput]
  decide

end HeadTailBuffer

end Supercodex.UnifiedExec
