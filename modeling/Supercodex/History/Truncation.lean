import Supercodex.Library.Text

/-!
# Truncation of long texts (`utils/string/src/truncate.rs`)

A text that is over its budget keeps a beginning and an end, cut at character boundaries, around
a marker that says how much is missing. Lengths are counted in bytes of the UTF-8 encoding.
-/

namespace Supercodex.History

/-- `usize::MAX` of a 64-bit target. -/
def usizeMax : ℕ := 2 ^ 64 - 1

/-- `usize::saturating_add`. -/
def saturatingAdd (a b : ℕ) : ℕ := min (a + b) usizeMax

/-- `usize::saturating_mul`. -/
def saturatingMul (a b : ℕ) : ℕ := min (a * b) usizeMax

/-- `str::len`. -/
def byteLen (t : Text) : ℕ := (t.map Char.utf8Size).sum

/-- `&s[..end]`, for an end at a character boundary. -/
def takeBytes : ℕ → Text → Text
  | _, [] => []
  | stop, c :: t => if c.utf8Size ≤ stop then c :: takeBytes (stop - c.utf8Size) t else []

/-- `&s[start..]`, for a start at a character boundary. -/
def dropBytes : ℕ → Text → Text
  | _, [] => []
  | 0, t => t
  | start, c :: t => dropBytes (start - c.utf8Size) t

/-! ## Budgets -/

def approxBytesPerToken : ℕ := 4

/-- `approx_token_count`. -/
def approxTokenCount (text : Text) : ℕ :=
  saturatingAdd (byteLen text) (approxBytesPerToken - 1) / approxBytesPerToken

/-- `approx_bytes_for_tokens`. -/
def approxBytesForTokens (tokens : ℕ) : ℕ := saturatingMul tokens approxBytesPerToken

/-- `approx_tokens_from_byte_count`. -/
def approxTokensFromByteCount (bytes : ℕ) : ℕ :=
  saturatingAdd bytes (approxBytesPerToken - 1) / approxBytesPerToken

/-- `TruncationPolicy`. -/
inductive TruncationPolicy where
  | bytes (n : ℕ)
  | tokens (n : ℕ)
deriving DecidableEq

/-- `TruncationPolicy::token_budget`. -/
def TruncationPolicy.tokenBudget : TruncationPolicy → ℕ
  | .bytes n => approxTokensFromByteCount n
  | .tokens n => n

/-- `TruncationPolicy::byte_budget`. -/
def TruncationPolicy.byteBudget : TruncationPolicy → ℕ
  | .bytes n => n
  | .tokens n => approxBytesForTokens n

/-! ## Cutting the middle out -/

/-- The variables of the loop in `split_string`. -/
structure SplitState where
  /-- Byte offset of the character the loop looks at. -/
  idx : ℕ
  prefixEnd : ℕ
  suffixStart : ℕ
  suffixStarted : Bool
  removedChars : ℕ
deriving DecidableEq

/-- One turn of the loop in `split_string`. -/
def SplitState.step (beginningBytes tailStartTarget : ℕ) (s : SplitState) (c : Char) :
    SplitState :=
  let charEnd := s.idx + c.utf8Size
  if charEnd ≤ beginningBytes then
    { s with idx := charEnd, prefixEnd := charEnd }
  else if tailStartTarget ≤ s.idx then
    if s.suffixStarted then
      { s with idx := charEnd }
    else
      { s with idx := charEnd, suffixStart := s.idx, suffixStarted := true }
  else
    { s with idx := charEnd, removedChars := saturatingAdd s.removedChars 1 }

/-- `split_string`: the number of characters removed and the two texts around them. -/
def splitString (s : Text) (beginningBytes endBytes : ℕ) : ℕ × Text × Text :=
  if s = [] then (0, [], [])
  else
    let len := byteLen s
    let final := s.foldl (SplitState.step beginningBytes (len - endBytes)) ⟨0, 0, len, false, 0⟩
    let suffixStart :=
      if final.suffixStart < final.prefixEnd then final.prefixEnd else final.suffixStart
    (final.removedChars, takeBytes final.prefixEnd s, dropBytes suffixStart s)

/-- `split_budget`. -/
def splitBudget (budget : ℕ) : ℕ × ℕ := (budget / 2, budget - budget / 2)

/-- `format_truncation_marker`. -/
def formatTruncationMarker (useTokens : Bool) (removedCount : ℕ) : Text :=
  if useTokens then
    "…".toList ++ Nat.toDigits 10 removedCount ++ " tokens truncated…".toList
  else
    "…".toList ++ Nat.toDigits 10 removedCount ++ " chars truncated…".toList

/-- `removed_units`. -/
def removedUnits (useTokens : Bool) (removedBytes removedChars : ℕ) : ℕ :=
  if useTokens then approxTokensFromByteCount removedBytes else removedChars

/-- `truncate_with_byte_estimate`. -/
def truncateWithByteEstimate (s : Text) (maxBytes : ℕ) (useTokens : Bool) : Text :=
  if s = [] then []
  else if maxBytes = 0 then
    formatTruncationMarker useTokens (removedUnits useTokens (byteLen s) s.length)
  else if byteLen s ≤ maxBytes then s
  else
    let (leftBudget, rightBudget) := splitBudget maxBytes
    let (removedChars, left, right) := splitString s leftBudget rightBudget
    let marker := formatTruncationMarker useTokens
      (removedUnits useTokens (byteLen s - maxBytes) removedChars)
    left ++ marker ++ right

/-- `truncate_middle_chars`. -/
def truncateMiddleChars (s : Text) (maxBytes : ℕ) : Text :=
  truncateWithByteEstimate s maxBytes false

/-- `truncate_middle_with_token_budget`. -/
def truncateMiddleWithTokenBudget (s : Text) (maxTokens : ℕ) : Text × Option ℕ :=
  if s = [] then ([], none)
  else if 0 < maxTokens && byteLen s ≤ approxBytesForTokens maxTokens then (s, none)
  else
    let truncated := truncateWithByteEstimate s (approxBytesForTokens maxTokens) true
    if truncated = s then (truncated, none) else (truncated, some (approxTokenCount s))

/-- `truncate_text`. -/
def truncateText (content : Text) : TruncationPolicy → Text
  | .bytes n => truncateMiddleChars content n
  | .tokens n => (truncateMiddleWithTokenBudget content n).1

end Supercodex.History
