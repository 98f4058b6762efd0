import Supercodex.History.Truncation

/-!
# Cutting the middle out

A truncated text is its longest beginning and its longest end within the two halves of the budget, around a
marker. The loop over the characters finds both and counts what lies between them.
-/

namespace Supercodex.History

open Text SplitState

/-! ## Beginning, middle and end -/

/-- The text in three parts. The first one is the longest beginning within a budget, and the last one the
longest end within another. -/
structure Middle (s : Text) (leftBudget rightBudget : ℕ) (left middle right : Text) : Prop where
  parts : s = left ++ middle ++ right
  left_le : byteLen left ≤ leftBudget
  right_le : byteLen right ≤ rightBudget
  left_longest : ∀ t, t <+: s → byteLen t ≤ leftBudget → t <+: left
  right_longest : ∀ t, t <:+ s → byteLen t ≤ rightBudget → t <:+ right

/-- What the marker counts of a removed text. -/
def removedCount (useTokens : Bool) (middle : Text) : ℕ :=
  if useTokens then approxTokensFromByteCount (byteLen middle) else middle.length

/-- A text cut to a budget: the beginning and the end, and a marker for what is missing. -/
def CutTo (s : Text) (maxBytes : ℕ) (useTokens : Bool) (out : Text) : Prop :=
  ∃ left middle right, Middle s (maxBytes / 2) (maxBytes - maxBytes / 2) left middle right ∧
    out = left ++ formatTruncationMarker useTokens (removedCount useTokens middle) ++ right

variable {s t u left middle right : Text} {leftBudget rightBudget : ℕ}

/-! ## Lengths in bytes -/

@[simp] lemma byteLen_nil : byteLen [] = 0 := rfl

@[simp] lemma byteLen_cons (c : Char) (t : Text) : byteLen (c :: t) = c.utf8Size + byteLen t := by
  rw [byteLen, List.map_cons, List.sum_cons]
  rfl

@[simp] lemma byteLen_append (t u : Text) : byteLen (t ++ u) = byteLen t + byteLen u := by
  rw [byteLen, List.map_append, List.sum_append]
  rfl

lemma length_le_byteLen (t : Text) : t.length ≤ byteLen t := by
  induction t with
  | nil => exact le_rfl
  | cons c t ih =>
    have hpos := c.utf8Size_pos
    rw [List.length_cons, byteLen_cons]
    omega

lemma eq_nil_of_byteLen (h : byteLen t = 0) : t = [] :=
  List.eq_nil_of_length_eq_zero (Nat.le_zero.mp (h ▸ length_le_byteLen t))

lemma initial_of_byteLen_le (ht : t <+: s) (hu : u <+: s) (hle : byteLen t ≤ byteLen u) : t <+: u := by
  rcases List.prefix_or_prefix_of_prefix ht hu with h | ⟨rest, rfl⟩
  · exact h
  · rw [byteLen_append] at hle
    have hrest : rest = [] := eq_nil_of_byteLen (by omega)
    rw [hrest, List.append_nil]

lemma takeBytes_byteLen (t u : Text) : takeBytes (byteLen t) (t ++ u) = t := by
  induction t with
  | nil =>
    cases u with
    | nil => rfl
    | cons c u =>
      have hpos := c.utf8Size_pos
      rw [List.nil_append, takeBytes, byteLen_nil, if_neg (by omega)]
  | cons c t ih =>
    rw [List.cons_append, takeBytes, byteLen_cons, if_pos (by omega), Nat.add_sub_cancel_left, ih]

lemma dropBytes_byteLen (t u : Text) : dropBytes (byteLen t) (t ++ u) = u := by
  induction t with
  | nil => cases u <;> rfl
  | cons c t ih =>
    have hpos := c.utf8Size_pos
    obtain ⟨n, hn⟩ : ∃ n, byteLen (c :: t) = n + 1 := ⟨byteLen (c :: t) - 1, by rw [byteLen_cons]; omega⟩
    have hrest : n + 1 - c.utf8Size = byteLen t := by
      rw [← hn, byteLen_cons]
      omega
    rw [List.cons_append, hn, dropBytes, hrest, ih]
    exact fun h => absurd h (Nat.succ_ne_zero n)

/-! ## The beginning -/

lemma takeBytes_initial (n : ℕ) (s : Text) : takeBytes n s <+: s := by
  induction s generalizing n with
  | nil => exact List.nil_prefix
  | cons c s ih =>
    rw [takeBytes]
    split
    · exact List.cons_prefix_cons.mpr ⟨rfl, ih _⟩
    · exact List.nil_prefix

lemma byteLen_takeBytes_le (n : ℕ) (s : Text) : byteLen (takeBytes n s) ≤ n := by
  induction s generalizing n with
  | nil => exact Nat.zero_le n
  | cons c s ih =>
    rw [takeBytes]
    split
    · have hrest := ih (n - c.utf8Size)
      rw [byteLen_cons]
      omega
    · exact Nat.zero_le n

lemma takeBytes_longest {n : ℕ} (ht : t <+: s) (hle : byteLen t ≤ n) : t <+: takeBytes n s := by
  induction s generalizing t n with
  | nil => exact ht
  | cons c s ih =>
    cases t with
    | nil => exact List.nil_prefix
    | cons d t =>
      obtain ⟨rfl, hrest⟩ := List.cons_prefix_cons.mp ht
      rw [byteLen_cons] at hle
      rw [takeBytes, if_pos (by omega)]
      exact List.cons_prefix_cons.mpr ⟨rfl, ih hrest (by omega)⟩

lemma lt_byteLen_next {n : ℕ} {c : Char} (h : s = takeBytes n s ++ c :: t) :
    n < byteLen (takeBytes n s) + c.utf8Size := by
  by_contra hfits
  have hnext : takeBytes n s ++ [c] <+: s := ⟨t, by rw [List.append_assoc]; exact h.symm⟩
  have hle : byteLen (takeBytes n s ++ [c]) ≤ n := by
    rw [byteLen_append, byteLen_cons, byteLen_nil]
    omega
  have hlonger := (takeBytes_longest hnext hle).length_le
  rw [List.length_append, List.length_singleton] at hlonger
  omega

/-! ## The end -/

/-- The characters that begin before an offset, and those from it on. -/
def splitOffset (target : ℕ) : ℕ → Text → Text × Text
  | _, [] => ([], [])
  | idx, c :: t =>
    if target ≤ idx then ([], c :: t)
    else (c :: (splitOffset target (idx + c.utf8Size) t).1, (splitOffset target (idx + c.utf8Size) t).2)

variable {target : ℕ}

lemma splitOffset_append (target idx : ℕ) (t : Text) :
    (splitOffset target idx t).1 ++ (splitOffset target idx t).2 = t := by
  induction t generalizing idx with
  | nil => rfl
  | cons c t ih =>
    rw [splitOffset]
    split
    · rfl
    · exact congrArg (c :: ·) (ih _)

lemma lt_of_splitOffset {idx : ℕ} {before after : Text} {c : Char}
    (h : (splitOffset target idx t).1 = before ++ c :: after) : idx + byteLen before < target := by
  induction t generalizing idx before with
  | nil => exact absurd h.symm (List.append_ne_nil_of_right_ne_nil _ (List.cons_ne_nil _ _))
  | cons d t ih =>
    rw [splitOffset] at h
    split at h
    · exact absurd h.symm (List.append_ne_nil_of_right_ne_nil _ (List.cons_ne_nil _ _))
    rename_i hlt
    cases before with
    | nil =>
      rw [byteLen_nil]
      omega
    | cons e before =>
      obtain ⟨rfl, hrest⟩ := List.cons.inj h
      have hlater := ih hrest
      rw [byteLen_cons]
      omega

lemma splitOffset_snd (target idx : ℕ) (t : Text) :
    (splitOffset target idx t).2 = [] ∨ target ≤ idx + byteLen (splitOffset target idx t).1 := by
  induction t generalizing idx with
  | nil => exact .inl rfl
  | cons c t ih =>
    rw [splitOffset]
    split
    · exact .inr (by assumption)
    · rw [byteLen_cons, ← Nat.add_assoc]
      exact ih _

/-! ## The loop -/

variable {beginningBytes : ℕ}

lemma foldl_step_beginning (st : SplitState) (hend : st.prefixEnd = st.idx)
    (hfits : st.idx + byteLen t ≤ beginningBytes) :
    t.foldl (step beginningBytes target) st =
      { st with idx := st.idx + byteLen t, prefixEnd := st.idx + byteLen t } := by
  induction t generalizing st with
  | nil =>
    obtain ⟨idx, prefixEnd, suffixStart, suffixStarted, removedChars⟩ := st
    obtain rfl : prefixEnd = idx := hend
    rfl
  | cons c t ih =>
    rw [byteLen_cons, ← Nat.add_assoc] at hfits
    have hstep : step beginningBytes target st c =
        { st with idx := st.idx + c.utf8Size, prefixEnd := st.idx + c.utf8Size } :=
      if_pos (by omega)
    rw [List.foldl_cons, hstep, ih _ rfl hfits, byteLen_cons, ← Nat.add_assoc]

lemma foldl_step_started (st : SplitState) (hbeginning : beginningBytes < target) (htarget : target ≤ st.idx)
    (hstarted : st.suffixStarted = true) :
    t.foldl (step beginningBytes target) st = { st with idx := st.idx + byteLen t } := by
  induction t generalizing st with
  | nil => rfl
  | cons c t ih =>
    have hstep : step beginningBytes target st c = { st with idx := st.idx + c.utf8Size } := by
      rw [step, if_neg (by omega), if_pos htarget, if_pos hstarted]
    have hlater : target ≤ st.idx + c.utf8Size := by omega
    rw [List.foldl_cons, hstep, ih { st with idx := st.idx + c.utf8Size } hlater hstarted, byteLen_cons, ← Nat.add_assoc]

/-- Behind the beginning, characters are counted as removed up to the offset where the end may begin. -/
lemma foldl_step_rest (st : SplitState) (hbeginning : beginningBytes < target) (hstarted : st.suffixStarted = false)
    (hcount : st.removedChars ≤ usizeMax) (hnext : ∀ c ∈ t.head?, beginningBytes < st.idx + c.utf8Size) :
    (t.foldl (step beginningBytes target) st).prefixEnd = st.prefixEnd ∧
      (t.foldl (step beginningBytes target) st).suffixStart =
        (if (splitOffset target st.idx t).2 = [] then st.suffixStart
          else st.idx + byteLen (splitOffset target st.idx t).1) ∧
      (t.foldl (step beginningBytes target) st).removedChars =
        min (st.removedChars + (splitOffset target st.idx t).1.length) usizeMax := by
  induction t generalizing st with
  | nil => exact ⟨rfl, rfl, (Nat.min_eq_left hcount).symm⟩
  | cons c t ih =>
    have hover := hnext c rfl
    rw [List.foldl_cons, splitOffset]
    by_cases htarget : target ≤ st.idx
    · have hstep : step beginningBytes target st c =
          { st with idx := st.idx + c.utf8Size, suffixStart := st.idx, suffixStarted := true } := by
        rw [step, if_neg (by omega), if_pos htarget, if_neg (by rw [hstarted]; exact Bool.false_ne_true)]
      have hlater : target ≤ st.idx + c.utf8Size := by omega
      rw [hstep, foldl_step_started _ hbeginning hlater rfl, if_pos htarget, if_neg (List.cons_ne_nil c t)]
      exact ⟨rfl, rfl, (Nat.min_eq_left hcount).symm⟩
    · have hstep : step beginningBytes target st c =
          { st with idx := st.idx + c.utf8Size, removedChars := saturatingAdd st.removedChars 1 } := by
        rw [step, if_neg (by omega), if_neg htarget]
      have hlater : ∀ d ∈ t.head?, beginningBytes < st.idx + c.utf8Size + d.utf8Size := fun d _ => by omega
      have hmore : saturatingAdd st.removedChars 1 ≤ usizeMax := Nat.min_le_right _ _
      obtain ⟨hend, hsuffix, hremoved⟩ :=
        ih { st with idx := st.idx + c.utf8Size, removedChars := saturatingAdd st.removedChars 1 } hstarted hmore hlater
      rw [hstep, if_neg htarget]
      refine ⟨hend, ?_, ?_⟩
      · rw [hsuffix, byteLen_cons, Nat.add_assoc]
      · have hsum (most : ℕ) (n k : ℕ) : min (min (n + 1) most + k) most = min (n + (k + 1)) most := by omega
        rw [hremoved, List.length_cons]
        exact hsum usizeMax _ _

/-! ## The three parts -/

/-- The beginning and the part behind it up to the offset, with what remains, are the three parts. -/
lemma middle_splitOffset {rest : Text} (hlong : leftBudget + rightBudget < byteLen s)
    (hrest : takeBytes leftBudget s ++ rest = s) :
    Middle s leftBudget rightBudget (takeBytes leftBudget s)
      (splitOffset (byteLen s - rightBudget) (byteLen (takeBytes leftBudget s)) rest).1
      (splitOffset (byteLen s - rightBudget) (byteLen (takeBytes leftBudget s)) rest).2 := by
  have hleft := byteLen_takeBytes_le leftBudget s
  have hinitial := takeBytes_initial leftBudget s
  have hlongest : ∀ t, t <+: s → byteLen t ≤ leftBudget → t <+: takeBytes leftBudget s :=
    fun t ht hle => takeBytes_longest ht hle
  generalize takeBytes leftBudget s = left at *
  have happend := splitOffset_append (byteLen s - rightBudget) (byteLen left) rest
  have hbefore {before after : Text} {c : Char}
      (h : (splitOffset (byteLen s - rightBudget) (byteLen left) rest).1 = before ++ c :: after) :=
    lt_of_splitOffset h
  have hsnd := splitOffset_snd (byteLen s - rightBudget) (byteLen left) rest
  generalize (splitOffset (byteLen s - rightBudget) (byteLen left) rest).1 = middle at *
  generalize (splitOffset (byteLen s - rightBudget) (byteLen left) rest).2 = right at *
  have hparts : s = left ++ middle ++ right := by rw [List.append_assoc, happend, hrest]
  have hlength : byteLen s = byteLen left + byteLen middle + byteLen right := by
    rw [hparts, byteLen_append, byteLen_append]
  refine ⟨hparts, hleft, ?_, hlongest, ?_⟩
  · rcases hsnd with hnil | hreached
    · rw [hnil]
      exact Nat.zero_le _
    · omega
  · rintro t ⟨x, hx⟩ hle
    have hxLength : byteLen s = byteLen x + byteLen t := by rw [← hx, byteLen_append]
    have hxInitial : x <+: s := ⟨t, hx⟩
    have hreaches : byteLen (left ++ middle) ≤ byteLen x := by
      by_contra hshort
      -- a boundary within the removed part, at or behind the offset
      have hwithin := initial_of_byteLen_le hxInitial ⟨right, hparts.symm⟩ (by omega)
      obtain ⟨m, rfl⟩ := initial_of_byteLen_le hinitial hxInitial (by omega)
      obtain ⟨y, hy⟩ := (List.prefix_append_right_inj left).mp hwithin
      rw [byteLen_append] at hxLength
      rw [byteLen_append, byteLen_append, ← hy, byteLen_append] at hshort
      cases y with
      | nil =>
        rw [byteLen_nil] at hshort
        omega
      | cons c y =>
        have hlt := hbefore hy.symm
        omega
    obtain ⟨y, hy⟩ := initial_of_byteLen_le ⟨right, hparts.symm⟩ hxInitial hreaches
    have hcancel : left ++ middle ++ (y ++ t) = left ++ middle ++ right := by
      rw [← List.append_assoc, hy, hx, hparts]
    exact ⟨y, List.append_cancel_left hcancel⟩

/-- `split_string` finds the three parts and counts the characters of the middle one. -/
lemma splitString_middle (hlong : leftBudget + rightBudget < byteLen s) :
    ∃ middle, Middle s leftBudget rightBudget (splitString s leftBudget rightBudget).2.1 middle
        (splitString s leftBudget rightBudget).2.2 ∧
      (splitString s leftBudget rightBudget).1 = min middle.length usizeMax := by
  have hne : s ≠ [] := by
    rintro rfl
    rw [byteLen_nil] at hlong
    omega
  obtain ⟨rest, hrest⟩ := takeBytes_initial leftBudget s
  have hmiddle := middle_splitOffset hlong hrest
  have hbeginning : leftBudget < byteLen s - rightBudget := by omega
  have hnext : ∀ c ∈ rest.head?, leftBudget < byteLen (takeBytes leftBudget s) + c.utf8Size := by
    intro c hc
    obtain ⟨t, rfl⟩ : ∃ t, rest = c :: t := by
      cases rest with
      | nil => cases hc
      | cons d t =>
        cases hc
        exact ⟨t, rfl⟩
    exact lt_byteLen_next hrest.symm
  have hstart : (takeBytes leftBudget s).foldl (step leftBudget (byteLen s - rightBudget))
      ⟨0, 0, byteLen s, false, 0⟩ =
        ⟨byteLen (takeBytes leftBudget s), byteLen (takeBytes leftBudget s), byteLen s, false, 0⟩ := by
    rw [foldl_step_beginning _ rfl (by rw [Nat.zero_add]; exact byteLen_takeBytes_le leftBudget s), Nat.zero_add]
  have hfold : s.foldl (step leftBudget (byteLen s - rightBudget)) ⟨0, 0, byteLen s, false, 0⟩ =
      rest.foldl (step leftBudget (byteLen s - rightBudget))
        ⟨byteLen (takeBytes leftBudget s), byteLen (takeBytes leftBudget s), byteLen s, false, 0⟩ := by
    rw [← hstart, ← List.foldl_append, hrest]
  obtain ⟨hend, hsuffix, hremoved⟩ := foldl_step_rest
    ⟨byteLen (takeBytes leftBudget s), byteLen (takeBytes leftBudget s), byteLen s, false, 0⟩ hbeginning rfl
    (Nat.zero_le _) hnext
  rw [splitString, if_neg hne]
  dsimp only
  rw [hfold, hend, hsuffix, hremoved, Nat.zero_add]
  generalize splitOffset (byteLen s - rightBudget) (byteLen (takeBytes leftBudget s)) rest = parts at *
  obtain ⟨middle, right⟩ := parts
  have hlength : byteLen s = byteLen (takeBytes leftBudget s) + byteLen middle + byteLen right := by
    conv_lhs => rw [hmiddle.parts, byteLen_append, byteLen_append]
  have hbegin : takeBytes (byteLen (takeBytes leftBudget s)) s = takeBytes leftBudget s := by
    have hwhole := takeBytes_byteLen (takeBytes leftBudget s) rest
    rwa [hrest] at hwhole
  have hstop : dropBytes (if right = [] then byteLen s else byteLen (takeBytes leftBudget s) + byteLen middle) s =
      right := by
    split
    · rename_i hnil
      have hall := dropBytes_byteLen s []
      rwa [List.append_nil, ← hnil] at hall
    · have hrest := dropBytes_byteLen (takeBytes leftBudget s ++ middle) right
      rwa [← hmiddle.parts, byteLen_append] at hrest
  have hnot : ¬(if right = [] then byteLen s else byteLen (takeBytes leftBudget s) + byteLen middle) <
      byteLen (takeBytes leftBudget s) := by
    split <;> omega
  refine ⟨middle, ?_, rfl⟩
  rw [if_neg hnot, hbegin, hstop]
  exact hmiddle

/-! ## Truncated texts -/

lemma formatTruncationMarker_injective (useTokens : Bool) : Function.Injective (formatTruncationMarker useTokens) := by
  intro m n h
  cases useTokens with
  | false | true => exact toDigits_injective (List.append_cancel_left (List.append_cancel_right h))

lemma Middle.unique {left' middle' right' : Text} (h : Middle s leftBudget rightBudget left middle right)
    (h' : Middle s leftBudget rightBudget left' middle' right') : left = left' ∧ middle = middle' ∧ right = right' := by
  have hinitial : left <+: s := ⟨middle ++ right, by rw [← List.append_assoc, ← h.parts]⟩
  have hinitial' : left' <+: s := ⟨middle' ++ right', by rw [← List.append_assoc, ← h'.parts]⟩
  have hfinal : right <:+ s := ⟨left ++ middle, h.parts.symm⟩
  have hfinal' : right' <:+ s := ⟨left' ++ middle', h'.parts.symm⟩
  have hleft : left = left' :=
    (h'.left_longest left hinitial h.left_le).eq_of_length_le (h.left_longest left' hinitial' h'.left_le).length_le
  have hright : right = right' :=
    (h'.right_longest right hfinal h.right_le).eq_of_length_le (h.right_longest right' hfinal' h'.right_le).length_le
  subst hleft hright
  have hparts : left ++ middle ++ right = left ++ middle' ++ right := h.parts.symm.trans h'.parts
  exact ⟨rfl, List.append_cancel_left (List.append_cancel_right hparts), rfl⟩

/-- A truncated text is the beginning and the end around a marker. Its count is that of the removed characters,
or an estimate from the bytes over the budget. -/
lemma truncateWithByteEstimate_eq {maxBytes : ℕ} (hs : byteLen s ≤ usizeMax) (hlong : maxBytes < byteLen s)
    (useTokens : Bool) :
    ∃ left middle right, Middle s (maxBytes / 2) (maxBytes - maxBytes / 2) left middle right ∧
      truncateWithByteEstimate s maxBytes useTokens = left ++ formatTruncationMarker useTokens
        (if useTokens then approxTokensFromByteCount (byteLen s - maxBytes) else middle.length) ++ right := by
  have hne : s ≠ [] := by
    rintro rfl
    cases hlong
  rw [truncateWithByteEstimate, if_neg hne]
  split
  · rename_i hzero
    refine ⟨[], s, [], ⟨by rw [List.nil_append, List.append_nil], Nat.zero_le _, Nat.zero_le _, ?_, ?_⟩, ?_⟩
    · intro t _ hle
      rw [hzero] at hle
      rw [eq_nil_of_byteLen (Nat.le_zero.mp hle)]
    · intro t _ hle
      rw [hzero] at hle
      rw [eq_nil_of_byteLen (Nat.le_zero.mp hle)]
    · rw [hzero, Nat.sub_zero, List.nil_append, List.append_nil]
      rfl
  · rw [if_neg (by omega)]
    have hbudgets : maxBytes / 2 + (maxBytes - maxBytes / 2) < byteLen s := by omega
    obtain ⟨middle, hmiddle, hremoved⟩ := splitString_middle hbudgets
    refine ⟨_, middle, _, hmiddle, ?_⟩
    have hfits : middle.length ≤ usizeMax := by
      have hle := length_le_byteLen middle
      have hlength : byteLen s = _ := congrArg byteLen hmiddle.parts
      rw [byteLen_append, byteLen_append] at hlength
      omega
    rw [Nat.min_eq_left hfits] at hremoved
    show _ ++ formatTruncationMarker useTokens (removedUnits useTokens _ (splitString s _ _).1) ++ _ = _
    rw [hremoved]
    rfl

/-- The tokens of the bytes over the budget are as many as those of the removed bytes: characters that do not
fit into the two halves of the budget do not make it one more. -/
def EstimatesAlike (s : Text) (maxBytes : ℕ) : Prop :=
  ∀ left middle right, Middle s (maxBytes / 2) (maxBytes - maxBytes / 2) left middle right →
    approxTokensFromByteCount (byteLen s - maxBytes) = approxTokensFromByteCount (byteLen middle)

/-- A text over its budget in characters is cut to it. One over its budget in tokens is cut as well, but the
marker tells the estimate for the removed text exactly if that is the one for the bytes over the budget. -/
theorem truncate_middle_exact (s : Text) (hs : byteLen s ≤ usizeMax) :
    (∀ maxBytes < byteLen s, CutTo s maxBytes false (truncateMiddleChars s maxBytes)) ∧
      ∀ maxTokens, approxBytesForTokens maxTokens < byteLen s →
        (CutTo s (approxBytesForTokens maxTokens) true (truncateMiddleWithTokenBudget s maxTokens).1 ↔
          EstimatesAlike s (approxBytesForTokens maxTokens)) := by
  constructor
  · intro maxBytes hlong
    obtain ⟨left, middle, right, hmiddle, heq⟩ := truncateWithByteEstimate_eq hs hlong false
    exact ⟨left, middle, right, hmiddle, heq⟩
  · intro maxTokens hlong
    have hne : s ≠ [] := by
      rintro rfl
      cases hlong
    have hover : ¬(0 < maxTokens && byteLen s ≤ approxBytesForTokens maxTokens) = true := by
      simp [hlong]
    have hresult : (truncateMiddleWithTokenBudget s maxTokens).1 =
        truncateWithByteEstimate s (approxBytesForTokens maxTokens) true := by
      rw [truncateMiddleWithTokenBudget, if_neg hne, if_neg hover]
      dsimp only
      split <;> rfl
    obtain ⟨left, middle, right, hmiddle, heq⟩ := truncateWithByteEstimate_eq hs hlong true
    rw [hresult, heq, if_pos rfl]
    constructor
    · rintro ⟨left', middle', right', hmiddle', hout⟩ left'' middle'' right'' hmiddle''
      obtain ⟨rfl, rfl, rfl⟩ := hmiddle.unique hmiddle'
      obtain ⟨rfl, rfl, rfl⟩ := hmiddle.unique hmiddle''
      exact formatTruncationMarker_injective true (List.append_cancel_left (List.append_cancel_right hout))
    · intro halike
      refine ⟨left, middle, right, hmiddle, ?_⟩
      rw [halike left middle right hmiddle]
      rfl

theorem truncate_middle_exact_ascii :
    byteLen "hello world".toList ≤ usizeMax ∧ 10 < byteLen "hello world".toList ∧
      CutTo "hello world".toList 10 false (truncateMiddleChars "hello world".toList 10) := by
  have hs : byteLen "hello world".toList ≤ usizeMax := by decide
  have hlong : 10 < byteLen "hello world".toList := by decide
  exact ⟨hs, hlong, (truncate_middle_exact _ hs).1 10 hlong⟩

/-- Nothing of four characters of three bytes fits into halves of two bytes, and the marker tells the tokens of
eight bytes where twelve were removed. -/
theorem marker_for_fewer_bytes :
    let s := "中中中中".toList
    approxBytesForTokens 1 < byteLen s ∧ (truncateMiddleWithTokenBudget s 1).1 = "…2 tokens truncated…".toList ∧
      removedCount true s = 3 ∧ ¬CutTo s (approxBytesForTokens 1) true (truncateMiddleWithTokenBudget s 1).1 := by
  intro s
  have hresult : (truncateMiddleWithTokenBudget s 1).1 = "…2 tokens truncated…".toList := by decide
  refine ⟨by decide, hresult, by decide, ?_⟩
  rintro ⟨left, middle, right, hmiddle, hout⟩
  have hchars : ∀ c ∈ List.replicate 4 '中', c = '中' := fun c hc => List.eq_of_mem_replicate hc
  have hnone : ∀ t : Text, (∀ c ∈ t, c ∈ s) → byteLen t ≤ 2 → t = [] := by
    intro t ht hle
    cases t with
    | nil => rfl
    | cons c t =>
      have hsize : '中'.utf8Size = 3 := by decide
      rw [byteLen_cons, hchars c (ht c List.mem_cons_self), hsize] at hle
      omega
  have hparts := hmiddle.parts
  have hleft : left = [] := hnone left (fun c hc => by rw [hparts]; simp [hc]) hmiddle.left_le
  have hright : right = [] := hnone right (fun c hc => by rw [hparts]; simp [hc]) hmiddle.right_le
  rw [hleft, hright, List.nil_append, List.append_nil] at hparts
  rw [hresult, hleft, hright, ← hparts] at hout
  exact absurd hout (by decide)

end Supercodex.History
