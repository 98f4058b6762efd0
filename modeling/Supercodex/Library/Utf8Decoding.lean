import Supercodex.Library.Utf8

/-!
# Reading bytes as text

The validation of UTF-8 with its two kinds of errors: a sequence that no further byte repairs, and the start
of a sequence at the end of the bytes.
-/

namespace Supercodex.Utf8

/-- `str::Utf8Error`: there is no `error_len` where the bytes end within a sequence. -/
structure Utf8Error where
  validUpTo : ℕ
  errorLen : Option ℕ
deriving DecidableEq

/-! ## Sequences -/

/-- Bytes between two bounds. -/
def within (low high : ℕ) (b : UInt8) : Bool := low ≤ b.toNat && b.toNat ≤ high

/-- `utf8_char_width`: how long the sequence is that a byte starts, and 0 for a byte that starts none. -/
def charWidth (first : UInt8) : ℕ :=
  if within 0x00 0x7F first then 1
  else if within 0xC2 0xDF first then 2
  else if within 0xE0 0xEF first then 3
  else if within 0xF0 0xF4 first then 4
  else 0

/-- The bytes that go on a sequence. -/
def isContinuation (b : UInt8) : Bool := within 0x80 0xBF b

/-- The second byte of a longer sequence: it leaves out overlong forms, surrogates and what lies beyond the
last character. -/
def isSecond (first second : UInt8) : Bool :=
  if first.toNat = 0xE0 then within 0xA0 0xBF second
  else if first.toNat = 0xED then within 0x80 0x9F second
  else if first.toNat = 0xF0 then within 0x90 0xBF second
  else if first.toNat = 0xF4 then within 0x80 0x8F second
  else isContinuation second

/-- The character of two bytes. -/
def char₂ (a b : UInt8) : Char := Char.ofNat (a.toNat % 32 * 64 + b.toNat % 64)

/-- The character of three bytes. -/
def char₃ (a b c : UInt8) : Char := Char.ofNat (a.toNat % 16 * 4096 + b.toNat % 64 * 64 + c.toNat % 64)

/-- The character of four bytes. -/
def char₄ (a b c d : UInt8) : Char :=
  Char.ofNat (a.toNat % 8 * 262144 + b.toNat % 64 * 4096 + c.toNat % 64 * 64 + d.toNat % 64)

/-- `run_utf8_validation`, with the text that the bytes stand for. -/
def decodeFrom (index : ℕ) : Bytes → Except Utf8Error Text
  | [] => .ok []
  | a :: rest =>
    match charWidth a with
    | 1 => (Char.ofNat a.toNat :: ·) <$> decodeFrom (index + 1) rest
    | 2 =>
      match rest with
      | [] => .error ⟨index, none⟩
      | b :: rest =>
        if isContinuation b then (char₂ a b :: ·) <$> decodeFrom (index + 2) rest
        else .error ⟨index, some 1⟩
    | 3 =>
      match rest with
      | [] => .error ⟨index, none⟩
      | b :: rest =>
        if isSecond a b then
          match rest with
          | [] => .error ⟨index, none⟩
          | c :: rest =>
            if isContinuation c then (char₃ a b c :: ·) <$> decodeFrom (index + 3) rest
            else .error ⟨index, some 2⟩
        else .error ⟨index, some 1⟩
    | 4 =>
      match rest with
      | [] => .error ⟨index, none⟩
      | b :: rest =>
        if isSecond a b then
          match rest with
          | [] => .error ⟨index, none⟩
          | c :: rest =>
            if isContinuation c then
              match rest with
              | [] => .error ⟨index, none⟩
              | d :: rest =>
                if isContinuation d then (char₄ a b c d :: ·) <$> decodeFrom (index + 4) rest
                else .error ⟨index, some 3⟩
            else .error ⟨index, some 2⟩
        else .error ⟨index, some 1⟩
    | _ => .error ⟨index, some 1⟩

/-- `str::from_utf8`. -/
def fromUtf8 (bytes : Bytes) : Except Utf8Error Text := decodeFrom 0 bytes

/-- The sequences of a character. -/
inductive Sequence : Char → Bytes → Prop where
  | one {a : UInt8} (ha : charWidth a = 1) : Sequence (Char.ofNat a.toNat) [a]
  | two {a b : UInt8} (ha : charWidth a = 2) (hb : isContinuation b) : Sequence (char₂ a b) [a, b]
  | three {a b c : UInt8} (ha : charWidth a = 3) (hb : isSecond a b) (hc : isContinuation c) :
      Sequence (char₃ a b c) [a, b, c]
  | four {a b c d : UInt8} (ha : charWidth a = 4) (hb : isSecond a b) (hc : isContinuation c)
      (hd : isContinuation d) : Sequence (char₄ a b c d) [a, b, c, d]

lemma within_iff {low high : ℕ} {b : UInt8} : within low high b ↔ low ≤ b.toNat ∧ b.toNat ≤ high := by
  rw [within, Bool.and_eq_true, decide_eq_true_iff, decide_eq_true_iff]

lemma isContinuation_iff {b : UInt8} : isContinuation b ↔ 0x80 ≤ b.toNat ∧ b.toNat ≤ 0xBF := within_iff

section

variable {a b : UInt8}

lemma charWidth_eq_one : charWidth a = 1 ↔ a.toNat ≤ 0x7F := by
  unfold charWidth
  simp only [within_iff]
  split_ifs <;> simp <;> omega

lemma charWidth_eq_two : charWidth a = 2 ↔ 0xC2 ≤ a.toNat ∧ a.toNat ≤ 0xDF := by
  unfold charWidth
  simp only [within_iff]
  split_ifs <;> simp <;> omega

lemma charWidth_eq_three : charWidth a = 3 ↔ 0xE0 ≤ a.toNat ∧ a.toNat ≤ 0xEF := by
  unfold charWidth
  simp only [within_iff]
  split_ifs <;> simp <;> omega

lemma charWidth_eq_four : charWidth a = 4 ↔ 0xF0 ≤ a.toNat ∧ a.toNat ≤ 0xF4 := by
  unfold charWidth
  simp only [within_iff]
  split_ifs <;> simp <;> omega

lemma isSecond_iff :
    isSecond a b ↔ (0x80 ≤ b.toNat ∧ b.toNat ≤ 0xBF) ∧
      (a.toNat = 0xE0 → 0xA0 ≤ b.toNat) ∧ (a.toNat = 0xED → b.toNat ≤ 0x9F) ∧
      (a.toNat = 0xF0 → 0x90 ≤ b.toNat) ∧ (a.toNat = 0xF4 → b.toNat ≤ 0x8F) := by
  unfold isSecond
  split_ifs <;> simp only [within_iff, isContinuation_iff] <;> omega

end

lemma toNat_ofNat_byte {n : ℕ} (hn : n < 256) : (UInt8.ofNat n).toNat = n := by
  rw [UInt8.toNat_ofNat']
  exact Nat.mod_eq_of_lt hn

lemma sequence_one {v : ℕ} (hv : v ≤ 0x7F) : Sequence (Char.ofNat v) [UInt8.ofNat v] := by
  have ha : (UInt8.ofNat v).toNat = v := toNat_ofNat_byte (by omega)
  have hseq := Sequence.one (charWidth_eq_one.mpr (ha.trans_le hv))
  rw [ha] at hseq
  exact hseq

lemma sequence_two {v : ℕ} (hlow : 0x7F < v) (hhigh : v ≤ 0x7FF) :
    Sequence (Char.ofNat v) [UInt8.ofNat (v / 64 % 0x20 + 0xC0), UInt8.ofNat (v % 0x40 + 0x80)] := by
  have ha : (UInt8.ofNat (v / 64 % 0x20 + 0xC0)).toNat = v / 64 % 0x20 + 0xC0 := toNat_ofNat_byte (by omega)
  have hb : (UInt8.ofNat (v % 0x40 + 0x80)).toNat = v % 0x40 + 0x80 := toNat_ofNat_byte (by omega)
  generalize UInt8.ofNat (v / 64 % 0x20 + 0xC0) = a at ha ⊢
  generalize UInt8.ofNat (v % 0x40 + 0x80) = b at hb ⊢
  have hcode : a.toNat % 32 * 64 + b.toNat % 64 = v := by omega
  rw [← hcode]
  exact .two (charWidth_eq_two.mpr (by omega)) (isContinuation_iff.mpr (by omega))

lemma sequence_three {v : ℕ} (hlow : 0x7FF < v) (hhigh : v ≤ 0xFFFF) (hsurrogate : v < 0xD800 ∨ 0xDFFF < v) :
    Sequence (Char.ofNat v)
      [UInt8.ofNat (v / 4096 % 0x10 + 0xE0), UInt8.ofNat (v / 64 % 0x40 + 0x80), UInt8.ofNat (v % 0x40 + 0x80)] := by
  have ha : (UInt8.ofNat (v / 4096 % 0x10 + 0xE0)).toNat = v / 4096 % 0x10 + 0xE0 := toNat_ofNat_byte (by omega)
  have hb : (UInt8.ofNat (v / 64 % 0x40 + 0x80)).toNat = v / 64 % 0x40 + 0x80 := toNat_ofNat_byte (by omega)
  have hc : (UInt8.ofNat (v % 0x40 + 0x80)).toNat = v % 0x40 + 0x80 := toNat_ofNat_byte (by omega)
  generalize UInt8.ofNat (v / 4096 % 0x10 + 0xE0) = a at ha ⊢
  generalize UInt8.ofNat (v / 64 % 0x40 + 0x80) = b at hb ⊢
  generalize UInt8.ofNat (v % 0x40 + 0x80) = c at hc ⊢
  have hcode : a.toNat % 16 * 4096 + b.toNat % 64 * 64 + c.toNat % 64 = v := by omega
  rw [← hcode]
  exact .three (charWidth_eq_three.mpr (by omega)) (isSecond_iff.mpr (by omega)) (isContinuation_iff.mpr (by omega))

lemma sequence_four {v : ℕ} (hlow : 0xFFFF < v) (hhigh : v < 0x110000) :
    Sequence (Char.ofNat v)
      [UInt8.ofNat (v / 262144 % 0x08 + 0xF0), UInt8.ofNat (v / 4096 % 0x40 + 0x80),
        UInt8.ofNat (v / 64 % 0x40 + 0x80), UInt8.ofNat (v % 0x40 + 0x80)] := by
  have ha : (UInt8.ofNat (v / 262144 % 0x08 + 0xF0)).toNat = v / 262144 % 0x08 + 0xF0 := toNat_ofNat_byte (by omega)
  have hb : (UInt8.ofNat (v / 4096 % 0x40 + 0x80)).toNat = v / 4096 % 0x40 + 0x80 := toNat_ofNat_byte (by omega)
  have hc : (UInt8.ofNat (v / 64 % 0x40 + 0x80)).toNat = v / 64 % 0x40 + 0x80 := toNat_ofNat_byte (by omega)
  have hd : (UInt8.ofNat (v % 0x40 + 0x80)).toNat = v % 0x40 + 0x80 := toNat_ofNat_byte (by omega)
  generalize UInt8.ofNat (v / 262144 % 0x08 + 0xF0) = a at ha ⊢
  generalize UInt8.ofNat (v / 4096 % 0x40 + 0x80) = b at hb ⊢
  generalize UInt8.ofNat (v / 64 % 0x40 + 0x80) = c at hc ⊢
  generalize UInt8.ofNat (v % 0x40 + 0x80) = d at hd ⊢
  have hcode : a.toNat % 8 * 262144 + b.toNat % 64 * 4096 + c.toNat % 64 * 64 + d.toNat % 64 = v := by omega
  rw [← hcode]
  exact .four (charWidth_eq_four.mpr (by omega)) (isSecond_iff.mpr (by omega)) (isContinuation_iff.mpr (by omega))
    (isContinuation_iff.mpr (by omega))

lemma sequence_utf8EncodeChar (c : Char) : Sequence c (String.utf8EncodeChar c) := by
  have hvalid : c.val.toNat < 0xD800 ∨ 0xDFFF < c.val.toNat ∧ c.val.toNat < 0x110000 := c.valid
  have hchar : Char.ofNat c.val.toNat = c := Char.ofNat_toNat c
  unfold String.utf8EncodeChar
  generalize c.val.toNat = v at hvalid hchar
  subst hchar
  dsimp only
  split_ifs with h1 h2 h3
  · exact sequence_one h1
  · exact sequence_two (by omega) h2
  · exact sequence_three (by omega) h3 (by omega)
  · exact sequence_four (by omega) (by omega)

lemma toNat_ofNat_char {n : ℕ} (hn : n < 0xD800 ∨ 0xDFFF < n ∧ n < 0x110000) : (Char.ofNat n).val.toNat = n := by
  rw [Char.ofNat, dif_pos hn]
  rfl

lemma eq_ofNat_of_toNat {b : UInt8} {n : ℕ} (h : b.toNat = n) : b = UInt8.ofNat n := by
  rw [← h, UInt8.ofNat_toNat]

variable {c : Char}

/-- A character has no other sequence than its encoding. -/
lemma Sequence.eq_utf8EncodeChar {s : Bytes} (h : Sequence c s) : s = String.utf8EncodeChar c := by
  cases h with
  | @one a ha =>
    have ha := charWidth_eq_one.mp ha
    have hv : (Char.ofNat a.toNat).val.toNat = a.toNat := toNat_ofNat_char (by omega)
    rw [String.utf8EncodeChar, hv, if_pos ha, UInt8.ofNat_toNat]
  | @two a b ha hb =>
    have ha := charWidth_eq_two.mp ha
    have hb := isContinuation_iff.mp hb
    have hv : (char₂ a b).val.toNat = _ := toNat_ofNat_char (by omega)
    rw [String.utf8EncodeChar, hv, if_neg (by omega), if_pos (by omega)]
    congr
    · exact eq_ofNat_of_toNat (by omega)
    · exact eq_ofNat_of_toNat (by omega)
  | @three a b c ha hb hc =>
    have ha := charWidth_eq_three.mp ha
    have hb := isSecond_iff.mp hb
    have hc := isContinuation_iff.mp hc
    have hv : (char₃ a b c).val.toNat = _ := toNat_ofNat_char (by omega)
    rw [String.utf8EncodeChar, hv, if_neg (by omega), if_neg (by omega), if_pos (by omega)]
    congr
    · exact eq_ofNat_of_toNat (by omega)
    · exact eq_ofNat_of_toNat (by omega)
    · exact eq_ofNat_of_toNat (by omega)
  | @four a b c d ha hb hc hd =>
    have ha := charWidth_eq_four.mp ha
    have hb := isSecond_iff.mp hb
    have hc := isContinuation_iff.mp hc
    have hd := isContinuation_iff.mp hd
    have hv : (char₄ a b c d).val.toNat = _ := toNat_ofNat_char (by omega)
    rw [String.utf8EncodeChar, hv, if_neg (by omega), if_neg (by omega), if_neg (by omega)]
    congr
    · exact eq_ofNat_of_toNat (by omega)
    · exact eq_ofNat_of_toNat (by omega)
    · exact eq_ofNat_of_toNat (by omega)
    · exact eq_ofNat_of_toNat (by omega)

lemma Sequence.decodeFrom_append {s : Bytes} (h : Sequence c s) (index : ℕ) (rest : Bytes) :
    decodeFrom index (s ++ rest) = (c :: ·) <$> decodeFrom (index + s.length) rest := by
  cases h with
  | one ha =>
    rw [List.singleton_append, decodeFrom.eq_def]
    simp only [ha]
    rfl
  | two ha hb =>
    rw [List.cons_append, List.singleton_append, decodeFrom.eq_def]
    simp only [ha, hb]
    rfl
  | three ha hb hc =>
    rw [decodeFrom.eq_def]
    simp only [List.cons_append, List.nil_append, ha, hb, hc]
    rfl
  | four ha hb hc hd =>
    rw [decodeFrom.eq_def]
    simp only [List.cons_append, List.nil_append, ha, hb, hc, hd]
    rfl

/-- The start of a sequence is an error that further bytes may repair. -/
lemma Sequence.decodeFrom_part {s part rest : Bytes} (h : Sequence c s) (hsplit : part ++ rest = s)
    (hpart : part ≠ []) (hrest : rest ≠ []) (index : ℕ) : decodeFrom index part = .error ⟨index, none⟩ := by
  obtain ⟨a, part, rfl⟩ := List.exists_cons_of_ne_nil hpart
  rw [decodeFrom.eq_def]
  cases h with
  | one ha =>
    obtain ⟨-, hnil⟩ := List.cons_eq_cons.mp hsplit
    exact absurd (List.append_eq_nil_iff.mp hnil).2 hrest
  | two ha hb =>
    rcases part with _ | ⟨b, part⟩
    · obtain ⟨rfl, -⟩ := List.cons_eq_cons.mp hsplit
      simp only [ha]
    · obtain ⟨-, hrest'⟩ := List.cons_eq_cons.mp hsplit
      obtain ⟨-, hnil⟩ := List.cons_eq_cons.mp hrest'
      exact absurd (List.append_eq_nil_iff.mp hnil).2 hrest
  | three ha hb hc =>
    obtain ⟨rfl, htail⟩ := List.cons_eq_cons.mp hsplit
    rcases part with _ | ⟨b, _ | ⟨c, part⟩⟩
    · simp only [ha]
    · obtain ⟨rfl, -⟩ := List.cons_eq_cons.mp htail
      simp only [ha, hb, if_true]
    · obtain ⟨-, htail⟩ := List.cons_eq_cons.mp htail
      obtain ⟨-, hnil⟩ := List.cons_eq_cons.mp htail
      exact absurd (List.append_eq_nil_iff.mp hnil).2 hrest
  | four ha hb hc hd =>
    obtain ⟨rfl, htail⟩ := List.cons_eq_cons.mp hsplit
    rcases part with _ | ⟨b, _ | ⟨c, _ | ⟨d, part⟩⟩⟩
    · simp only [ha]
    · obtain ⟨rfl, -⟩ := List.cons_eq_cons.mp htail
      simp only [ha, hb, if_true]
    · obtain ⟨rfl, htail'⟩ := List.cons_eq_cons.mp htail
      obtain ⟨rfl, -⟩ := List.cons_eq_cons.mp htail'
      simp only [ha, hb, hc, if_true]
    · obtain ⟨-, htail⟩ := List.cons_eq_cons.mp htail
      obtain ⟨-, htail⟩ := List.cons_eq_cons.mp htail
      obtain ⟨-, hnil⟩ := List.cons_eq_cons.mp htail
      exact absurd (List.append_eq_nil_iff.mp hnil).2 hrest

/-! ## Whole texts -/

lemma decodeFrom_encode_append (t : Text) (index : ℕ) (rest : Bytes) :
    decodeFrom index (encode t ++ rest) = (t ++ ·) <$> decodeFrom (index + (encode t).length) rest := by
  induction t generalizing index with
  | nil =>
    show decodeFrom index rest = id <$> decodeFrom index rest
    exact (id_map _).symm
  | cons c t ih =>
    have hencode : encode (c :: t) = String.utf8EncodeChar c ++ encode t := List.flatMap_cons
    rw [hencode, List.append_assoc, (sequence_utf8EncodeChar c).decodeFrom_append, ih, List.length_append,
      ← Nat.add_assoc, ← comp_map]
    rfl

lemma fromUtf8_encode (t : Text) : fromUtf8 (encode t) = .ok t := by
  have h := decodeFrom_encode_append t 0 []
  rw [List.append_nil] at h
  rw [fromUtf8, h]
  show Except.ok (t ++ []) = _
  rw [List.append_nil]

/-- Bytes that begin a character without ending it. -/
def PartOf (c : Char) (part : Bytes) : Prop :=
  part ≠ [] ∧ ∃ more, more ≠ [] ∧ part ++ more = String.utf8EncodeChar c

lemma PartOf.length_lt {part : Bytes} (h : PartOf c part) : part.length < c.utf8Size := by
  obtain ⟨-, more, hmore, hsplit⟩ := h
  have hpos := List.length_pos_iff.mpr hmore
  rw [← String.length_utf8EncodeChar, ← hsplit, List.length_append]
  omega

variable {t : Text}

lemma length_encode_pos (h : t ≠ []) : 0 < (encode t).length := by
  obtain ⟨c, t, rfl⟩ := List.exists_cons_of_ne_nil h
  have hpos := c.utf8Size_pos
  have hencode : encode (c :: t) = String.utf8EncodeChar c ++ encode t := List.flatMap_cons
  rw [hencode, List.length_append, String.length_utf8EncodeChar]
  omega

lemma fromUtf8_part (t : Text) {part : Bytes} (hpart : PartOf c part) :
    fromUtf8 (encode t ++ part) = .error ⟨(encode t).length, none⟩ := by
  obtain ⟨hne, rest, hrest, hsplit⟩ := hpart
  rw [fromUtf8, decodeFrom_encode_append, (sequence_utf8EncodeChar c).decodeFrom_part hsplit hne hrest, Nat.zero_add]
  rfl

lemma PartOf.ne_encode {part : Bytes} (h : PartOf c part) (t : Text) : part ≠ encode t := by
  intro heq
  have herror : fromUtf8 part = .error ⟨0, none⟩ := fromUtf8_part [] h
  rw [heq, fromUtf8_encode] at herror
  cases herror

variable {bytes : Bytes}

lemma exists_split_of_prefix (h : bytes <+: encode t) :
    ∃ u rest part, t = u ++ rest ∧ bytes = encode u ++ part ∧
      (part = [] ∨ ∃ c rest', rest = c :: rest' ∧ PartOf c part) := by
  induction t generalizing bytes with
  | nil => exact ⟨[], [], [], rfl, List.prefix_nil.mp h, .inl rfl⟩
  | cons c t ih =>
    have hencode : encode (c :: t) = String.utf8EncodeChar c ++ encode t := List.flatMap_cons
    rw [hencode] at h
    rcases List.prefix_or_prefix_of_prefix h (List.prefix_append _ _) with hwithin | ⟨bytes', rfl⟩
    · obtain ⟨more, hmore⟩ := hwithin
      by_cases hnil : bytes = []
      · exact ⟨[], c :: t, [], rfl, hnil, .inl rfl⟩
      by_cases hwhole : more = []
      · refine ⟨[c], t, [], rfl, ?_, .inl rfl⟩
        rw [hwhole, List.append_nil] at hmore
        rw [hmore, List.append_nil]
        exact (List.append_nil _).symm
      · exact ⟨[], c :: t, bytes, rfl, rfl, .inr ⟨c, t, rfl, hnil, more, hwhole, hmore⟩⟩
    · obtain ⟨u, rest, part, rfl, rfl, hpart⟩ := ih ((List.prefix_append_right_inj _).mp h)
      refine ⟨c :: u, rest, part, rfl, ?_, hpart⟩
      rw [← List.append_assoc]
      rfl

/-- Bytes start with the sequence of a character, or reading them is an error. -/
lemma decodeFrom_starts (index : ℕ) (a : UInt8) (rest : Bytes) :
    (∃ c s rest', Sequence c s ∧ a :: rest = s ++ rest') ∨ ∃ e, decodeFrom index (a :: rest) = .error e := by
  rw [decodeFrom.eq_def]
  dsimp only
  split
  · rename_i ha
    exact .inl ⟨_, [a], rest, .one ha, rfl⟩
  · rename_i ha
    rcases rest with _ | ⟨b, rest⟩
    · exact .inr ⟨_, rfl⟩
    dsimp only
    split
    · rename_i hb
      exact .inl ⟨_, [a, b], rest, .two ha hb, rfl⟩
    · exact .inr ⟨_, rfl⟩
  · rename_i ha
    rcases rest with _ | ⟨b, rest⟩
    · exact .inr ⟨_, rfl⟩
    dsimp only
    split
    · rename_i hb
      rcases rest with _ | ⟨c, rest⟩
      · exact .inr ⟨_, rfl⟩
      dsimp only
      split
      · rename_i hc
        exact .inl ⟨_, [a, b, c], rest, .three ha hb hc, rfl⟩
      · exact .inr ⟨_, rfl⟩
    · exact .inr ⟨_, rfl⟩
  · rename_i ha
    rcases rest with _ | ⟨b, rest⟩
    · exact .inr ⟨_, rfl⟩
    dsimp only
    split
    · rename_i hb
      rcases rest with _ | ⟨c, rest⟩
      · exact .inr ⟨_, rfl⟩
      dsimp only
      split
      · rename_i hc
        rcases rest with _ | ⟨d, rest⟩
        · exact .inr ⟨_, rfl⟩
        dsimp only
        split
        · rename_i hd
          exact .inl ⟨_, [a, b, c, d], rest, .four ha hb hc hd, rfl⟩
        · exact .inr ⟨_, rfl⟩
      · exact .inr ⟨_, rfl⟩
    · exact .inr ⟨_, rfl⟩
  · exact .inr ⟨_, rfl⟩

/-- What is read as text is the encoding of it. -/
lemma eq_encode_of_decodeFrom {index : ℕ} (h : decodeFrom index bytes = .ok t) :
    bytes = encode t := by
  induction hn : bytes.length using Nat.strong_induction_on generalizing index bytes t with
  | _ n ih =>
    subst hn
    cases bytes with
    | nil =>
      cases h
      rfl
    | cons a rest =>
      obtain ⟨c, s, rest', hseq, hsplit⟩ | ⟨e, herror⟩ := decodeFrom_starts index a rest
      · have hs := hseq.eq_utf8EncodeChar
        rw [hsplit, hseq.decodeFrom_append] at h
        obtain ⟨u, hu, rfl⟩ : ∃ u, decodeFrom (index + s.length) rest' = .ok u ∧ c :: u = t := by
          cases hrest : decodeFrom (index + s.length) rest' with
          | error e =>
            rw [hrest] at h
            cases h
          | ok u =>
            rw [hrest] at h
            cases h
            exact ⟨u, rfl, rfl⟩
        have hpos : 0 < s.length := by
          rw [hs, String.length_utf8EncodeChar]
          exact c.utf8Size_pos
        have hless : rest'.length < (a :: rest).length := by
          rw [hsplit, List.length_append]
          omega
        rw [hsplit, hs, ih _ hless hu rfl]
        rfl
      · rw [herror] at h
        cases h

lemma fromUtf8_eq_ok_iff : fromUtf8 bytes = .ok t ↔ bytes = encode t := by
  constructor
  · exact eq_encode_of_decodeFrom
  · rintro rfl
    exact fromUtf8_encode t

/-- Bytes that are text. -/
def Valid (bytes : Bytes) : Prop := ∃ t, bytes = encode t

lemma valid_iff : Valid bytes ↔ (fromUtf8 bytes).isOk := by
  cases h : fromUtf8 bytes with
  | ok t => exact iff_of_true ⟨t, fromUtf8_eq_ok_iff.mp h⟩ rfl
  | error err =>
    refine iff_of_false ?_ Bool.false_ne_true
    rintro ⟨t, rfl⟩
    rw [fromUtf8_encode] at h
    cases h

lemma Valid.of_append {front rest : Bytes} (hfront : Valid front) (h : Valid (front ++ rest)) : Valid rest := by
  obtain ⟨u, rfl⟩ := hfront
  obtain ⟨t, ht⟩ := h
  have hread := fromUtf8_encode t
  rw [← ht, fromUtf8, decodeFrom_encode_append] at hread
  cases hrest : decodeFrom (0 + (encode u).length) rest with
  | error err =>
    rw [hrest] at hread
    cases hread
  | ok t' => exact ⟨t', eq_encode_of_decodeFrom hrest⟩

lemma Valid.append {front rest : Bytes} (hfront : Valid front) (hrest : Valid rest) : Valid (front ++ rest) := by
  obtain ⟨u, rfl⟩ := hfront
  obtain ⟨t, rfl⟩ := hrest
  exact ⟨u ++ t, (encode_append u t).symm⟩

end Supercodex.Utf8
