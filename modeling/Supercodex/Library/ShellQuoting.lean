import Supercodex.Library.Text

/-!
# Quote removal in a shell

A word of a shell is made of bare text, of text between single quotes and of text between double quotes.
Quote removal takes away the quotes, every backslash outside quotes, and between double quotes the
backslashes before the characters that are special there. Taking away the quotes alone gives the same
word exactly when there is no such backslash.
-/

namespace Supercodex.ShellQuoting

/-- What surrounds a character, or what comes right before it. -/
inductive Quoting where
  | unquoted
  | escaped
  | single
  | double
  | doubleEscaped
deriving DecidableEq

/-- Does a backslash before the character go away between double quotes? -/
def escapable (c : Char) : Bool := c == '$' || c == '\x60' || c == '"' || c == '\\' || c == '\n'

/-- Quote removal, from some quoting on. A backslash before a newline goes away with it, and one at the
end stays. -/
def quoteRemoval : Quoting → Text → Text
  | .unquoted, [] => []
  | .unquoted, c :: t =>
    if c = '\'' then quoteRemoval .single t
    else if c = '"' then quoteRemoval .double t
    else if c = '\\' then quoteRemoval .escaped t
    else c :: quoteRemoval .unquoted t
  | .escaped, [] => ['\\']
  | .escaped, c :: t => if c = '\n' then quoteRemoval .unquoted t else c :: quoteRemoval .unquoted t
  | .single, [] => []
  | .single, c :: t => if c = '\'' then quoteRemoval .unquoted t else c :: quoteRemoval .single t
  | .double, [] => []
  | .double, c :: t =>
    if c = '"' then quoteRemoval .unquoted t
    else if c = '\\' then quoteRemoval .doubleEscaped t
    else c :: quoteRemoval .double t
  | .doubleEscaped, [] => ['\\']
  | .doubleEscaped, c :: t =>
    if c = '\n' then quoteRemoval .double t
    else if escapable c then c :: quoteRemoval .double t
    else '\\' :: c :: quoteRemoval .double t

/-- Does quote removal take away a backslash? -/
def dropsBackslash : Quoting → Text → Bool
  | _, [] => false
  | .unquoted, c :: t =>
    if c = '\'' then dropsBackslash .single t
    else if c = '"' then dropsBackslash .double t
    else if c = '\\' then dropsBackslash .escaped t
    else dropsBackslash .unquoted t
  | .escaped, _ :: _ => true
  | .single, c :: t => if c = '\'' then dropsBackslash .unquoted t else dropsBackslash .single t
  | .double, c :: t =>
    if c = '"' then dropsBackslash .unquoted t
    else if c = '\\' then dropsBackslash .doubleEscaped t
    else dropsBackslash .double t
  | .doubleEscaped, c :: t => if escapable c then true else dropsBackslash .double t

/-- A part of a word. -/
inductive Piece where
  | bare (text : Text)
  | double (text : Text)
  | single (text : Text)
deriving DecidableEq

/-- Text without quotes outside escapes, whose escapes are complete. -/
inductive Bare : Text → Prop where
  | nil : Bare []
  | escape (c : Char) {t : Text} (h : Bare t) : Bare ('\\' :: c :: t)
  | char {c : Char} {t : Text} (hescape : c ≠ '\\') (hsingle : c ≠ '\'') (hdouble : c ≠ '"')
    (h : Bare t) : Bare (c :: t)

/-- Text without a double quote outside escapes, whose escapes are complete. -/
inductive Between : Text → Prop where
  | nil : Between []
  | escape (c : Char) {t : Text} (h : Between t) : Between ('\\' :: c :: t)
  | char {c : Char} {t : Text} (hescape : c ≠ '\\') (hdouble : c ≠ '"') (h : Between t) :
    Between (c :: t)

/-- Is the text bare, after a backslash or not? -/
def isBare : (escaped : Bool) → Text → Bool
  | escaped, [] => !escaped
  | true, _ :: t => isBare false t
  | false, c :: t => if c = '\\' then isBare true t else c != '\'' && c != '"' && isBare false t

/-- Does the text stay between double quotes, after a backslash or not? -/
def isBetween : (escaped : Bool) → Text → Bool
  | escaped, [] => !escaped
  | true, _ :: t => isBetween false t
  | false, c :: t => if c = '\\' then isBetween true t else c != '"' && isBetween false t

lemma isBare_cons_of_ne {c : Char} {t : Text} (h : c ≠ '\\') :
    isBare false (c :: t) = (c != '\'' && c != '"' && isBare false t) := by
  show (if c = '\\' then _ else _) = _
  rw [if_neg h]

lemma isBetween_cons_of_ne {c : Char} {t : Text} (h : c ≠ '\\') :
    isBetween false (c :: t) = (c != '"' && isBetween false t) := by
  show (if c = '\\' then _ else _) = _
  rw [if_neg h]

lemma bare_of_isBare (t : Text) :
    (isBare false t = true → Bare t) ∧ (isBare true t = true → Bare ('\\' :: t)) := by
  induction t with
  | nil => exact ⟨fun _ => .nil, fun h => nomatch h⟩
  | cons c t ih =>
    refine ⟨fun h => ?_, fun h => .escape c (ih.1 h)⟩
    by_cases hc : c = '\\'
    · subst hc
      exact ih.2 h
    · rw [isBare_cons_of_ne hc] at h
      simp only [Bool.and_eq_true, bne_iff_ne] at h
      exact .char hc h.1.1 h.1.2 (ih.1 h.2)

lemma isBare_iff (t : Text) : isBare false t = true ↔ Bare t := by
  refine ⟨(bare_of_isBare t).1, fun h => ?_⟩
  induction h with
  | nil => rfl
  | escape c _ ih => exact ih
  | char hescape hsingle hdouble _ ih =>
    rw [isBare_cons_of_ne hescape]
    simp [hsingle, hdouble, ih]

lemma between_of_isBetween (t : Text) :
    (isBetween false t = true → Between t) ∧ (isBetween true t = true → Between ('\\' :: t)) := by
  induction t with
  | nil => exact ⟨fun _ => .nil, fun h => nomatch h⟩
  | cons c t ih =>
    refine ⟨fun h => ?_, fun h => .escape c (ih.1 h)⟩
    by_cases hc : c = '\\'
    · subst hc
      exact ih.2 h
    · rw [isBetween_cons_of_ne hc] at h
      simp only [Bool.and_eq_true, bne_iff_ne] at h
      exact .char hc h.1 (ih.1 h.2)

lemma isBetween_iff (t : Text) : isBetween false t = true ↔ Between t := by
  refine ⟨(between_of_isBetween t).1, fun h => ?_⟩
  induction h with
  | nil => rfl
  | escape c _ ih => exact ih
  | char hescape hdouble _ ih =>
    rw [isBetween_cons_of_ne hescape]
    simp [hdouble, ih]

instance (t : Text) : Decidable (Bare t) := decidable_of_iff _ (isBare_iff t)

instance (t : Text) : Decidable (Between t) := decidable_of_iff _ (isBetween_iff t)

namespace Piece

/-- How the part is written. -/
def source : Piece → Text
  | bare text => text
  | double text => '"' :: (text ++ ['"'])
  | single text => '\'' :: (text ++ ['\''])

/-- The part without its quotes. -/
def stripped : Piece → Text
  | bare text => text
  | double text => text
  | single text => text

/-- The part ends where it says. -/
def Lexical : Piece → Prop
  | bare text => Bare text
  | double text => Between text
  | single text => '\'' ∉ text

/-- What quote removal makes of the part. -/
def value : Piece → Text
  | bare text => quoteRemoval .unquoted text
  | double text => quoteRemoval .double text
  | single text => text

/-- Does quote removal take away a backslash of the part? -/
def drops : Piece → Bool
  | bare text => dropsBackslash .unquoted text
  | double text => dropsBackslash .double text
  | single _ => false

end Piece

/-! ## One character -/

section

variable {c : Char} (t : Text)

section

variable (c : Char)

lemma quoteRemoval_unquoted_cons : quoteRemoval .unquoted (c :: t) =
    if c = '\'' then quoteRemoval .single t
    else if c = '"' then quoteRemoval .double t
    else if c = '\\' then quoteRemoval .escaped t
    else c :: quoteRemoval .unquoted t := rfl

lemma quoteRemoval_single_cons : quoteRemoval .single (c :: t) =
    if c = '\'' then quoteRemoval .unquoted t else c :: quoteRemoval .single t := rfl

lemma quoteRemoval_double_cons : quoteRemoval .double (c :: t) =
    if c = '"' then quoteRemoval .unquoted t
    else if c = '\\' then quoteRemoval .doubleEscaped t
    else c :: quoteRemoval .double t := rfl

lemma dropsBackslash_unquoted_cons : dropsBackslash .unquoted (c :: t) =
    if c = '\'' then dropsBackslash .single t
    else if c = '"' then dropsBackslash .double t
    else if c = '\\' then dropsBackslash .escaped t
    else dropsBackslash .unquoted t := rfl

lemma dropsBackslash_single_cons : dropsBackslash .single (c :: t) =
    if c = '\'' then dropsBackslash .unquoted t else dropsBackslash .single t := rfl

lemma dropsBackslash_double_cons : dropsBackslash .double (c :: t) =
    if c = '"' then dropsBackslash .unquoted t
    else if c = '\\' then dropsBackslash .doubleEscaped t
    else dropsBackslash .double t := rfl

end

lemma quoteRemoval_unquoted_char (hescape : c ≠ '\\') (hsingle : c ≠ '\'') (hdouble : c ≠ '"') :
    quoteRemoval .unquoted (c :: t) = c :: quoteRemoval .unquoted t := by
  rw [quoteRemoval_unquoted_cons, if_neg hsingle, if_neg hdouble, if_neg hescape]

lemma quoteRemoval_unquoted_escape (c : Char) : quoteRemoval .unquoted ('\\' :: c :: t) =
    if c = '\n' then quoteRemoval .unquoted t else c :: quoteRemoval .unquoted t := rfl

lemma quoteRemoval_double_char (hescape : c ≠ '\\') (hdouble : c ≠ '"') :
    quoteRemoval .double (c :: t) = c :: quoteRemoval .double t := by
  rw [quoteRemoval_double_cons, if_neg hdouble, if_neg hescape]

lemma quoteRemoval_double_escape (c : Char) : quoteRemoval .double ('\\' :: c :: t) =
    if c = '\n' then quoteRemoval .double t
    else if escapable c then c :: quoteRemoval .double t
    else '\\' :: c :: quoteRemoval .double t := rfl

lemma dropsBackslash_unquoted_char (hescape : c ≠ '\\') (hsingle : c ≠ '\'') (hdouble : c ≠ '"') :
    dropsBackslash .unquoted (c :: t) = dropsBackslash .unquoted t := by
  rw [dropsBackslash_unquoted_cons, if_neg hsingle, if_neg hdouble, if_neg hescape]

lemma dropsBackslash_unquoted_escape (c : Char) :
    dropsBackslash .unquoted ('\\' :: c :: t) = true := rfl

lemma dropsBackslash_double_char (hescape : c ≠ '\\') (hdouble : c ≠ '"') :
    dropsBackslash .double (c :: t) = dropsBackslash .double t := by
  rw [dropsBackslash_double_cons, if_neg hdouble, if_neg hescape]

lemma dropsBackslash_double_escape (c : Char) : dropsBackslash .double ('\\' :: c :: t) =
    if escapable c then true else dropsBackslash .double t := rfl

lemma quoteRemoval_double_close : quoteRemoval .double ('"' :: t) = quoteRemoval .unquoted t := rfl

lemma dropsBackslash_double_close : dropsBackslash .double ('"' :: t) = dropsBackslash .unquoted t := rfl

end

/-! ## One part -/

section

variable {u : Text} (t : Text)

lemma quoteRemoval_bare_append (hu : Bare u) :
    quoteRemoval .unquoted (u ++ t) = quoteRemoval .unquoted u ++ quoteRemoval .unquoted t := by
  induction hu with
  | nil => rfl
  | escape c _ ih =>
    rw [List.cons_append, List.cons_append, quoteRemoval_unquoted_escape, quoteRemoval_unquoted_escape,
      ih]
    split_ifs <;> rfl
  | char hescape hsingle hdouble _ ih =>
    rw [List.cons_append, quoteRemoval_unquoted_char _ hescape hsingle hdouble,
      quoteRemoval_unquoted_char _ hescape hsingle hdouble, ih, List.cons_append]

lemma dropsBackslash_bare_append (hu : Bare u) : dropsBackslash .unquoted (u ++ t) =
    (dropsBackslash .unquoted u || dropsBackslash .unquoted t) := by
  induction hu with
  | nil => rfl
  | escape c _ ih =>
    rw [List.cons_append, List.cons_append, dropsBackslash_unquoted_escape,
      dropsBackslash_unquoted_escape, Bool.true_or]
  | char hescape hsingle hdouble _ ih =>
    rw [List.cons_append, dropsBackslash_unquoted_char _ hescape hsingle hdouble,
      dropsBackslash_unquoted_char _ hescape hsingle hdouble, ih]

lemma quoteRemoval_double_append (hu : Between u) :
    quoteRemoval .double (u ++ '"' :: t) = quoteRemoval .double u ++ quoteRemoval .unquoted t := by
  induction hu with
  | nil => exact quoteRemoval_double_close t
  | escape c _ ih =>
    rw [List.cons_append, List.cons_append, quoteRemoval_double_escape, quoteRemoval_double_escape, ih]
    split_ifs <;> rfl
  | char hescape hdouble _ ih =>
    rw [List.cons_append, quoteRemoval_double_char _ hescape hdouble,
      quoteRemoval_double_char _ hescape hdouble, ih, List.cons_append]

lemma dropsBackslash_double_append (hu : Between u) :
    dropsBackslash .double (u ++ '"' :: t) =
      (dropsBackslash .double u || dropsBackslash .unquoted t) := by
  induction hu with
  | nil => exact dropsBackslash_double_close t
  | escape c _ ih =>
    rw [List.cons_append, List.cons_append, dropsBackslash_double_escape, dropsBackslash_double_escape,
      ih]
    split_ifs <;> rfl
  | char hescape hdouble _ ih =>
    rw [List.cons_append, dropsBackslash_double_char _ hescape hdouble,
      dropsBackslash_double_char _ hescape hdouble, ih]

lemma quoteRemoval_single_append (hu : '\'' ∉ u) :
    quoteRemoval .single (u ++ '\'' :: t) = u ++ quoteRemoval .unquoted t := by
  induction u with
  | nil => rfl
  | cons c u ih =>
    rw [List.mem_cons, not_or] at hu
    rw [List.cons_append, quoteRemoval_single_cons, if_neg (Ne.symm hu.1), ih hu.2, List.cons_append]

lemma dropsBackslash_single_append (hu : '\'' ∉ u) :
    dropsBackslash .single (u ++ '\'' :: t) = dropsBackslash .unquoted t := by
  induction u with
  | nil => rfl
  | cons c u ih =>
    rw [List.mem_cons, not_or] at hu
    rw [List.cons_append, dropsBackslash_single_cons, if_neg (Ne.symm hu.1), ih hu.2]

lemma quoteRemoval_double_open : quoteRemoval .unquoted ('"' :: t) = quoteRemoval .double t := rfl

lemma quoteRemoval_single_open : quoteRemoval .unquoted ('\'' :: t) = quoteRemoval .single t := rfl

lemma dropsBackslash_double_open :
    dropsBackslash .unquoted ('"' :: t) = dropsBackslash .double t := rfl

lemma dropsBackslash_single_open :
    dropsBackslash .unquoted ('\'' :: t) = dropsBackslash .single t := rfl

end

namespace Piece

variable {piece : Piece}

lemma quoteRemoval_source_append (h : piece.Lexical) (t : Text) :
    quoteRemoval .unquoted (piece.source ++ t) = piece.value ++ quoteRemoval .unquoted t := by
  cases piece with
  | bare text => exact quoteRemoval_bare_append t h
  | double text =>
    rw [source, List.cons_append, List.append_assoc, quoteRemoval_double_open]
    exact quoteRemoval_double_append t h
  | single text =>
    rw [source, List.cons_append, List.append_assoc, quoteRemoval_single_open]
    exact quoteRemoval_single_append t h

lemma dropsBackslash_source_append (h : piece.Lexical) (t : Text) :
    dropsBackslash .unquoted (piece.source ++ t) = (piece.drops || dropsBackslash .unquoted t) := by
  cases piece with
  | bare text => exact dropsBackslash_bare_append t h
  | double text =>
    rw [source, List.cons_append, List.append_assoc, dropsBackslash_double_open]
    exact dropsBackslash_double_append t h
  | single text =>
    rw [source, List.cons_append, List.append_assoc, dropsBackslash_single_open]
    exact dropsBackslash_single_append t h

lemma value_bare {u : Text} (hu : Bare u) : (quoteRemoval .unquoted u).Sublist u ∧
    (quoteRemoval .unquoted u = u ↔ dropsBackslash .unquoted u = false) := by
  induction hu with
  | nil => exact ⟨List.Sublist.refl _, iff_of_true rfl rfl⟩
  | @escape c u _ ih =>
    have hshort : (quoteRemoval .unquoted ('\\' :: c :: u)).Sublist (c :: u) := by
      rw [quoteRemoval_unquoted_escape]
      split_ifs
      · exact ih.1.cons c
      · exact ih.1.cons_cons c
    refine ⟨hshort.cons _, ?_⟩
    rw [dropsBackslash_unquoted_escape]
    refine iff_of_false (fun heq => ?_) (by simp)
    have hlength := hshort.length_le
    rw [heq, List.length_cons] at hlength
    omega
  | char hescape hsingle hdouble _ ih =>
    rw [quoteRemoval_unquoted_char _ hescape hsingle hdouble,
      dropsBackslash_unquoted_char _ hescape hsingle hdouble, List.cons_inj_right]
    exact ⟨ih.1.cons_cons _, ih.2⟩

lemma value_between {u : Text} (hu : Between u) : (quoteRemoval .double u).Sublist u ∧
    (quoteRemoval .double u = u ↔ dropsBackslash .double u = false) := by
  induction hu with
  | nil => exact ⟨List.Sublist.refl _, iff_of_true rfl rfl⟩
  | @escape c u _ ih =>
    rw [quoteRemoval_double_escape, dropsBackslash_double_escape]
    by_cases hc : escapable c = true
    · rw [if_pos hc, if_pos hc]
      have hshort : (if c = '\n' then quoteRemoval .double u else c :: quoteRemoval .double u).Sublist
          (c :: u) := by
        split_ifs
        · exact ih.1.cons c
        · exact ih.1.cons_cons c
      refine ⟨hshort.cons _, iff_of_false (fun heq => ?_) (by simp)⟩
      have hlength := hshort.length_le
      rw [heq, List.length_cons] at hlength
      omega
    · have hline : c ≠ '\n' := by
        rintro rfl
        exact hc rfl
      rw [if_neg hc, if_neg hc, if_neg hline, List.cons_inj_right, List.cons_inj_right]
      exact ⟨(ih.1.cons_cons _).cons_cons _, ih.2⟩
  | char hescape hdouble _ ih =>
    rw [quoteRemoval_double_char _ hescape hdouble, dropsBackslash_double_char _ hescape hdouble,
      List.cons_inj_right]
    exact ⟨ih.1.cons_cons _, ih.2⟩

lemma value_sublist (h : piece.Lexical) :
    piece.value.Sublist piece.stripped ∧ (piece.value = piece.stripped ↔ piece.drops = false) := by
  cases piece with
  | bare text => exact value_bare h
  | double text => exact value_between h
  | single text => exact ⟨List.Sublist.refl _, by simp [value, stripped, drops]⟩

end Piece

/-! ## Words -/

/-- A word as it is written. -/
def wordSource (pieces : List Piece) : Text := pieces.flatMap Piece.source

/-- A word without its quotes. -/
def wordStripped (pieces : List Piece) : Text := pieces.flatMap Piece.stripped

section

variable {pieces : List Piece}

section

variable (h : ∀ piece ∈ pieces, piece.Lexical)
include h

lemma quoteRemoval_wordSource :
    quoteRemoval .unquoted (wordSource pieces) = pieces.flatMap Piece.value := by
  induction pieces with
  | nil => rfl
  | cons piece pieces ih =>
    rw [List.forall_mem_cons] at h
    rw [wordSource, List.flatMap_cons, List.flatMap_cons, Piece.quoteRemoval_source_append h.1,
      ← wordSource, ih h.2]

lemma dropsBackslash_wordSource :
    dropsBackslash .unquoted (wordSource pieces) = pieces.any Piece.drops := by
  induction pieces with
  | nil => rfl
  | cons piece pieces ih =>
    rw [List.forall_mem_cons] at h
    rw [wordSource, List.flatMap_cons, List.any_cons, Piece.dropsBackslash_source_append h.1,
      ← wordSource, ih h.2]

lemma value_flatMap :
    (pieces.flatMap Piece.value).Sublist (wordStripped pieces) ∧
      (pieces.flatMap Piece.value = wordStripped pieces ↔ pieces.any Piece.drops = false) := by
  induction pieces with
  | nil => simp [wordStripped]
  | cons piece pieces ih =>
    rw [List.forall_mem_cons] at h
    obtain ⟨hsub, heq⟩ := Piece.value_sublist h.1
    obtain ⟨hsub', heq'⟩ := ih h.2
    rw [List.flatMap_cons, wordStripped, List.flatMap_cons, ← wordStripped, List.any_cons,
      Bool.or_eq_false_iff, ← heq, ← heq']
    refine ⟨hsub.append hsub', fun h => ?_, fun ⟨h, h'⟩ => by rw [h, h']⟩
    -- neither half is longer than its part, so the halves have the same lengths
    have hlength := congrArg List.length h
    rw [List.length_append, List.length_append] at hlength
    have := hsub.length_le
    have := hsub'.length_le
    exact ⟨hsub.eq_of_length (by omega), hsub'.eq_of_length (by omega)⟩

/-- Taking away the quotes of a word is quote removal exactly when quote removal takes away no
backslash. -/
theorem wordStripped_eq_iff :
    wordStripped pieces = quoteRemoval .unquoted (wordSource pieces) ↔
      dropsBackslash .unquoted (wordSource pieces) = false := by
  rw [quoteRemoval_wordSource h, dropsBackslash_wordSource h, eq_comm]
  exact (value_flatMap h).2

end

end

end Supercodex.ShellQuoting
