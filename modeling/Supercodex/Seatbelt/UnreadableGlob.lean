import Mathlib.Order.CompletePartialOrder
import Supercodex.Seatbelt.Expression
import Supercodex.Seatbelt.Globset

/-!
# Unreadable globs in the sandbox profile (`sandboxing/src/seatbelt.rs`)

The profile denies reads by regular expressions, so every deny-read glob is translated into one,
character by character.
-/

namespace Supercodex.Seatbelt

/-- The characters of a class up to the first closing bracket, and what follows it. -/
def readClass : Text → Option (Text × Text)
  | [] => none
  | ch :: chars =>
    if ch = ']' then some ([], chars)
    else (readClass chars).map fun (cls, rest) => (ch :: cls, rest)

/-- A character of a class that is not its first one. -/
def classCharRegex (ch : Char) : Text := if ch = '\\' then ['\\', '\\'] else [ch]

/-- A closed class. -/
def classRegex : Text → Text
  | [] => ['[', ']']
  | first :: cls =>
    let firstRegex := if first = '!' then ['^'] else if first = '^' then ['\\', '^'] else [first]
    '[' :: (firstRegex ++ cls.flatMap classCharRegex ++ [']'])

/-- What a round of the translation adds to the expression, whether it has seen a glob character,
and the characters that are left. -/
structure Piece where
  regex : Text
  sawGlob : Bool
  chars : Text

/-- One round of the translation. An unclosed class puts its characters back. -/
def translateNext (ch : Char) (chars : Text) : Piece :=
  if ch = '*' then
    if chars.head? ≠ some '*' then ⟨"[^/]*".toList, true, chars⟩
    else if chars.tail.head? ≠ some '/' then ⟨".*".toList, true, chars.tail⟩
    else ⟨"(.*/)?".toList, true, chars.tail.tail⟩
  else if ch = '?' then ⟨"[^/]".toList, true, chars⟩
  else if ch = '[' then
    match readClass chars with
    | none => ⟨['\\', '['], true, chars⟩
    | some (cls, rest) => ⟨classRegex cls, true, rest⟩
  else if ch = ']' then ⟨['\\', ']'], true, chars⟩
  else ⟨escape ch, false, chars⟩

/-- The loop of the translation, with a bound on its rounds. -/
def translate : ℕ → Text → Bool → Text → Text × Bool
  | _, regex, sawGlob, [] => (regex, sawGlob)
  | 0, regex, sawGlob, _ => (regex, sawGlob)
  | fuel + 1, regex, sawGlob, ch :: chars =>
    let piece := translateNext ch chars
    translate fuel (regex ++ piece.regex) (sawGlob || piece.sawGlob) piece.chars

/-- `seatbelt_regex_for_unreadable_glob`. Every round reads a character, so the bound is never
reached. A pattern without glob characters stands for the path and its subtree. -/
def seatbeltRegexForUnreadableGlob (pattern : Text) : Option Text :=
  if pattern = [] then none
  else
    let (regex, sawGlob) := translate pattern.length ['^'] false pattern
    let regex := if sawGlob then regex else regex ++ "(/.*)?".toList
    some (regex ++ ['$'])

end Supercodex.Seatbelt

/-!
# Unreadable globs: what the profile denies

On the syntax that the translation and `globset` share, the expression of a pattern matches every
path that the pattern matches. A backslash, a group of alternatives or a class that the two read
differently is outside that syntax, and there the profile may let a denied path through.
-/

namespace Supercodex.Seatbelt

open Regex

/-! ## The shared syntax -/

/-- The items of a class, after its negation and a leading dash. A dash stands between the ends of
a range or at the end of the class, and the operators `&&` and `~~` do not occur. -/
inductive SharedItems : Text → Prop
  | nil : SharedItems []
  | dash : SharedItems ['-']
  | single {c : Char} {items : Text} (hc : c ∉ ['-', '[', ']'])
      (hop : c = '&' ∨ c = '~' → items.head? ≠ some c) (h : SharedItems items) :
      SharedItems (c :: items)
  | range {first last : Char} {items : Text} (hfirst : first ∉ ['-', '[', ']'])
      (hlast : last ∉ ['-', ']']) (h : SharedItems items) :
      SharedItems (first :: '-' :: last :: items)

/-- The characters of a class after its negation. -/
inductive SharedBody : Text → Prop
  | dash {items : Text} (h : SharedItems items) : SharedBody ('-' :: items)
  | items {c : Char} {items : Text} (hc : c ≠ '-') (h : SharedItems (c :: items)) :
      SharedBody (c :: items)

/-- The characters of a class. Only `!` negates it, and it does not start with a backslash. -/
inductive SharedClass : Text → Prop
  | negated {body : Text} (h : SharedBody body) : SharedClass ('!' :: body)
  | positive {first : Char} {body : Text} (hfirst : first ∉ ['!', '^', '\\'])
      (h : SharedBody (first :: body)) : SharedClass (first :: body)

/-- The patterns that the translation and `globset` read alike: outside the classes no backslash
and no group of alternatives, and every opening bracket either has no closing bracket behind it or
opens a class of the shared syntax. -/
inductive SharedSyntax : Text → Prop
  | nil : SharedSyntax []
  | cons {c : Char} {rest : Text} (hc : c ∉ ['[', '\\', '\x7b']) (h : SharedSyntax rest) :
      SharedSyntax (c :: rest)
  | closed {cls rest : Text} (hcls : SharedClass cls) (h : SharedSyntax rest) :
      SharedSyntax ('[' :: (cls ++ ']' :: rest))
  | unclosed {rest : Text} (hrest : ']' ∉ rest) (h : SharedSyntax rest) :
      SharedSyntax ('[' :: rest)

/-! ## Reading the fixed pieces -/

variable {atoms : List (Regex Char)} {outer : List (List (Regex Char))}

lemma reads_of_foldlM {reader reader' : Reader} {t : Text} (ht : '\\' ∉ t)
    (h : (t.map Sym.plain).foldlM Reader.step reader = some reader') : Reads reader t reader' := by
  induction t generalizing reader with
  | nil =>
    obtain rfl : reader = reader' := by simpa using h
    exact .refl reader
  | cons c t ih =>
    have hc : c ≠ '\\' := fun heq => ht (heq ▸ List.mem_cons_self)
    have ht' : '\\' ∉ t := fun hmem => ht (List.mem_cons_of_mem _ hmem)
    rw [List.map_cons, List.foldlM_cons] at h
    obtain ⟨between, hstep, hfold⟩ := Option.bind_eq_some_iff.mp h
    exact (reads_plain hc hstep).trans (ih ht' hfold)

lemma reads_otherSeparator :
    Reads ⟨atoms, outer, .outside⟩ "[^/]".toList ⟨.other '/' :: atoms, outer, .outside⟩ :=
  reads_of_foldlM (by decide) rfl

lemma reads_withinComponent :
    Reads ⟨atoms, outer, .outside⟩ "[^/]*".toList ⟨withinComponent :: atoms, outer, .outside⟩ :=
  reads_of_foldlM (by decide) rfl

lemma reads_anything :
    Reads ⟨atoms, outer, .outside⟩ ".*".toList ⟨anything :: atoms, outer, .outside⟩ :=
  reads_of_foldlM (by decide) rfl

lemma reads_components :
    Reads ⟨atoms, outer, .outside⟩ "(.*/)?".toList
      ⟨.opt (seq [anything, .char '/']) :: atoms, outer, .outside⟩ :=
  reads_of_foldlM (by decide) rfl

lemma reads_subtree :
    Reads ⟨atoms, outer, .outside⟩ "(/.*)?".toList
      ⟨.opt (seq [.char '/', anything]) :: atoms, outer, .outside⟩ :=
  reads_of_foldlM (by decide) rfl

variable {c : Char}

lemma isEscapeableCharacter_of_meta (h : isMetaCharacter c = true) :
    isEscapeableCharacter c = true := by
  simp [isEscapeableCharacter, h]

lemma reads_escape (c : Char) :
    Reads ⟨atoms, outer, .outside⟩ (escape c) ⟨.char c :: atoms, outer, .outside⟩ := by
  by_cases hc : isMetaCharacter c = true
  · rw [escape, if_pos hc]
    exact reads_quoted (isEscapeableCharacter_of_meta hc) rfl
  rw [escape, if_neg hc]
  have hmem : c ∉ "\\.+*?()|[]\x7b\x7d^$#&-~".toList := by
    simpa only [isMetaCharacter, List.contains_iff_mem] using hc
  have hne (d : Char) (hd : d ∈ "\\.+*?()|[]\x7b\x7d^$#&-~".toList) : c ≠ d :=
    fun heq => hmem (heq ▸ hd)
  refine reads_plain (hne _ (by decide)) ?_
  simp [Reader.step, Reader.stepOutside, Reader.push, hne '$' (by decide), hne '.' (by decide),
    hne '(' (by decide), hne ')' (by decide), hne '*' (by decide), hne '?' (by decide),
    hne '[' (by decide), hne '+' (by decide), hne '|' (by decide), hne '\x7b' (by decide),
    hne '^' (by decide)]

lemma compile_of_reads {t : Text} (h : Reads .start t ⟨atoms, [], .outside⟩) :
    compile ('^' :: (t ++ ['$'])) = some (seq atoms.reverse) := by
  show (readFrom .start (t ++ ['$'])).bind Reader.finish = _
  rw [h]
  rfl

/-! ## Reading a class -/

/-- The symbol that the translation writes for a character of a class. -/
def classSym (c : Char) : Sym := if c = '\\' then .quoted c else .plain c

@[simp] lemma classSym_char (c : Char) : (classSym c).char = c := by
  unfold classSym
  split <;> rfl

lemma classSym_eq_plain_iff {c d : Char} (hd : d ≠ '\\') : classSym c = .plain d ↔ c = d := by
  unfold classSym
  split
  · rename_i hc
    simp [hc, hd.symm]
  · simp

lemma classSym_injective {c d : Char} (h : classSym c = classSym d) : c = d := by
  rw [← classSym_char c, h, classSym_char]

lemma reads_classCharRegex {reader reader' : Reader}
    (h : reader.step (classSym c) = some reader') : Reads reader (classCharRegex c) reader' := by
  by_cases hc : c = '\\'
  · subst hc
    exact reads_quoted (by decide) h
  · rw [classCharRegex, if_neg hc]
    exact reads_plain hc (by simpa [classSym, hc] using h)

/-- In a class whose ranges so far are those of `globset`, the reader stands before an item that
starts with `next`, if there is one more. `globset` has the character in hand as a range. -/
inductive Stands (negated : Bool) : Mode → List (Char × Char) → Option Char → Prop
  | opened {d : Char} (hneg : negated = false) (hd : d ∉ ['-', '^']) :
      Stands negated .opened [] (some d)
  | leading {ranges : List (Char × Char)} {next : Option Char}
      (h : ranges = [] → ∃ d, next = some d ∧ d ≠ '-') :
      Stands negated (.leading negated ranges) ranges next
  | item {ranges : List (Char × Char)} {next : Option Char} :
      Stands negated (.item negated ranges) ranges next
  | after {ranges : List (Char × Char)} {c : Char} {next : Option Char} (hc : c ≠ '-')
      (hop : c = '&' ∨ c = '~' → next ≠ some c) :
      Stands negated (.after negated ranges (classSym c)) (ranges ++ [(c, c)]) next

variable {negated : Bool} {mode : Mode} {ranges : List (Char × Char)}

lemma Stands.close (h : Stands negated mode ranges none) :
    Reader.step ⟨atoms, outer, mode⟩ (.plain ']') =
      some ⟨.chars negated ranges :: atoms, outer, .outside⟩ := by
  cases h with
  | leading h =>
    have hne : ranges ≠ [] := fun heq => by simpa using h heq
    simp [Reader.step, Reader.stepLeading, Reader.stepItem, Reader.push, hne]
  | item => simp [Reader.step, Reader.stepItem, Reader.push]
  | @after front c _ hc hop =>
    have hfirst : ¬((classSym c = .plain '&' ∨ classSym c = .plain '-' ∨ classSym c = .plain '~') ∧
        .plain ']' = classSym c) := by
      rintro ⟨h | h | h, heq⟩ <;> simp [h] at heq
    simp [Reader.step, Reader.stepAfter, Reader.stepItem, Reader.push, hfirst]

/-- A character that is neither a dash nor a bracket is taken in hand. -/
lemma Stands.take {d : Char} (h : Stands negated mode ranges (some d)) (hd : d ∉ ['-', '[', ']']) :
    Reader.step ⟨atoms, outer, mode⟩ (classSym d) =
      some ⟨atoms, outer, .after negated ranges (classSym d)⟩ := by
  have hdash : classSym d ≠ .plain '-' := by
    rw [Ne, classSym_eq_plain_iff (by decide)]
    exact fun heq => hd (by simp [heq])
  have hopen : classSym d ≠ .plain '[' := by
    rw [Ne, classSym_eq_plain_iff (by decide)]
    exact fun heq => hd (by simp [heq])
  have hclose : classSym d ≠ .plain ']' := by
    rw [Ne, classSym_eq_plain_iff (by decide)]
    exact fun heq => hd (by simp [heq])
  cases h with
  | opened hneg hcaret =>
    have hne : classSym d ≠ .plain '^' := by
      rw [Ne, classSym_eq_plain_iff (by decide)]
      exact fun heq => hcaret (by simp [heq])
    simp [Reader.step, Reader.stepLeading, Reader.stepItem, hdash, hopen, hclose, hne, hneg]
  | leading h => simp [Reader.step, Reader.stepLeading, Reader.stepItem, hdash, hopen, hclose]
  | item => simp [Reader.step, Reader.stepItem, hopen, hclose]
  | @after front c _ hc hop =>
    have hfirst : ¬((classSym c = .plain '&' ∨ classSym c = .plain '-' ∨ classSym c = .plain '~') ∧
        classSym d = classSym c) := by
      rintro ⟨hcase, heq⟩
      obtain rfl := classSym_injective heq
      rw [classSym_eq_plain_iff (by decide), classSym_eq_plain_iff (by decide),
        classSym_eq_plain_iff (by decide)] at hcase
      rcases hcase with hamp | hminus | htilde
      · exact hop (.inl hamp) rfl
      · exact hc hminus
      · exact hop (.inr htilde) rfl
    simp [Reader.step, Reader.stepAfter, Reader.stepItem, hfirst, hdash, hopen, hclose]

lemma Stands.closeDash (h : Stands negated mode ranges (some '-')) :
    Reads ⟨atoms, outer, mode⟩ ['-', ']']
      ⟨.chars negated (ranges ++ [('-', '-')]) :: atoms, outer, .outside⟩ := by
  refine reads_of_foldlM (by decide) ?_
  cases h with
  | opened _ hd => simp at hd
  | leading h => simp [Reader.step, Reader.stepLeading, Reader.stepItem, Reader.push]
  | item => simp [Reader.step, Reader.stepItem, Reader.stepAfter, Reader.push, Sym.char]
  | @after front c _ hc hop =>
    have hfirst : ¬((classSym c = .plain '&' ∨ classSym c = .plain '-' ∨ classSym c = .plain '~') ∧
        .plain '-' = classSym c) := by
      rintro ⟨-, heq⟩
      exact hc ((classSym_eq_plain_iff (by decide)).mp heq.symm)
    simp [Reader.step, Reader.stepAfter, Reader.stepRange, Reader.push, hfirst]

lemma reads_range {first last : Char} (hfirst : first ≠ '-') (hlast : last ∉ ['-', ']'])
    (hle : first ≤ last) :
    Reads ⟨atoms, outer, .after negated ranges (classSym first)⟩ ('-' :: classCharRegex last)
      ⟨atoms, outer, .item negated (ranges ++ [(first, last)])⟩ := by
  have hop : ¬((classSym first = .plain '&' ∨ classSym first = .plain '-' ∨
      classSym first = .plain '~') ∧ .plain '-' = classSym first) := by
    rintro ⟨-, heq⟩
    exact hfirst ((classSym_eq_plain_iff (by decide)).mp heq.symm)
  have hdash : Reads ⟨atoms, outer, .after negated ranges (classSym first)⟩ ['-']
      ⟨atoms, outer, .range negated ranges (classSym first)⟩ :=
    reads_plain (by decide) (by simp [Reader.step, Reader.stepAfter, hop])
  have hminus : classSym last ≠ .plain '-' := by
    rw [Ne, classSym_eq_plain_iff (by decide)]
    exact fun heq => hlast (by simp [heq])
  have hclose : classSym last ≠ .plain ']' := by
    rw [Ne, classSym_eq_plain_iff (by decide)]
    exact fun heq => hlast (by simp [heq])
  exact hdash.trans (reads_classCharRegex (by simp [Reader.step, Reader.stepRange, hminus, hclose, hle]))

/-- `globset` finds a range the wrong way round, or closes the class at `rest` with the ranges that
the reader finds in the text. -/
def ReadsAlike (reader : Reader) (negated : Bool) (t rest : Text) : GlobParser.ClassEnd → Prop
  | .closed ranges left => left = rest ∧ Reads reader t (reader.push (.chars negated ranges))
  | .unclosed => False
  | .invalidRange => True

lemma ReadsAlike.after {reader : Reader} {mode' : Mode} {t u rest : Text} {e : GlobParser.ClassEnd}
    (ht : Reads reader t { reader with mode := mode' })
    (h : ReadsAlike { reader with mode := mode' } negated u rest e) :
    ReadsAlike reader negated (t ++ u) rest e := by
  cases e with
  | closed ranges left => exact ⟨h.1, ht.trans h.2⟩
  | unclosed => exact h
  | invalidRange => trivial

open GlobParser in
/-- The items of a class up to its closing bracket. -/
lemma readsAlike_items {items : Text} (h : SharedItems items) (rest : Text)
    (hstands : Stands negated mode ranges items.head?) :
    ReadsAlike ⟨atoms, outer, mode⟩ negated (items.flatMap classCharRegex ++ [']']) rest
      (classLoop false false ranges (items ++ ']' :: rest)) := by
  induction h generalizing mode ranges with
  | nil => exact ⟨rfl, reads_plain (by decide) hstands.close⟩
  | dash => exact ⟨rfl, hstands.closeDash⟩
  | @single c items hc hop h ih =>
    have hne : c ≠ ']' ∧ c ≠ '-' := by
      constructor <;> rintro rfl <;> simp at hc
    have hloop : classLoop false false ranges (c :: items ++ ']' :: rest) =
        classLoop false false (ranges ++ [(c, c)]) (items ++ ']' :: rest) := by
      simp [classLoop, hne]
    have hafter : Stands negated (.after negated ranges (classSym c)) (ranges ++ [(c, c)])
        items.head? := .after hne.2 hop
    rw [hloop, List.flatMap_cons, List.append_assoc]
    exact .after (reads_classCharRegex (hstands.take hc)) (ih hafter)
  | @range first last items hfirst hlast h ih =>
    have hne : first ≠ ']' ∧ first ≠ '-' := by
      constructor <;> rintro rfl <;> simp at hfirst
    have hne' : last ≠ ']' ∧ last ≠ '-' := by
      constructor <;> rintro rfl <;> simp at hlast
    -- The first character is a range of its own until the dash behind it is seen.
    have hloop : classLoop false false ranges (first :: '-' :: last :: items ++ ']' :: rest) =
        if last < first then .invalidRange
        else classLoop false false (ranges ++ [(first, last)]) (items ++ ']' :: rest) := by
      simp [classLoop, hne, hne']
    rw [hloop]
    split
    · trivial
    rename_i hlt
    have htake : Reads ⟨atoms, outer, mode⟩ (classCharRegex first)
        ⟨atoms, outer, .after negated ranges (classSym first)⟩ :=
      reads_classCharRegex (hstands.take hfirst)
    have hread := htake.trans (reads_range hne.2 hlast (not_lt.mp hlt))
    simpa [classCharRegex] using ReadsAlike.after hread (ih .item)

open GlobParser in
/-- The characters of a class after its negation. -/
lemma readsAlike_body {body : Text} (h : SharedBody body) (rest : Text)
    (hmode : mode = .leading negated [] ∨
      mode = .opened ∧ negated = false ∧ body.head? ≠ some '^') :
    ReadsAlike ⟨atoms, outer, mode⟩ negated (body.flatMap classCharRegex ++ [']']) rest
      (classLoop true false [] (body ++ ']' :: rest)) := by
  cases h with
  | @dash items h =>
    have hread : Reads ⟨atoms, outer, mode⟩ (classCharRegex '-')
        ⟨atoms, outer, .leading negated [('-', '-')]⟩ := by
      refine reads_classCharRegex ?_
      rcases hmode with rfl | ⟨rfl, rfl, -⟩ <;> rfl
    have hstands : Stands negated (.leading negated [('-', '-')]) [('-', '-')] items.head? :=
      .leading (by simp)
    rw [List.flatMap_cons, List.append_assoc]
    exact .after hread (readsAlike_items h rest hstands)
  | @items c items hc h =>
    have hclose : c ≠ ']' := by
      rintro rfl
      cases h with
      | single hmem | range hmem => simp at hmem
    have hloop : classLoop true false [] (c :: items ++ ']' :: rest) =
        classLoop false false [] (c :: items ++ ']' :: rest) := by
      simp [classLoop, hc, hclose]
    have hstands : Stands negated mode [] (c :: items).head? := by
      rcases hmode with rfl | ⟨rfl, rfl, hcaret⟩
      · exact .leading fun _ => ⟨c, rfl, hc⟩
      · have hne : c ≠ '^' := by simpa using hcaret
        exact .opened rfl (by simp [hc, hne])
    rw [hloop]
    exact readsAlike_items h rest hstands

variable {cls : Text}

open GlobParser in
/-- A shared class is read by both parsers from the same characters on. -/
lemma SharedClass.exists_body (h : SharedClass cls) (atoms : List (Regex Char))
    (outer : List (List (Regex Char))) (rest : Text) :
    ∃ negated mode, ∃ body t : Text,
      (∀ p : GlobParser, p.parseClass (cls ++ ']' :: rest) =
        p.endClass negated (cls ++ ']' :: rest) (classLoop true false [] (body ++ ']' :: rest))) ∧
      classRegex cls = t ++ (body.flatMap classCharRegex ++ [']']) ∧
      Reads ⟨atoms, outer, .outside⟩ t ⟨atoms, outer, mode⟩ ∧
      ReadsAlike ⟨atoms, outer, mode⟩ negated (body.flatMap classCharRegex ++ [']']) rest
        (classLoop true false [] (body ++ ']' :: rest)) := by
  cases h with
  | @negated body h =>
    refine ⟨true, .leading true [], body, ['[', '^'], ?_, rfl, ?_, ?_⟩
    · intro p
      simp [parseClass]
    · exact reads_of_foldlM (by decide) rfl
    · exact readsAlike_body h rest (.inl rfl)
  | @positive first body hfirst h =>
    have hne : first ≠ '!' ∧ first ≠ '^' ∧ first ≠ '\\' := by simpa using hfirst
    refine ⟨false, .opened, first :: body, ['['], ?_, ?_, ?_, ?_⟩
    · intro p
      simp [parseClass, hne]
    · simp [classRegex, classCharRegex, hne]
    · exact reads_of_foldlM (by decide) rfl
    · exact readsAlike_body h rest (.inr ⟨rfl, rfl, by simpa using hne.2.1⟩)

/-- The characters of a class as `globset` and the reader take them. -/
lemma parseClass_eq_some {cls rest left : Text} (h : SharedClass cls) {p p' : GlobParser}
    (hp : p.parseClass (cls ++ ']' :: rest) = some (p', left)) :
    ∃ negated ranges, left = rest ∧
      GlobParser.pushToken { p with cur := some ']' } (.charClass negated ranges) = some p' ∧
      Reads ⟨atoms, outer, .outside⟩ (classRegex cls)
        ⟨.chars negated ranges :: atoms, outer, .outside⟩ := by
  obtain ⟨negated, mode, body, t, hparse, hregex, hread, halike⟩ := h.exists_body atoms outer rest
  rw [hparse] at hp
  revert hp halike
  cases GlobParser.classLoop true false [] (body ++ ']' :: rest) with
  | closed ranges left' =>
    rintro hp ⟨rfl, hclass⟩
    obtain ⟨p'', hpush, heq⟩ := Option.map_eq_some_iff.mp hp
    obtain ⟨rfl, rfl⟩ : p'' = p' ∧ left' = left := by simpa using heq
    exact ⟨negated, ranges, rfl, hpush, hregex ▸ hread.trans hclass⟩
  | unclosed => exact fun _ halike => halike.elim
  | invalidRange =>
    intro hp _
    simp [GlobParser.endClass] at hp

/-! ## The languages on both sides -/

/-- The paths that a token stands for. -/
def Token.language (token : Token) : Language Char := (token.toRegex.getD .epsilon).language

/-- The paths that a sequence of tokens stands for. -/
def tokensLanguage (tokens : List Token) : Language Char :=
  ((tokensToRegex tokens).getD .epsilon).language

lemma tokensLanguage_cons (token : Token) (tokens : List Token) :
    tokensLanguage (token :: tokens) = token.language * tokensLanguage tokens := by
  unfold tokensLanguage Token.language
  rw [tokensToRegex]
  cases token.toRegex with
  | none =>
    rw [Option.merge_none_left]
    exact (one_mul _).symm
  | some r =>
    cases tokensToRegex tokens with
    | none => exact (mul_one _).symm
    | some s => rfl

lemma tokensLanguage_append (front back : List Token) :
    tokensLanguage (front ++ back) = tokensLanguage front * tokensLanguage back := by
  induction front with
  | nil => exact (one_mul _).symm
  | cons token front ih =>
    rw [List.cons_append, tokensLanguage_cons, ih, tokensLanguage_cons, mul_assoc]

lemma tokensLanguage_singleton (token : Token) : tokensLanguage [token] = token.language := by
  rw [tokensLanguage_cons]
  exact mul_one _

variable {tokens : List Token}

/-- Only the pattern `**` stands for more than its tokens. -/
lemma globRegex_language (h : Token.recursivePrefix ∉ tokens) :
    (globRegex tokens).language = tokensLanguage tokens := by
  unfold globRegex
  split
  · simp at h
  · rfl

/-- The paths that the atoms of the reader stand for. -/
def atomsLanguage (atoms : List (Regex Char)) : Language Char := (seq atoms.reverse).language

lemma atomsLanguage_cons (atom : Regex Char) (atoms : List (Regex Char)) :
    atomsLanguage (atom :: atoms) = atomsLanguage atoms * atom.language := by
  rw [atomsLanguage, List.reverse_cons, language_seq_append, language_seq_singleton, atomsLanguage]

/-- What `globset` has read stands for no more than what the reader has read, and a separator that
was read last is a token of its own. -/
structure Tracks (tokens : List Token) (cur : Option Char) (atoms : List (Regex Char)) : Prop where
  nonempty : tokens ≠ []
  noPrefix : Token.recursivePrefix ∉ tokens
  contained : tokensLanguage tokens ≤ atomsLanguage atoms
  separator : cur = some '/' → ∃ front last, tokens = front ++ [last] ∧
    (last = .literal '/' ∨ last = .recursiveZeroOrMore)

namespace Tracks

variable {tokens : List Token} {cur cur' : Option Char}

lemma append {back : List Token} {atom : Regex Char} (h : Tracks tokens cur atoms)
    (hfree : Token.recursivePrefix ∉ back) (hle : tokensLanguage back ≤ atom.language)
    (hcur : cur' = some '/' → ∃ front, back = front ++ [.literal '/']) :
    Tracks (tokens ++ back) cur' (atom :: atoms) where
  nonempty := by simp [h.nonempty]
  noPrefix := by simp [h.noPrefix, hfree]
  contained := by
    rw [tokensLanguage_append, atomsLanguage_cons]
    exact mul_le_mul' h.contained hle
  separator := by
    intro heq
    obtain ⟨front, rfl⟩ := hcur heq
    exact ⟨tokens ++ front, .literal '/', by simp, .inl rfl⟩

lemma exists_front (h : Tracks tokens (some '/') atoms) :
    ∃ front last, tokens = front ++ [last] ∧ (last = .literal '/' ∨ last = .recursiveZeroOrMore) ∧
      Token.recursivePrefix ∉ front ∧
      ∀ w ∈ tokensLanguage front, w ++ ['/'] ∈ atomsLanguage atoms := by
  obtain ⟨front, last, rfl, hlast⟩ := h.separator rfl
  have hslash : ['/'] ∈ last.language := by
    rcases hlast with rfl | rfl
    · exact mem_char.mpr rfl
    · exact Or.inl (mem_char.mpr rfl)
  refine ⟨front, last, rfl, hlast, ?_, ?_⟩
  · exact fun hmem => h.noPrefix (List.mem_append_left _ hmem)
  · intro w hw
    apply h.contained
    rw [tokensLanguage_append, tokensLanguage_singleton]
    exact Language.append_mem_mul hw hslash

lemma replace {front : List Token} {token : Token} {atom : Regex Char}
    (hfront : ∀ w ∈ tokensLanguage front, w ++ ['/'] ∈ atomsLanguage atoms)
    (hfree : Token.recursivePrefix ∉ front) (htoken : token ≠ .recursivePrefix)
    (hle : ∀ v ∈ token.language, ∃ u ∈ atom.language, v = '/' :: u)
    (hcur : cur' = some '/' → token = .recursiveZeroOrMore) :
    Tracks (front ++ [token]) cur' (atom :: atoms) where
  nonempty := by simp
  noPrefix := by simp [hfree, htoken.symm]
  contained := by
    rw [tokensLanguage_append, tokensLanguage_singleton, atomsLanguage_cons]
    intro x hx
    obtain ⟨w, hw, v, hv, rfl⟩ := Language.mem_mul.mp hx
    obtain ⟨u, hu, rfl⟩ := hle v hv
    have hsplit : w ++ '/' :: u = w ++ ['/'] ++ u := by simp
    rw [hsplit]
    exact Language.append_mem_mul (hfront w hw) hu
  separator := fun heq => ⟨front, token, rfl, .inr (hcur heq)⟩

end Tracks

lemma mem_anything (w : Text) : w ∈ anything.language := mem_star_any w

/-- The atom that `**` and a separator become takes every word that ends with a separator. -/
lemma mem_components (w : Text) : w ++ ['/'] ∈ (opt (seq [anything, .char '/'])).language := by
  refine Or.inr (Language.append_mem_mul (mem_anything w) ?_)
  rw [language_seq_singleton]
  exact mem_char.mpr rfl

lemma twoStars_separator_le :
    tokensLanguage [.zeroOrMore, .zeroOrMore, .literal '/'] ≤
      (opt (seq [anything, .char '/'])).language := by
  intro x hx
  have hsplit : [Token.zeroOrMore, .zeroOrMore, .literal '/'] =
      [.zeroOrMore, .zeroOrMore] ++ [.literal '/'] := rfl
  rw [hsplit, tokensLanguage_append, tokensLanguage_singleton] at hx
  obtain ⟨w, -, v, hv, rfl⟩ := Language.mem_mul.mp hx
  obtain rfl : v = ['/'] := mem_char.mp hv
  exact mem_components w

lemma recursiveZeroOrMore_split {v : Text} (hv : v ∈ Token.recursiveZeroOrMore.language) :
    ∃ u ∈ (opt (seq [anything, .char '/'])).language, v = '/' :: u := by
  rcases hv with hv | hv
  · exact ⟨[], Or.inl rfl, mem_char.mp hv⟩
  obtain ⟨sep, hsep, tail, htail, rfl⟩ := Language.mem_mul.mp hv
  obtain ⟨w, -, last, hlast, rfl⟩ := Language.mem_mul.mp htail
  obtain rfl : sep = ['/'] := mem_char.mp hsep
  obtain rfl : last = ['/'] := mem_char.mp hlast
  exact ⟨w ++ ['/'], mem_components w, rfl⟩

lemma recursiveSuffix_split {v : Text} (hv : v ∈ Token.recursiveSuffix.language) :
    ∃ u ∈ anything.language, v = '/' :: u := by
  obtain ⟨sep, hsep, w, hw, rfl⟩ := Language.mem_mul.mp hv
  obtain rfl : sep = ['/'] := mem_char.mp hsep
  exact ⟨w, hw, rfl⟩

/-! ## One round on both sides -/

namespace GlobParser

variable {tokens : List Token} {cur prev : Option Char} {found : Bool} {rest : Text}

/-- The parser outside the groups of alternatives. -/
def flat (tokens : List Token) (cur : Option Char) (found : Bool) : GlobParser :=
  ⟨[tokens], [], cur, found⟩

lemma parse_cons {p p' : GlobParser} {fuel : ℕ} (h : p.parse fuel (c :: rest) = some p') :
    ∃ fuel' p₁ rest₁, p.parseNext c rest = some (p₁, rest₁) ∧ p₁.parse fuel' rest₁ = some p' := by
  cases fuel with
  | zero => simp [parse] at h
  | succ fuel =>
    obtain ⟨⟨p₁, rest₁⟩, hnext, hparse⟩ := Option.bind_eq_some_iff.mp h
    exact ⟨fuel, p₁, rest₁, hnext, hparse⟩

lemma parseNext_literal (hc : c ∉ ['*', '?', '[', '\\', '\x7b', '\x7d']) :
    (flat tokens cur found).parseNext c rest =
      some (flat (tokens ++ [.literal c]) (some c) found, rest) := by
  have hne : c ≠ '*' ∧ c ≠ '?' ∧ c ≠ '[' ∧ c ≠ '\\' ∧ c ≠ '\x7b' ∧ c ≠ '\x7d' := by simpa using hc
  by_cases hcomma : c = ','
  · subst hcomma
    rfl
  · simp [parseNext, hne, hcomma, pushToken, flat]

lemma parseNext_any :
    (flat tokens cur found).parseNext '?' rest =
      some (flat (tokens ++ [.any]) (some '?') found, rest) := rfl

lemma parseNext_brace : (flat tokens cur found).parseNext '\x7d' rest = none := rfl

lemma parseNext_star (h : rest.head? ≠ some '*') :
    (flat tokens cur found).parseNext '*' rest =
      some (flat (tokens ++ [.zeroOrMore]) (some '*') found, rest) := by
  cases rest with
  | nil => rfl
  | cons c rest =>
    have hc : c ≠ '*' := by simpa using h
    simp [parseNext, parseStar, hc, pushToken, flat]

lemma parseNext_twoStars (hne : tokens ≠ []) (h : cur ≠ some '/' ∨ rest ≠ [] ∧ rest.head? ≠ some '/') :
    (flat tokens cur found).parseNext '*' ('*' :: rest) =
      some (flat (tokens ++ [.zeroOrMore, .zeroOrMore]) (some '*') found, rest) := by
  by_cases hcur : cur = some '/'
  · obtain ⟨hrest, hhead⟩ := h.resolve_left (not_not_intro hcur)
    obtain ⟨c, rest, rfl⟩ := List.exists_cons_of_ne_nil hrest
    have hc : c ≠ '/' := by simpa using hhead
    simp [parseNext, parseStar, parseTwoStars, haveTokens, pushTwoStars, pushToken, flat, hcur, hc]
  · simp [parseNext, parseStar, parseTwoStars, haveTokens, pushTwoStars, pushToken, flat, hne, hcur]

variable {front : List Token} {last : Token}

lemma parseNext_recursiveSuffix (hlast : last = .literal '/' ∨ last = .recursiveZeroOrMore) :
    (flat (front ++ [last]) (some '/') found).parseNext '*' ['*'] =
      some (flat (front ++ [.recursiveSuffix]) (some '*') found, []) := by
  rcases hlast with rfl | rfl <;>
    simp [parseNext, parseStar, parseTwoStars, haveTokens, pushRecursive, popToken, pushToken, flat]

lemma parseNext_recursiveZeroOrMore (hlast : last = .literal '/' ∨ last = .recursiveZeroOrMore) :
    (flat (front ++ [last]) (some '/') found).parseNext '*' ('*' :: '/' :: rest) =
      some (flat (front ++ [.recursiveZeroOrMore]) (some '/') found, rest) := by
  rcases hlast with rfl | rfl <;>
    simp [parseNext, parseStar, parseTwoStars, haveTokens, pushRecursive, popToken, pushToken, flat]

lemma classLoop_ne_closed (hrest : ']' ∉ rest) (first inRange : Bool) (ranges : List (Char × Char))
    (ranges' : List (Char × Char)) (left : Text) :
    classLoop first inRange ranges rest ≠ .closed ranges' left := by
  induction rest generalizing first inRange ranges with
  | nil => simp [classLoop]
  | cons c rest ih =>
    have hc : c ≠ ']' := fun heq => hrest (heq ▸ List.mem_cons_self)
    have hrest' : ']' ∉ rest := fun hmem => hrest (List.mem_cons_of_mem _ hmem)
    rw [classLoop, if_neg hc]
    split
    · exact ih hrest' _ _ _
    split
    · exact ih hrest' _ _ _
    split
    · split
      · simp
      · split
        · simp
        · exact ih hrest' _ _ _
    · exact ih hrest' _ _ _

lemma parseNext_unclosed (hrest : ']' ∉ rest) {p' : GlobParser} {left : Text}
    (h : (flat tokens cur found).parseNext '[' rest = some (p', left)) :
    p' = flat (tokens ++ [.literal '[']) (some '[') true ∧ left = rest := by
  cases found with
  | true =>
    have hstep : (flat tokens cur true).parseNext '[' rest =
        some (flat (tokens ++ [.literal '[']) (some '[') true, rest) := rfl
    rw [hstep] at h
    simp_all
  | false =>
    let chars := if rest.head? = some '!' ∨ rest.head? = some '^' then rest.tail else rest
    have hclosed : ']' ∉ chars := by
      show ']' ∉ ite _ _ _
      split
      · exact fun hmem => hrest (List.mem_of_mem_tail hmem)
      · exact hrest
    have hstep : (flat tokens cur false).parseNext '[' rest =
        (flat tokens (some '[') false).endClass (rest.head? = some '!' ∨ rest.head? = some '^') rest
          (classLoop true false [] chars) := rfl
    rw [hstep] at h
    cases hend : classLoop true false [] chars with
    | closed ranges left' => exact absurd hend (classLoop_ne_closed hclosed _ _ _ _ _)
    | unclosed =>
      rw [hend] at h
      simp_all [endClass, pushToken, flat]
    | invalidRange => simp [hend, endClass] at h

lemma parseNext_closed {cls left : Text} (h : SharedClass cls) (atoms : List (Regex Char))
    (outer : List (List (Regex Char))) {p' : GlobParser}
    (hp : (flat tokens cur false).parseNext '[' (cls ++ ']' :: rest) = some (p', left)) :
    ∃ negated ranges, left = rest ∧
      p' = flat (tokens ++ [.charClass negated ranges]) (some ']') false ∧
      Reads ⟨atoms, outer, .outside⟩ (classRegex cls)
        ⟨.chars negated ranges :: atoms, outer, .outside⟩ := by
  have hstep : (flat tokens cur false).parseNext '[' (cls ++ ']' :: rest) =
      (flat tokens (some '[') false).parseClass (cls ++ ']' :: rest) := rfl
  rw [hstep] at hp
  obtain ⟨negated, ranges, hleft, hpush, hread⟩ := parseClass_eq_some h hp
  exact ⟨negated, ranges, hleft, (Option.some.inj hpush).symm, hread⟩

end GlobParser

open GlobParser

/-- Both sides stand before `rest`: `globset` goes on to `p'`, and what it has read is tracked. Once
it has found an unclosed class, no closing bracket is left. -/
def Lockstep (p' : GlobParser) (atoms : List (Regex Char)) (rest : Text) : Prop :=
  ∃ fuel tokens cur found, (flat tokens cur found).parse fuel rest = some p' ∧
    Tracks tokens cur atoms ∧ (found = true → ']' ∉ rest) ∧ SharedSyntax rest

variable {p' : GlobParser} {rest : Text}

/-- A round that reads `piece` as one atom and leaves both sides before the same characters. -/
def Round (p' : GlobParser) (atoms : List (Regex Char)) (outer : List (List (Regex Char)))
    (piece : Piece) : Prop :=
  ∃ atom, Reads ⟨atoms, outer, .outside⟩ piece.regex ⟨atom :: atoms, outer, .outside⟩ ∧
    Lockstep p' (atom :: atoms) piece.chars

lemma SharedSyntax.tail (h : SharedSyntax (c :: rest)) (hc : c ≠ '[') :
    SharedSyntax rest := by
  cases h with
  | cons _ h => exact h
  | closed | unclosed => exact absurd rfl hc

variable {cur : Option Char} {fuel : ℕ} {found : Bool}

/-- A round outside of groups adds one atom to the regex. -/
lemma round_of_flat {chars : Text} {piece : Piece} {tokens' : List Token} {cur' : Option Char} {found' : Bool}
    {atom : Regex Char} (hp : (flat tokens cur found).parse fuel (c :: chars) = some p')
    (hnext : (flat tokens cur found).parseNext c chars = some (flat tokens' cur' found', rest))
    (hread : Reads ⟨atoms, outer, .outside⟩ piece.regex ⟨atom :: atoms, outer, .outside⟩)
    (hrest : piece.chars = rest) (htracks : Tracks tokens' cur' (atom :: atoms))
    (hfound : found' = true → ']' ∉ rest) (hshared : SharedSyntax rest) : Round p' atoms outer piece := by
  obtain ⟨fuel', p₁, rest₁, hnext', hparse⟩ := parse_cons hp
  rw [hnext] at hnext'
  obtain ⟨rfl, rfl⟩ := Prod.mk.inj (Option.some.inj hnext')
  exact ⟨atom, hread, hrest ▸ ⟨fuel', _, _, _, hparse, htracks, hfound, hshared⟩⟩

lemma round_literal (hc : c ∉ ['*', '?', '[', '\\', '\x7b', '\x7d']) (hshared : SharedSyntax rest)
    (hfound : found = true → ']' ∉ c :: rest) (htracks : Tracks tokens cur atoms)
    (hp : (flat tokens cur found).parse fuel (c :: rest) = some p') :
    Round p' atoms outer (translateNext c rest) := by
  have hne : c ≠ '*' ∧ c ≠ '?' ∧ c ≠ '[' := by
    refine ⟨?_, ?_, ?_⟩ <;> rintro rfl <;> simp at hc
  have hpiece : (translateNext c rest).regex = escape c ∧ (translateNext c rest).chars = rest := by
    by_cases hclose : c = ']'
    · subst hclose
      exact ⟨rfl, rfl⟩
    · simp [translateNext, hne, hclose]
  refine round_of_flat hp (parseNext_literal hc) (hpiece.1 ▸ reads_escape c) hpiece.2
    (htracks.append (by simp) (tokensLanguage_singleton _).le ?_)
    (fun h hmem => hfound h (List.mem_cons_of_mem _ hmem)) hshared
  intro heq
  obtain rfl : c = '/' := Option.some.inj heq
  exact ⟨[], rfl⟩

lemma round_any (hshared : SharedSyntax rest) (hfound : found = true → ']' ∉ '?' :: rest)
    (htracks : Tracks tokens cur atoms)
    (hp : (flat tokens cur found).parse fuel ('?' :: rest) = some p') :
    Round p' atoms outer (translateNext '?' rest) :=
  round_of_flat hp parseNext_any reads_otherSeparator rfl
    (htracks.append (by simp) (tokensLanguage_singleton _).le (by simp))
    (fun h hmem => hfound h (List.mem_cons_of_mem _ hmem)) hshared

lemma round_star (hhead : rest.head? ≠ some '*') (hshared : SharedSyntax rest)
    (hfound : found = true → ']' ∉ '*' :: rest) (htracks : Tracks tokens cur atoms)
    (hp : (flat tokens cur found).parse fuel ('*' :: rest) = some p') :
    Round p' atoms outer (translateNext '*' rest) := by
  have hpiece : translateNext '*' rest = ⟨"[^/]*".toList, true, rest⟩ := by
    simp [translateNext, hhead]
  rw [hpiece]
  exact round_of_flat hp (parseNext_star hhead) reads_withinComponent rfl
    (htracks.append (by simp) (tokensLanguage_singleton _).le (by simp))
    (fun h hmem => hfound h (List.mem_cons_of_mem _ hmem)) hshared

lemma round_twoStars (hhead : rest.head? ≠ some '/') (hshared : SharedSyntax rest)
    (hfound : found = true → ']' ∉ '*' :: '*' :: rest) (htracks : Tracks tokens cur atoms)
    (hp : (flat tokens cur found).parse fuel ('*' :: '*' :: rest) = some p') :
    Round p' atoms outer (translateNext '*' ('*' :: rest)) := by
  have hpiece : translateNext '*' ('*' :: rest) = ⟨".*".toList, true, rest⟩ := by
    simp [translateNext, hhead]
  have hfound' : found = true → ']' ∉ rest := fun h hmem =>
    hfound h (List.mem_cons_of_mem _ (List.mem_cons_of_mem _ hmem))
  rw [hpiece]
  by_cases hsuffix : cur = some '/' ∧ rest = []
  · -- The stars end the pattern after a separator, which `globset` takes back.
    obtain ⟨rfl, rfl⟩ := hsuffix
    obtain ⟨front, last, rfl, hlast, hfree, hfront⟩ := htracks.exists_front
    exact round_of_flat hp (parseNext_recursiveSuffix hlast) reads_anything rfl
      (Tracks.replace hfront hfree (by simp) (fun v hv => recursiveSuffix_split hv) (by simp)) hfound' hshared
  · have hcase : cur ≠ some '/' ∨ rest ≠ [] ∧ rest.head? ≠ some '/' := by
      by_cases hcur : cur = some '/'
      · exact .inr ⟨fun h => hsuffix ⟨hcur, h⟩, hhead⟩
      · exact .inl hcur
    exact round_of_flat hp (parseNext_twoStars htracks.nonempty hcase) reads_anything rfl
      (htracks.append (by simp) (fun w _ => mem_anything w) (by simp)) hfound' hshared

lemma round_components
    (hshared : SharedSyntax rest) (hfound : found = true → ']' ∉ '*' :: '*' :: '/' :: rest)
    (htracks : Tracks tokens cur atoms)
    (hp : (flat tokens cur found).parse fuel ('*' :: '*' :: '/' :: rest) = some p') :
    Round p' atoms outer (translateNext '*' ('*' :: '/' :: rest)) := by
  have hpiece : translateNext '*' ('*' :: '/' :: rest) = ⟨"(.*/)?".toList, true, rest⟩ := by
    simp [translateNext]
  have hfound' : found = true → ']' ∉ rest := fun h hmem =>
    hfound h (List.mem_cons_of_mem _ (List.mem_cons_of_mem _ (List.mem_cons_of_mem _ hmem)))
  rw [hpiece]
  by_cases hcur : cur = some '/'
  · subst hcur
    obtain ⟨front, last, rfl, hlast, hfree, hfront⟩ := htracks.exists_front
    exact round_of_flat hp (parseNext_recursiveZeroOrMore hlast) reads_components rfl
      (Tracks.replace hfront hfree (by simp) (fun v hv => recursiveZeroOrMore_split hv) fun _ => rfl) hfound'
      hshared
  · -- `globset` reads the separator in a round of its own.
    obtain ⟨fuel', p₁, rest₁, hnext, hparse⟩ := parse_cons hp
    rw [parseNext_twoStars htracks.nonempty (.inl hcur)] at hnext
    obtain ⟨rfl, rfl⟩ := Prod.mk.inj (Option.some.inj hnext)
    refine round_of_flat hparse (parseNext_literal (by decide)) reads_components rfl ?_ hfound' hshared
    rw [List.append_assoc]
    exact htracks.append (by simp) twoStars_separator_le fun _ => ⟨[.zeroOrMore, .zeroOrMore], rfl⟩

lemma readClass_append (h : ']' ∉ cls) (rest : Text) :
    readClass (cls ++ ']' :: rest) = some (cls, rest) := by
  induction cls with
  | nil => simp [readClass]
  | cons c cls ih =>
    have hc : c ≠ ']' := fun heq => h (heq ▸ List.mem_cons_self)
    have hcls : ']' ∉ cls := fun hmem => h (List.mem_cons_of_mem _ hmem)
    simp [readClass, hc, ih hcls]

lemma readClass_eq_none {chars : Text} (h : ']' ∉ chars) : readClass chars = none := by
  induction chars with
  | nil => rfl
  | cons c chars ih =>
    have hc : c ≠ ']' := fun heq => h (heq ▸ List.mem_cons_self)
    have hchars : ']' ∉ chars := fun hmem => h (List.mem_cons_of_mem _ hmem)
    simp [readClass, hc, ih hchars]

lemma SharedItems.not_mem {items : Text} (h : SharedItems items) : ']' ∉ items := by
  induction h with
  | nil | dash => simp
  | single hc _ _ ih =>
    intro hmem
    rcases List.mem_cons.mp hmem with rfl | hmem
    · simp at hc
    · exact ih hmem
  | range hfirst hlast _ ih =>
    intro hmem
    simp only [List.mem_cons] at hmem
    rcases hmem with rfl | heq | rfl | hmem
    · simp at hfirst
    · simp at heq
    · simp at hlast
    · exact ih hmem

lemma SharedBody.not_mem {body : Text} (h : SharedBody body) : ']' ∉ body := by
  cases h with
  | dash h => simpa using h.not_mem
  | items _ h => exact h.not_mem

lemma SharedClass.not_mem (h : SharedClass cls) : ']' ∉ cls := by
  cases h with
  | negated h => simpa using h.not_mem
  | positive _ h => exact h.not_mem

lemma round_closed (hcls : SharedClass cls) (hshared : SharedSyntax rest)
    (hfound : found = true → ']' ∉ '[' :: (cls ++ ']' :: rest)) (htracks : Tracks tokens cur atoms)
    (hp : (flat tokens cur found).parse fuel ('[' :: (cls ++ ']' :: rest)) = some p') :
    Round p' atoms outer (translateNext '[' (cls ++ ']' :: rest)) := by
  have hpiece : translateNext '[' (cls ++ ']' :: rest) = ⟨classRegex cls, true, rest⟩ := by
    simp [translateNext, readClass_append hcls.not_mem]
  obtain rfl : found = false := by
    by_contra htrue
    exact hfound (by simpa using htrue) (by simp)
  obtain ⟨fuel', p₁, rest₁, hnext, -⟩ := parse_cons hp
  obtain ⟨negated, ranges, rfl, rfl, hread⟩ := parseNext_closed hcls atoms outer hnext
  rw [hpiece]
  exact round_of_flat hp hnext hread rfl (htracks.append (by simp) (tokensLanguage_singleton _).le (by simp))
    nofun hshared

lemma round_unclosed
    (hrest : ']' ∉ rest) (hshared : SharedSyntax rest) (htracks : Tracks tokens cur atoms)
    (hp : (flat tokens cur found).parse fuel ('[' :: rest) = some p') :
    Round p' atoms outer (translateNext '[' rest) := by
  have hpiece : translateNext '[' rest = ⟨escape '[', true, rest⟩ := by
    simp [translateNext, readClass_eq_none hrest]
    rfl
  obtain ⟨fuel', p₁, rest₁, hnext, -⟩ := parse_cons hp
  obtain ⟨rfl, rfl⟩ := parseNext_unclosed hrest hnext
  rw [hpiece]
  exact round_of_flat hp hnext (reads_escape '[') rfl
    (htracks.append (by simp) (tokensLanguage_singleton _).le (by simp)) (fun _ => hrest) hshared

/-- Both sides read a round of the translation alike. -/
lemma Lockstep.round (h : Lockstep p' atoms (c :: rest)) :
    Round p' atoms outer (translateNext c rest) := by
  obtain ⟨fuel, tokens, cur, found, hp, htracks, hfound, hshared⟩ := h
  cases hshared with
  | closed hcls hshared => exact round_closed hcls hshared hfound htracks hp
  | unclosed hrest hshared => exact round_unclosed hrest hshared htracks hp
  | cons hc hshared =>
    have hne : c ≠ '[' ∧ c ≠ '\\' ∧ c ≠ '\x7b' := by simpa using hc
    by_cases hstar : c = '*'
    · subst hstar
      match rest with
      | [] => exact round_star (by simp) hshared hfound htracks hp
      | d :: rest =>
        by_cases hd : d = '*'
        · subst hd
          have hshared := hshared.tail (by decide)
          match rest with
          | [] => exact round_twoStars (by simp) hshared hfound htracks hp
          | e :: rest =>
            by_cases he : e = '/'
            · subst he
              exact round_components (hshared.tail (by decide)) hfound htracks hp
            · exact round_twoStars (by simpa using he) hshared hfound htracks hp
        · exact round_star (by simpa using hd) hshared hfound htracks hp
    · by_cases hany : c = '?'
      · subst hany
        exact round_any hshared hfound htracks hp
      by_cases hbrace : c = '\x7d'
      · -- Without an open group the brace is an error, and `globset` does not go on.
        subst hbrace
        obtain ⟨fuel', p₁, rest₁, hnext, -⟩ := parse_cons hp
        rw [parseNext_brace] at hnext
        simp at hnext
      · refine round_literal ?_ hshared hfound htracks hp
        simp [hne, hstar, hany, hbrace]

/-! ## The whole pattern -/

lemma length_readClass {chars cls rest : Text} (h : readClass chars = some (cls, rest)) :
    rest.length ≤ chars.length := by
  induction chars generalizing cls with
  | nil => simp [readClass] at h
  | cons c chars ih =>
    rw [readClass] at h
    split at h
    · obtain ⟨-, rfl⟩ : [] = cls ∧ chars = rest := by simpa using h
      simp
    · obtain ⟨⟨cls', rest'⟩, hread, heq⟩ := Option.map_eq_some_iff.mp h
      obtain ⟨-, rfl⟩ : c :: cls' = cls ∧ rest' = rest := by simpa using heq
      exact (ih hread).trans (by simp)

lemma length_translateNext (c : Char) (chars : Text) :
    (translateNext c chars).chars.length ≤ chars.length := by
  unfold translateNext
  split
  · split
    · simp
    split
    · simp
    · simp only [List.length_tail]
      omega
  · split
    · simp
    split
    · split
      · simp
      · rename_i hread
        exact length_readClass hread
    · split <;> simp

lemma translate_reads (fuel : ℕ) {t : Text} (sawGlob : Bool) (hfuel : rest.length ≤ fuel)
    (h : Lockstep p' atoms rest) (ht : Reads .start t ⟨atoms, [], .outside⟩) :
    ∃ t' atoms' sawGlob', translate fuel ('^' :: t) sawGlob rest = ('^' :: t', sawGlob') ∧
      Reads .start t' ⟨atoms', [], .outside⟩ ∧ Lockstep p' atoms' [] := by
  induction fuel generalizing rest atoms t sawGlob with
  | zero =>
    obtain rfl : rest = [] := by simpa using hfuel
    exact ⟨t, atoms, sawGlob, rfl, ht, h⟩
  | succ fuel ih =>
    cases rest with
    | nil => exact ⟨t, atoms, sawGlob, rfl, ht, h⟩
    | cons c rest =>
      obtain ⟨atom, hread, hnext⟩ : Round p' atoms [] (translateNext c rest) := h.round
      have hlen := length_translateNext c rest
      have hrest : (translateNext c rest).chars.length ≤ fuel := by
        rw [List.length_cons] at hfuel
        omega
      exact ih _ hrest hnext (ht.trans hread)

lemma lockstep_absolute (h : SharedSyntax ('/' :: rest))
    (hp : GlobParser.start.parse fuel ('/' :: rest) = some p') : Lockstep p' [.char '/'] rest := by
  obtain ⟨fuel', p₁, rest₁, hnext, hparse⟩ := parse_cons hp
  have hstart : GlobParser.start = flat [] none false := rfl
  rw [hstart, parseNext_literal (by decide), List.nil_append] at hnext
  obtain ⟨rfl, rfl⟩ := Prod.mk.inj (Option.some.inj hnext)
  have htracks : Tracks [.literal '/'] (some '/') [.char '/'] :=
    { nonempty := by simp
      noPrefix := by simp
      contained := (tokensLanguage_singleton _).trans_le (language_seq_singleton _).ge
      separator := fun _ => ⟨[], .literal '/', rfl, .inl rfl⟩ }
  exact ⟨fuel', _, _, false, hparse, htracks, by simp, h.tail (by decide)⟩

lemma Lockstep.mem_atomsLanguage {path : Text} (h : Lockstep p' atoms [])
    (htokens : p'.branches = [tokens]) (hpath : path ∈ (globRegex tokens).language) :
    path ∈ atomsLanguage atoms := by
  obtain ⟨fuel, tokens', cur, found, hp, htracks, -, -⟩ := h
  have hend : flat tokens' cur found = p' := by
    cases fuel <;> exact Option.some.inj hp
  obtain rfl : tokens' = tokens := by
    rw [← hend] at htokens
    simpa [flat] using htokens
  rw [globRegex_language htracks.noPrefix] at hpath
  exact htracks.contained hpath

/-- For every absolute pattern of the shared syntax that `build_glob_matcher` accepts, the
expression that the profile denies matches every path that the glob matches. -/
theorem regexMatches_of_globMatches {pattern path : Text} {glob : Regex Char}
    (habsolute : pattern.head? = some '/') (hshared : SharedSyntax pattern)
    (hglob : buildGlobMatcher pattern = some glob) (hpath : path ∈ glob.language) :
    ∃ expression, seatbeltRegexForUnreadableGlob pattern = some expression ∧
      RegexMatches expression path := by
  obtain ⟨rest, rfl⟩ : ∃ rest, pattern = '/' :: rest := by
    cases pattern with
    | nil => simp at habsolute
    | cons c rest => exact ⟨rest, by simpa using habsolute⟩
  obtain ⟨tokens, htokens, rfl⟩ := Option.map_eq_some_iff.mp hglob
  obtain ⟨p', hparse, hbranches⟩ := Option.bind_eq_some_iff.mp htokens
  have hbranches : p'.branches = [tokens] := by
    split at hbranches
    · rename_i heq
      rw [heq, Option.some.inj hbranches]
    · simp at hbranches
  have hslash : Reads .start ['/'] ⟨[.char '/'], [], .outside⟩ := reads_escape '/'
  obtain ⟨t, atoms, sawGlob, htranslate, hread, hend⟩ :=
    translate_reads rest.length false le_rfl (lockstep_absolute hshared hparse) hslash
  have hmem : path ∈ (seq atoms.reverse).language := hend.mem_atomsLanguage hbranches hpath
  have hexpression : seatbeltRegexForUnreadableGlob ('/' :: rest) =
      some ((if sawGlob then '^' :: t else ('^' :: t) ++ "(/.*)?".toList) ++ ['$']) := by
    have hround : translate ('/' :: rest).length ['^'] false ('/' :: rest) = ('^' :: t, sawGlob) :=
      htranslate
    rw [seatbeltRegexForUnreadableGlob, if_neg (List.cons_ne_nil _ _), hround]
  refine ⟨_, hexpression, ?_⟩
  cases sawGlob with
  | true => exact ⟨_, compile_of_reads hread, hmem⟩
  | false =>
    -- Without glob characters the subtree is denied too.
    refine ⟨_, compile_of_reads (hread.trans reads_subtree), ?_⟩
    have hnil : [] ∈ (opt (seq [.char '/', anything])).language := Or.inl rfl
    have happend := Language.append_mem_mul hmem hnil
    rw [List.append_nil] at happend
    rw [← atomsLanguage, atomsLanguage_cons]
    exact happend

/-- Stars, a class and a question mark. -/
theorem regexMatches_of_globMatches_classes :
    ∃ expression, seatbeltRegexForUnreadableGlob ['/', '*', '*', '/', '[', 'b', '-', 'd', ']', '?'] =
      some expression ∧ RegexMatches expression ['/', 'x', '/', 'c', '1'] := by
  have hclass : SharedClass ['b', '-', 'd'] :=
    .positive (by decide) (.items (by decide) (.range (by decide) (by decide) .nil))
  have hshared : SharedSyntax (['/', '*', '*', '/', '['] ++ (['b', '-', 'd'] ++ [']', '?'])) :=
    .cons (by decide) <| .cons (by decide) <| .cons (by decide) <| .cons (by decide) <|
      .closed hclass <| .cons (by decide) .nil
  have hglob : buildGlobMatcher ['/', '*', '*', '/', '[', 'b', '-', 'd', ']', '?'] =
      some (globRegex [.recursiveZeroOrMore, .charClass false [('b', 'd')], .any]) := by
    decide +kernel
  have hpath : ['/', 'x', '/', 'c', '1'] ∈
      (globRegex [.recursiveZeroOrMore, .charClass false [('b', 'd')], .any]).language :=
    (accepts_iff _ _).mp (by decide +kernel)
  exact regexMatches_of_globMatches rfl hshared hglob hpath

/-- The star that a backslash quotes is denied by the tools and not by the profile: the expression
asks for a backslash in the path. -/
theorem escaped_star_not_denied :
    ¬∀ (pattern path : Text) (glob : Regex Char), pattern.head? = some '/' →
      buildGlobMatcher pattern = some glob → path ∈ glob.language →
      ∃ expression, seatbeltRegexForUnreadableGlob pattern = some expression ∧
        RegexMatches expression path := by
  intro h
  have hglob : buildGlobMatcher "/a/\\*".toList =
      some (globRegex [.literal '/', .literal 'a', .literal '/', .literal '*']) := by decide +kernel
  have hpath : "/a/*".toList ∈
      (globRegex [.literal '/', .literal 'a', .literal '/', .literal '*']).language :=
    (accepts_iff _ _).mp (by decide +kernel)
  have htranslate : seatbeltRegexForUnreadableGlob "/a/\\*".toList =
      some "^/a/\\\\[^/]*$".toList := by decide +kernel
  have hcompile : compile "^/a/\\\\[^/]*$".toList =
      some (seq [.char '/', .char 'a', .char '/', .char '\\', withinComponent]) := by decide +kernel
  obtain ⟨expression, hexpression, r, hr, hmem⟩ := h _ _ _ rfl hglob hpath
  rw [htranslate] at hexpression
  rw [← Option.some.inj hexpression, hcompile] at hr
  rw [← Option.some.inj hr, ← accepts_iff] at hmem
  exact absurd hmem (by decide +kernel)

end Supercodex.Seatbelt
