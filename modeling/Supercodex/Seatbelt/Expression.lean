import Supercodex.Library.Regex
import Supercodex.Library.Text

/-!
# The expressions of the sandbox profile

The syntax of the regular expressions that `sandboxing/src/seatbelt.rs` writes, as `regex_lite`
reads it, with which the repository compiles them in its tests: literals, escapes, `.`, groups, the
operators `*` and `?`, and classes, between the anchors `^` and `$`. The operators that are never
written (`|`, `+`, `{`) are refused. Words are lists of characters, and `.` stands for any of them.
-/

namespace Supercodex.Seatbelt

open Regex

/-! ## Reading an expression -/

/-- `regex_lite::is_meta_character`. -/
def isMetaCharacter (c : Char) : Bool := "\\.+*?()|[]\x7b\x7d^$#&-~".toList.contains c

/-- May a backslash stand before the character to quote it? -/
def isEscapeableCharacter (c : Char) : Bool :=
  isMetaCharacter c || (c.toNat < 128 && !c.isAlphanum && c != '<' && c != '>')

/-- `regex_lite::escape`, of one character. -/
def escape (c : Char) : Text := if isMetaCharacter c then ['\\', c] else [c]

/-- A character of an expression, and whether a backslash quotes it. -/
inductive Sym where
  | plain (c : Char)
  | quoted (c : Char)
deriving DecidableEq

/-- The character itself. -/
def Sym.char : Sym → Char
  | plain c => c
  | quoted c => c

/-- The characters of an expression with the escapes resolved. -/
def lex : Text → Option (List Sym)
  | [] => some []
  | c :: rest =>
    if c = '\\' then
      match rest with
      | [] => none
      | d :: rest => if isEscapeableCharacter d then (lex rest).map (.quoted d :: ·) else none
    else (lex rest).map (.plain c :: ·)

/-- Where the reader stands. In a class it knows the ranges so far; `after` has one more character
in hand, and `range` has a dash after it. -/
inductive Mode where
  | outside
  | opened
  | leading (negated : Bool) (ranges : List (Char × Char))
  | item (negated : Bool) (ranges : List (Char × Char))
  | after (negated : Bool) (ranges : List (Char × Char)) (sym : Sym)
  | range (negated : Bool) (ranges : List (Char × Char)) (sym : Sym)
  | finished
deriving DecidableEq

/-- The reader of expressions: the atoms of the innermost open group, latest first, and those of
the groups around it. -/
structure Reader where
  atoms : List (Regex Char)
  outer : List (List (Regex Char))
  mode : Mode

namespace Reader

/-- The reader at the start of an expression. -/
def start : Reader := ⟨[], [], .outside⟩

/-- The reader with one more atom. -/
def push (reader : Reader) (atom : Regex Char) : Reader :=
  { reader with atoms := atom :: reader.atoms, mode := .outside }

/-- The operator that changes the last atom. -/
def modify (reader : Reader) (f : Regex Char → Regex Char) : Option Reader :=
  match reader.atoms with
  | [] => none
  | atom :: atoms => some { reader with atoms := f atom :: atoms }

/-- One symbol outside the classes. -/
def stepOutside (reader : Reader) : Sym → Option Reader
  | .quoted c => some (reader.push (.char c))
  | .plain c =>
    if c = '$' then some { reader with mode := .finished }
    else if c = '.' then some (reader.push .any)
    else if c = '(' then some ⟨[], reader.atoms :: reader.outer, .outside⟩
    else if c = ')' then
      match reader.outer with
      | [] => none
      | above :: outer => some ⟨seq reader.atoms.reverse :: above, outer, .outside⟩
    else if c = '*' then reader.modify .star
    else if c = '?' then reader.modify .opt
    else if c = '[' then some { reader with mode := .opened }
    else if c = '+' ∨ c = '|' ∨ c = '\x7b' ∨ c = '^' then none
    else some (reader.push (.char c))

/-- The first symbol of an item of a class, or the bracket that closes it. Nested classes are not
supported. -/
def stepItem (reader : Reader) (negated : Bool) (ranges : List (Char × Char)) (sym : Sym) :
    Option Reader :=
  if sym = .plain ']' then some (reader.push (.chars negated ranges))
  else if sym = .plain '[' then none
  else some { reader with mode := .after negated ranges sym }

/-- A symbol at the start of a class, where dashes are literal and a bracket that comes first does
not close the class. -/
def stepLeading (reader : Reader) (negated : Bool) (ranges : List (Char × Char)) (sym : Sym) :
    Option Reader :=
  if sym = .plain '-' then some { reader with mode := .leading negated (ranges ++ [('-', '-')]) }
  else if sym = .plain ']' ∧ ranges = [] then
    some { reader with mode := .item negated [(']', ']')] }
  else reader.stepItem negated ranges sym

/-- A symbol after a character of a class. The set operators `&&`, `--` and `~~` are not
supported. -/
def stepAfter (reader : Reader) (negated : Bool) (ranges : List (Char × Char)) (first sym : Sym) :
    Option Reader :=
  if (first = .plain '&' ∨ first = .plain '-' ∨ first = .plain '~') ∧ sym = first then none
  else if sym = .plain '-' then some { reader with mode := .range negated ranges first }
  else reader.stepItem negated (ranges ++ [(first.char, first.char)]) sym

/-- A symbol after a character of a class and a dash. Before the closing bracket the dash is
literal. -/
def stepRange (reader : Reader) (negated : Bool) (ranges : List (Char × Char)) (first sym : Sym) :
    Option Reader :=
  if sym = .plain ']' then
    some (reader.push (.chars negated (ranges ++ [(first.char, first.char), ('-', '-')])))
  else if sym = .plain '-' then none
  else if first.char ≤ sym.char then
    some { reader with mode := .item negated (ranges ++ [(first.char, sym.char)]) }
  else none

/-- One symbol of the expression. Nothing follows the anchor `$`. -/
def step (reader : Reader) (sym : Sym) : Option Reader :=
  match reader.mode with
  | .outside => reader.stepOutside sym
  | .opened =>
    if sym = .plain '^' then some { reader with mode := .leading true [] }
    else reader.stepLeading false [] sym
  | .leading negated ranges => reader.stepLeading negated ranges sym
  | .item negated ranges => reader.stepItem negated ranges sym
  | .after negated ranges first => reader.stepAfter negated ranges first sym
  | .range negated ranges first => reader.stepRange negated ranges first sym
  | .finished => none

/-- The expression that has been read, once the anchor `$` closes it. -/
def finish (reader : Reader) : Option (Regex Char) :=
  if reader.mode = .finished ∧ reader.outer = [] then some (seq reader.atoms.reverse) else none

end Reader

/-- Reads on from a state of the reader. -/
def readFrom (reader : Reader) (t : Text) : Option Reader :=
  (lex t).bind fun syms => syms.foldlM Reader.step reader

/-- The expression between the anchors `^` and `$`. -/
def compile : Text → Option (Regex Char)
  | '^' :: body => (readFrom .start body).bind Reader.finish
  | _ => none

/-- Does the expression match the path? -/
def RegexMatches (expression path : Text) : Prop :=
  ∃ r, compile expression = some r ∧ path ∈ r.language

/-! ## Texts that read as atoms -/

/-- Read from this state, the text leads to that one, whatever follows it. -/
def Reads (reader : Reader) (t : Text) (reader' : Reader) : Prop :=
  ∀ rest, readFrom reader (t ++ rest) = readFrom reader' rest

variable {reader reader' reader'' : Reader}

lemma Reads.refl (reader : Reader) : Reads reader [] reader := fun _ => rfl

lemma Reads.trans {t u : Text} (ht : Reads reader t reader') (hu : Reads reader' u reader'') :
    Reads reader (t ++ u) reader'' := by
  intro rest
  rw [List.append_assoc, ht, hu]

lemma reads_plain {c : Char} (hc : c ≠ '\\') (h : reader.step (.plain c) = some reader') :
    Reads reader [c] reader' := by
  intro rest
  show (lex (c :: rest)).bind _ = _
  rw [lex.eq_def]
  cases hrest : lex rest <;> simp [readFrom, hc, hrest, h]

lemma reads_quoted {c : Char} (hc : isEscapeableCharacter c = true)
    (h : reader.step (.quoted c) = some reader') : Reads reader ['\\', c] reader' := by
  intro rest
  show (lex ('\\' :: c :: rest)).bind _ = _
  rw [lex.eq_def]
  cases hrest : lex rest <;> simp [readFrom, hc, hrest, h]

end Supercodex.Seatbelt
