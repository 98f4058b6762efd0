import Supercodex.Library.Regex
import Supercodex.Library.Text

/-!
# Glob patterns as `globset` reads them

`build_glob_matcher` of `protocol/src/permissions.rs` builds a pattern with `literal_separator` and
`allow_unclosed_class` set, and with backslash escapes, the default on Unix. A pattern is read into
tokens, and the tokens stand for a regular expression over the characters of a path.
-/

namespace Supercodex.Seatbelt

open Regex

/-- `globset::Token`. -/
inductive Token where
  | literal (c : Char)
  | any
  | zeroOrMore
  | recursivePrefix
  | recursiveSuffix
  | recursiveZeroOrMore
  | charClass (negated : Bool) (ranges : List (Char × Char))
  | alternates (branches : List (List Token))

/-! ## Reading a pattern -/

/-- `globset`'s parser: the token lists of the open branches, the innermost first, with the number
of branches below each open group, the last character read, and whether a class was not closed. -/
structure GlobParser where
  branches : List (List Token)
  alternatesStack : List ℕ
  cur : Option Char
  foundUnclosedClass : Bool

namespace GlobParser

/-- The parser at the start of a pattern. -/
def start : GlobParser := ⟨[[]], [], none, false⟩

/-- `Parser::push_token`. -/
def pushToken (p : GlobParser) (token : Token) : Option GlobParser :=
  match p.branches with
  | [] => none
  | branch :: branches => some { p with branches := (branch ++ [token]) :: branches }

/-- `Parser::pop_token`. -/
def popToken (p : GlobParser) : Option (Token × GlobParser) :=
  match p.branches with
  | [] => none
  | branch :: branches =>
    branch.getLast?.map fun token => (token, { p with branches := branch.dropLast :: branches })

/-- `Parser::have_tokens`. -/
def haveTokens (p : GlobParser) : Option Bool := p.branches.head?.map fun branch => !branch.isEmpty

/-- `Parser::push_alternate`. -/
def pushAlternate (p : GlobParser) : GlobParser :=
  { p with
    branches := [] :: p.branches
    alternatesStack := p.branches.length :: p.alternatesStack }

/-- `Parser::pop_alternate`: the branches above those that the group was opened on. -/
def popAlternate (p : GlobParser) : Option GlobParser :=
  match p.alternatesStack with
  | [] => none
  | below :: alternatesStack =>
    let opened := p.branches.length - below
    pushToken { p with
      branches := p.branches.drop opened
      alternatesStack := alternatesStack } (.alternates (p.branches.take opened).reverse)

/-- `Parser::parse_comma`. -/
def parseComma (p : GlobParser) : Option GlobParser :=
  match p.alternatesStack with
  | [] => p.pushToken (.literal ',')
  | _ :: _ => some { p with branches := [] :: p.branches }

/-- Two single stars, where `**` has no meaning of its own. -/
def pushTwoStars (p : GlobParser) : Option GlobParser :=
  (p.pushToken .zeroOrMore).bind (pushToken · .zeroOrMore)

/-- The token for `**` in place of the separator before it. -/
def pushRecursive (p : GlobParser) (isSuffix : Bool) : Option GlobParser :=
  p.popToken.bind fun (token, p) =>
    match token with
    | .recursivePrefix => p.pushToken .recursivePrefix
    | .recursiveSuffix => p.pushToken .recursiveSuffix
    | _ => p.pushToken (if isSuffix then .recursiveSuffix else .recursiveZeroOrMore)

/-- `Parser::parse_star`, after its second star: the parser and the characters left. -/
def parseTwoStars (p : GlobParser) (prev : Option Char) (rest : Text) : Option (GlobParser × Text) :=
  p.haveTokens.bind fun haveTokens =>
    if !haveTokens then
      if rest = [] then (p.pushToken .recursivePrefix).map (·, rest)
      else if rest.head? = some '/' then
        (pushToken { p with cur := some '/' } .recursivePrefix).map (·, rest.tail)
      else p.pushTwoStars.map (·, rest)
    else if prev ≠ some '/' ∧
        (p.branches.length ≤ 1 ∨ (prev ≠ some ',' ∧ prev ≠ some '\x7b')) then
      p.pushTwoStars.map (·, rest)
    else if rest = [] ∨
        ((rest.head? = some ',' ∨ rest.head? = some '\x7d') ∧ 2 ≤ p.branches.length) then
      (p.pushRecursive true).map (·, rest)
    else if rest.head? = some '/' then
      (pushRecursive { p with cur := some '/' } false).map (·, rest.tail)
    else p.pushTwoStars.map (·, rest)

/-- `Parser::parse_star`, after its first star. -/
def parseStar (p : GlobParser) (prev : Option Char) (chars : Text) : Option (GlobParser × Text) :=
  if chars.head? = some '*' then parseTwoStars { p with cur := some '*' } prev chars.tail
  else (p.pushToken .zeroOrMore).map (·, chars)

/-- How the characters after `[` end. -/
inductive ClassEnd where
  | closed (ranges : List (Char × Char)) (rest : Text)
  | unclosed
  | invalidRange

/-- The loop of `Parser::parse_class`. -/
def classLoop (first inRange : Bool) (ranges : List (Char × Char)) : Text → ClassEnd
  | [] => .unclosed
  | c :: rest =>
    if c = ']' then
      if first then classLoop false inRange (ranges ++ [(']', ']')]) rest
      else .closed (if inRange then ranges ++ [('-', '-')] else ranges) rest
    else if c = '-' ∧ first then classLoop false inRange (ranges ++ [('-', '-')]) rest
    else if c = '-' ∧ !inRange then classLoop false true ranges rest
    else if inRange then
      -- The character is the end of the last range, also where that range has an end already.
      match ranges.getLast? with
      | none => .invalidRange
      | some range =>
        if c < range.1 then .invalidRange
        else classLoop false false (ranges.dropLast ++ [(range.1, c)]) rest
    else classLoop false false (ranges ++ [(c, c)]) rest

/-- The end of `Parser::parse_class`. The characters of an unclosed class are read again. -/
def endClass (p : GlobParser) (negated : Bool) (chars : Text) : ClassEnd → Option (GlobParser × Text)
  | .closed ranges rest =>
    (pushToken { p with cur := some ']' } (.charClass negated ranges)).map (·, rest)
  | .unclosed => (pushToken { p with foundUnclosedClass := true } (.literal '[')).map (·, chars)
  | .invalidRange => none

/-- `Parser::parse_class`, after the opening bracket. -/
def parseClass (p : GlobParser) (chars : Text) : Option (GlobParser × Text) :=
  let negated := chars.head? = some '!' ∨ chars.head? = some '^'
  p.endClass negated chars (classLoop true false [] (if negated then chars.tail else chars))

/-- `Parser::parse_backslash`. -/
def parseBackslash (p : GlobParser) : Text → Option (GlobParser × Text)
  | [] => none
  | c :: rest => (pushToken { p with cur := some c } (.literal c)).map (·, rest)

/-- One round of `Parser::parse`: the character `c` and what stands behind it. -/
def parseNext (p : GlobParser) (c : Char) (rest : Text) : Option (GlobParser × Text) :=
  let prev := p.cur
  let p := { p with cur := some c }
  if c = '?' then (p.pushToken .any).map (·, rest)
  else if c = '*' then p.parseStar prev rest
  else if c = '[' ∧ !p.foundUnclosedClass then p.parseClass rest
  else if c = '\x7b' then some (p.pushAlternate, rest)
  else if c = '\x7d' then p.popAlternate.map (·, rest)
  else if c = ',' then p.parseComma.map (·, rest)
  else if c = '\\' then p.parseBackslash rest
  else (p.pushToken (.literal c)).map (·, rest)

/-- `Parser::parse`, with a bound on its rounds. -/
def parse : ℕ → GlobParser → Text → Option GlobParser
  | _, p, [] => some p
  | 0, _, _ => none
  | fuel + 1, p, c :: rest => (p.parseNext c rest).bind fun (p, rest) => parse fuel p rest

end GlobParser

/-- The tokens of a pattern. Every round reads a character, so the bound is never reached. -/
def globTokens (pattern : Text) : Option (List Token) :=
  (GlobParser.start.parse pattern.length pattern).bind fun p =>
    match p.branches with
    | [tokens] => some tokens
    | _ => none

/-! ## What a pattern stands for -/

/-- Any characters within one component. -/
def withinComponent : Regex Char := .star (.other '/')

/-- Any characters, separators too. -/
def anything : Regex Char := .star .any

/-- The expression that starts with the separator and goes on with `r`. -/
def separatorThen (r : Regex Char) : Regex Char := .cat (.char '/') r

mutual

/-- `Tokens::tokens_to_regex`, of one token. A group without alternatives has no text. -/
def Token.toRegex : Token → Option (Regex Char)
  | .literal c => some (.char c)
  | .any => some (.other '/')
  | .zeroOrMore => some withinComponent
  | .recursivePrefix => some (.alt (.opt (.char '/')) (.cat anything (.char '/')))
  | .recursiveSuffix => some (separatorThen anything)
  | .recursiveZeroOrMore =>
    some (.alt (.char '/') (separatorThen (.cat anything (.char '/'))))
  | .charClass negated ranges => some (.chars negated ranges)
  | .alternates branches => branchesToRegex branches

/-- `Tokens::tokens_to_regex`, unless its text is empty. -/
def tokensToRegex : List Token → Option (Regex Char)
  | [] => none
  | token :: tokens => Option.merge .cat token.toRegex (tokensToRegex tokens)

/-- The alternatives of a group. Those with an empty text are left out. -/
def branchesToRegex : List (List Token) → Option (Regex Char)
  | [] => none
  | branch :: branches => Option.merge .alt (tokensToRegex branch) (branchesToRegex branches)

end

/-- `Tokens::to_regex_with`. The pattern `**` alone stands for everything. -/
def globRegex (tokens : List Token) : Regex Char :=
  match tokens with
  | [.recursivePrefix] => anything
  | _ => (tokensToRegex tokens).getD .epsilon

/-- `build_glob_matcher`: the expression that the matcher of a pattern runs. -/
def buildGlobMatcher (pattern : Text) : Option (Regex Char) := (globTokens pattern).map globRegex

end Supercodex.Seatbelt
