import Supercodex.Path.AbsolutePath

/-!
# Exec policies (`execpolicy/src/policy.rs`, `execpolicy/src/rule.rs`)

A policy keeps prefix rules by program name and, for some executable names, the absolute paths
that may stand for the name. `mergeOverlay` lays one policy over another one.
-/

namespace Supercodex.ExecPolicy

open Supercodex.Path

/-- `Decision`, the strictest last. -/
inductive Decision where
  | allow
  | prompt
  | forbidden
deriving DecidableEq

/-- The rank by which the derived `Ord` compares decisions. -/
def Decision.rank : Decision → ℕ
  | .allow => 0
  | .prompt => 1
  | .forbidden => 2

instance : LE Decision := ⟨fun a b => a.rank ≤ b.rank⟩

instance : DecidableRel (α := Decision) (· ≤ ·) := fun a b => Nat.decLe a.rank b.rank

/-- The stricter of two decisions. -/
def Decision.max (a b : Decision) : Decision := if a ≤ b then b else a

/-- `PatternToken`. -/
inductive PatternToken where
  | single (expected : Text)
  | alts (alternatives : List Text)
deriving DecidableEq

/-- `PatternToken::matches`. -/
def PatternToken.matches (token : Text) : PatternToken → Bool
  | .single expected => expected = token
  | .alts alternatives => alternatives.any (· = token)

/-- `PrefixRule` with its `PrefixPattern`. -/
structure PrefixRule where
  first : Text
  rest : List PatternToken
  decision : Decision
  justification : Option Text
deriving DecidableEq

/-- `RuleMatch`. -/
inductive RuleMatch where
  | prefixRuleMatch (matchedPrefix : List Text) (decision : Decision)
      (resolvedProgram : Option AbsolutePath) (justification : Option Text)
  | heuristicsRuleMatch (command : List Text) (decision : Decision)
deriving DecidableEq

namespace RuleMatch

/-- `RuleMatch::decision`. -/
def decision : RuleMatch → Decision
  | prefixRuleMatch _ decision _ _ => decision
  | heuristicsRuleMatch _ decision => decision

/-- `RuleMatch::with_resolved_program`. -/
def withResolvedProgram (program : AbsolutePath) : RuleMatch → RuleMatch
  | prefixRuleMatch matched decision _ justification =>
    prefixRuleMatch matched decision (some program) justification
  | other => other

/-- Does a rule of the policy stand behind the match? -/
def isPolicyMatch : RuleMatch → Bool
  | prefixRuleMatch .. => true
  | heuristicsRuleMatch .. => false

end RuleMatch

/-- `PrefixPattern::matches_prefix`. -/
def PrefixRule.matchesPrefix (rule : PrefixRule) (cmd : List Text) : Option (List Text) :=
  match cmd with
  | [] => none
  | program :: args =>
    if args.length < rule.rest.length || program ≠ rule.first then none
    else if (rule.rest.zip args).all fun (pattern, token) => pattern.matches token then
      some (cmd.take (rule.rest.length + 1))
    else none

/-- `PrefixRule::matches`. -/
def PrefixRule.matches (rule : PrefixRule) (cmd : List Text) : Option RuleMatch :=
  (rule.matchesPrefix cmd).map fun matched =>
    .prefixRuleMatch matched rule.decision none rule.justification

/-- `MatchOptions`. -/
structure MatchOptions where
  resolveHostExecutables : Bool

/-- `Policy`, as far as commands are matched against it: the rules of each program in the order
in which they were added, and the paths allowed for each executable name. -/
structure Policy where
  rulesByProgram : Text → List PrefixRule
  hostExecutablesByName : Text → Option (List AbsolutePath)

/-- `Evaluation`. -/
structure Evaluation where
  decision : Decision
  matchedRules : List RuleMatch

/-- `Evaluation::is_match`. -/
def Evaluation.isMatch (e : Evaluation) : Bool := e.matchedRules.any (·.isPolicyMatch)

/-- The strictest decision of a non-empty list of matches (`iter().map(..).max()`). -/
def strictest (m : RuleMatch) (ms : List RuleMatch) : Decision :=
  ms.foldl (fun d m => d.max m.decision) m.decision

namespace Policy

/-- `Policy::merge_overlay`. The overlay's rules come after the base's, its executable tables
replace the base's. -/
def mergeOverlay (base overlay : Policy) : Policy where
  rulesByProgram program := base.rulesByProgram program ++ overlay.rulesByProgram program
  hostExecutablesByName name :=
    (overlay.hostExecutablesByName name).or (base.hostExecutablesByName name)

/-- `Policy::match_exact_rules`. -/
def matchExactRules (p : Policy) (cmd : List Text) : List RuleMatch :=
  match cmd with
  | [] => []
  | first :: _ => (p.rulesByProgram first).filterMap (·.matches cmd)

section
variable (home currentDir : Option AbsolutePath)

/-- The program a command names as an absolute path, with its lookup key. -/
def hostProgram (cmd : List Text) : Option (AbsolutePath × Text) :=
  match cmd with
  | [] => none
  | first :: _ =>
    (fromAbsolutePath home currentDir first).bind fun program =>
      (fileName program).map fun basename => (program, basename)

/-- May `program` stand for `basename`? -/
def hostAllows (p : Policy) (program : AbsolutePath) (basename : Text) : Bool :=
  match p.hostExecutablesByName basename with
  | some paths => paths.contains program
  | none => true

/-- `Policy::match_host_executable_rules`. -/
def matchHostExecutableRules (p : Policy) (cmd : List Text) : List RuleMatch :=
  match hostProgram home currentDir cmd with
  | none => []
  | some (program, basename) =>
    if p.hostAllows program basename then
      ((p.rulesByProgram basename).filterMap (·.matches (basename :: cmd.tail))).map
        (·.withResolvedProgram program)
    else []

/-- The rules of the policy that match a command: the exact ones, and only if there are none
those of the resolved executable. -/
def policyMatches (p : Policy) (cmd : List Text) (options : MatchOptions) : List RuleMatch :=
  if (p.matchExactRules cmd).isEmpty then
    if options.resolveHostExecutables then p.matchHostExecutableRules home currentDir cmd else []
  else p.matchExactRules cmd

/-- `Policy::matches_for_command_with_options` with a fallback, which makes it non-empty. -/
def matchesForCommandWithOptions (p : Policy) (cmd : List Text)
    (heuristicsFallback : List Text → Decision) (options : MatchOptions) :
    RuleMatch × List RuleMatch :=
  match p.policyMatches home currentDir cmd options with
  | [] => (.heuristicsRuleMatch cmd (heuristicsFallback cmd), [])
  | m :: ms => (m, ms)

/-- `Policy::check_with_options`. -/
def checkWithOptions (p : Policy) (cmd : List Text) (heuristicsFallback : List Text → Decision)
    (options : MatchOptions) : Evaluation :=
  let (m, ms) := p.matchesForCommandWithOptions home currentDir cmd heuristicsFallback options
  ⟨strictest m ms, m :: ms⟩

end

end Policy

end Supercodex.ExecPolicy
