import Supercodex.ExecPolicy.PolicyTheorems

/-!
# Amending the exec policy (`execpolicy/src/amend.rs`, `core/src/exec_policy.rs`)

An amendment allows the commands that start with a given prefix. It is appended as a line to the
rules file and added as a rule to the policy in memory, each with a shortcut of its own: no line is
appended if the file has the same line, and no rule is added if the policy allows the command
already. The rules file is kept as its text.
-/

namespace Supercodex.ExecPolicy

open Supercodex.Path Text

/-! ## The rules file -/

/-- `AmendError`; the ways in which an access to the file fails are one case. -/
inductive AmendError where
  | emptyPrefix
  | io
deriving DecidableEq

/-- The text of the error, as far as the amendment writes it. -/
def AmendError.message : AmendError → Option Text
  | emptyPrefix => some "prefix rule requires at least one token".toList
  | io => none

/-- A hexadecimal digit. -/
def hexDigit (n : ℕ) : Char := (Nat.toDigits 16 (n % 16)).headD '0'

/-- One character of a JSON string. -/
def jsonChar (c : Char) : Text :=
  if c = '"' then ['\\', '"']
  else if c = '\\' then ['\\', '\\']
  else if c = '\n' then ['\\', 'n']
  else if c = '\r' then ['\\', 'r']
  else if c = '\t' then ['\\', 't']
  else if c = Char.ofNat 8 then ['\\', 'b']
  else if c = Char.ofNat 12 then ['\\', 'f']
  else if c.toNat < 32 then ['\\', 'u', '0', '0', hexDigit (c.toNat / 16), hexDigit c.toNat]
  else [c]

/-- `serde_json::to_string` of a string. -/
def jsonString (t : Text) : Text := '"' :: t.flatMap jsonChar ++ ['"']

/-- The line that `blocking_append_allow_prefix_rule` writes. -/
def allowPrefixRuleLine (tokens : List Text) : Text :=
  "prefix_rule(pattern=[".toList ++ ", ".toList.intercalate (tokens.map jsonString) ++
    "], decision=\"allow\")".toList

/-- `append_locked_line`: the file after a line was appended. -/
def appendLockedLine (contents line : Text) : Text :=
  if (lines contents).contains line then contents
  else if contents ≠ [] ∧ contents.getLast? ≠ some '\n' then contents ++ '\n' :: line ++ ['\n']
  else contents ++ line ++ ['\n']

/-- `blocking_append_allow_prefix_rule`. -/
def blockingAppendAllowPrefixRule (ioFails : Bool) (contents : Text) (tokens : List Text) :
    Except AmendError Text :=
  if tokens = [] then .error .emptyPrefix
  else if ioFails then .error .io
  else .ok (appendLockedLine contents (allowPrefixRuleLine tokens))

/-! ## The policy in memory -/

/-- `ExecPolicyUpdateError`. -/
inductive ExecPolicyUpdateError where
  | semaphoreClosed
  | joinBlockingTask
  | appendRule (source : AmendError)
  | invalidPattern (message : Text)
deriving DecidableEq

namespace Policy

/-- The rule becomes the last one of its program (`MultiMap::insert`). -/
def addRule (p : Policy) (rule : PrefixRule) : Policy :=
  { p with
    rulesByProgram := fun program =>
      if program = rule.first then p.rulesByProgram program ++ [rule] else p.rulesByProgram program }

/-- The rule for the commands that start with the given tokens. -/
def tokensRule (first : Text) (rest : List Text) (decision : Decision) : PrefixRule :=
  ⟨first, rest.map .single, decision, none⟩

/-- `Policy::add_prefix_rule`. -/
def addPrefixRule (p : Policy) (tokens : List Text) (decision : Decision) :
    Except ExecPolicyUpdateError Policy :=
  match tokens with
  | [] => .error (.invalidPattern "prefix cannot be empty".toList)
  | first :: rest => .ok (p.addRule (tokensRule first rest decision))

/-- Does the policy allow the command by one of its rules? -/
def alreadyAllowed (home currentDir : Option AbsolutePath) (p : Policy) (command : List Text) :
    Bool :=
  let evaluation := p.checkWithOptions home currentDir command (fun _ => .forbidden) ⟨true⟩
  evaluation.decision = .allow &&
    evaluation.matchedRules.any fun m => m.isPolicyMatch && m.decision = .allow

end Policy

/-- `ExecPolicyManager` with the rules file that it amends. -/
structure ExecPolicyManager where
  policy : Policy
  rulesFile : Text

/-- What can go wrong outside of the amendment. -/
structure AmendFaults where
  semaphoreClosed : Bool := false
  joinBlockingTask : Bool := false
  io : Bool := false
deriving DecidableEq

/-- `ExecPolicyManager::append_amendment_and_update`. -/
def ExecPolicyManager.appendAmendmentAndUpdate (home currentDir : Option AbsolutePath)
    (manager : ExecPolicyManager) (command : List Text) (faults : AmendFaults) :
    Except ExecPolicyUpdateError ExecPolicyManager :=
  if faults.semaphoreClosed then .error .semaphoreClosed
  else if faults.joinBlockingTask then .error .joinBlockingTask
  else match blockingAppendAllowPrefixRule faults.io manager.rulesFile command with
    | .error source => .error (.appendRule source)
    | .ok rulesFile =>
      if manager.policy.alreadyAllowed home currentDir command then
        .ok { manager with rulesFile := rulesFile }
      else match manager.policy.addPrefixRule command .allow with
        | .error error => .error error
        | .ok policy => .ok ⟨policy, rulesFile⟩

end Supercodex.ExecPolicy

/-!
# The policy in memory and the policy on disk after an amendment

The rule of an amendment only allows, so it changes a decision in two ways: it decides a command that
no rule matched, and it comes before the rules of the resolved executable. The policy in memory misses
the rule when the amended command was already allowed by the rules of its executable alone.
-/

namespace Supercodex.ExecPolicy

open Supercodex.Path

namespace Policy

variable (home currentDir : Option AbsolutePath)

/-! ## The condition -/

/-- Two policies with the same rules, in any order and any number, and the same executables. -/
structure SameRules (p q : Policy) : Prop where
  rules : ∀ program rule, rule ∈ p.rulesByProgram program ↔ rule ∈ q.rulesByProgram program
  hosts : ∀ name, p.hostExecutablesByName name = q.hostExecutablesByName name

/-- Two policies that decide every command alike, whatever the heuristics say. -/
def Agree (p q : Policy) : Prop :=
  ∀ cmd fallback, (p.checkWithOptions home currentDir cmd fallback ⟨true⟩).decision =
    (q.checkWithOptions home currentDir cmd fallback ⟨true⟩).decision

/-- A rule of the resolved executable that is stricter than `allow` matches the command with further
arguments, and no rule for the program as it is written does. -/
def HasStricterHostRule (p : Policy) (command : List Text) : Prop :=
  ∃ args, p.matchExactRules (command ++ args) = [] ∧
    ∃ m ∈ p.matchHostExecutableRules home currentDir (command ++ args), m.decision ≠ .allow

/-- No rule matches some command whose executable has the first token of the amendment as its name
and whose arguments continue those of the amendment. -/
def HasUnmatchedNamesake (p : Policy) (command : List Text) : Prop :=
  ∃ cmd program name args, hostProgram home currentDir cmd = some (program, name) ∧
    p.hostAllows program name = true ∧ name :: cmd.tail = command ++ args ∧
    p.policyMatches home currentDir cmd ⟨true⟩ = []

/-- The rules of the resolved executable, and no others, allow the command, and the amendment would
decide some command otherwise. -/
structure Drifts (p : Policy) (command : List Text) : Prop where
  allowed : p.alreadyAllowed home currentDir command = true
  hostOnly : p.matchExactRules command = []
  decides : p.HasStricterHostRule home currentDir command ∨
    p.HasUnmatchedNamesake home currentDir command

/-! ## Decisions -/

variable {home currentDir} {p q : Policy} {cmd : List Text} {fallback : List Text → Decision}

lemma decision_allow_le (d : Decision) : Decision.allow ≤ d := Nat.zero_le _

lemma decision_le_antisymm {a b : Decision} (hab : a ≤ b) (hba : b ≤ a) : a = b := by
  have hrank : a.rank = b.rank := Nat.le_antisymm hab hba
  cases a <;> cases b <;> first | rfl | cases hrank

lemma decision_congr (h : ∀ m, m ∈ p.policyMatches home currentDir cmd ⟨true⟩ ↔
      m ∈ q.policyMatches home currentDir cmd ⟨true⟩) :
    (p.checkWithOptions home currentDir cmd fallback ⟨true⟩).decision =
      (q.checkWithOptions home currentDir cmd fallback ⟨true⟩).decision := by
  by_cases hp : p.policyMatches home currentDir cmd ⟨true⟩ = []
  · have hq : q.policyMatches home currentDir cmd ⟨true⟩ = [] := by
      refine List.eq_nil_iff_forall_not_mem.mpr fun m hm => ?_
      rw [← h m, hp] at hm
      exact List.not_mem_nil hm
    rw [checkWithOptions_of_no_matches _ _ _ _ _ hp, checkWithOptions_of_no_matches _ _ _ _ _ hq]
  · have hq : q.policyMatches home currentDir cmd ⟨true⟩ ≠ [] := by
      obtain ⟨m, hm⟩ := List.exists_mem_of_ne_nil _ hp
      exact List.ne_nil_of_mem ((h m).mp hm)
    exact decision_le_antisymm
      (checkWithOptions_decision_mono _ _ _ _ _ hp fun m hm => (h m).mp hm)
      (checkWithOptions_decision_mono _ _ _ _ _ hq fun m hm => (h m).mpr hm)

variable (fallback) in
lemma decision_spec (h : p.policyMatches home currentDir cmd ⟨true⟩ ≠ []) :
    (∃ m ∈ p.policyMatches home currentDir cmd ⟨true⟩,
      m.decision = (p.checkWithOptions home currentDir cmd fallback ⟨true⟩).decision) ∧
    ∀ m ∈ p.policyMatches home currentDir cmd ⟨true⟩,
      m.decision ≤ (p.checkWithOptions home currentDir cmd fallback ⟨true⟩).decision := by
  obtain ⟨m, ms, hms⟩ := List.exists_cons_of_ne_nil h
  rw [checkWithOptions_of_matches _ _ _ _ _ hms, hms]
  exact ⟨exists_strictest m ms, fun m' hm' => le_strictest hm'⟩

lemma decision_eq_allow (h : p.policyMatches home currentDir cmd ⟨true⟩ ≠ [])
    (hallow : ∀ m ∈ p.policyMatches home currentDir cmd ⟨true⟩, m.decision = .allow) :
    (p.checkWithOptions home currentDir cmd fallback ⟨true⟩).decision = .allow := by
  obtain ⟨⟨m, hm, hdecision⟩, -⟩ := decision_spec fallback h
  rw [← hdecision]
  exact hallow m hm

lemma decision_append_allow {extra : List RuleMatch}
    (h : q.policyMatches home currentDir cmd ⟨true⟩ =
      p.policyMatches home currentDir cmd ⟨true⟩ ++ extra)
    (hne : p.policyMatches home currentDir cmd ⟨true⟩ ≠ [])
    (hallow : ∀ m ∈ extra, m.decision = .allow) :
    (p.checkWithOptions home currentDir cmd fallback ⟨true⟩).decision =
      (q.checkWithOptions home currentDir cmd fallback ⟨true⟩).decision := by
  have hsub : p.policyMatches home currentDir cmd ⟨true⟩ ⊆
      q.policyMatches home currentDir cmd ⟨true⟩ := by
    rw [h]
    exact List.subset_append_left _ _
  refine decision_le_antisymm (checkWithOptions_decision_mono _ _ _ _ _ hne hsub) ?_
  have hqne : q.policyMatches home currentDir cmd ⟨true⟩ ≠ [] := by
    rw [h]
    exact List.append_ne_nil_of_left_ne_nil hne _
  obtain ⟨⟨m, hm, hdecision⟩, -⟩ := decision_spec fallback hqne
  rw [← hdecision]
  rw [h, List.mem_append] at hm
  rcases hm with hm | hm
  · exact (decision_spec fallback hne).2 m hm
  · rw [hallow m hm]
    exact decision_allow_le _

/-- Policies with the same rules agree. -/
lemma SameRules.agree (h : p.SameRules q) : Agree home currentDir p q := by
  intro cmd fallback
  have hexact : ∀ m, m ∈ p.matchExactRules cmd ↔ m ∈ q.matchExactRules cmd := by
    intro m
    cases cmd with
    | nil => rfl
    | cons first args =>
      show m ∈ (p.rulesByProgram first).filterMap _ ↔ m ∈ (q.rulesByProgram first).filterMap _
      simp only [List.mem_filterMap, h.rules]
  have hhost : ∀ m, m ∈ p.matchHostExecutableRules home currentDir cmd ↔
      m ∈ q.matchHostExecutableRules home currentDir cmd := by
    intro m
    unfold matchHostExecutableRules
    cases hostProgram home currentDir cmd with
    | none => rfl
    | some host =>
      obtain ⟨program, name⟩ := host
      have hallows : p.hostAllows program name = q.hostAllows program name := by
        unfold hostAllows
        rw [h.hosts name]
      dsimp only
      rw [hallows]
      split
      · simp only [List.mem_map, List.mem_filterMap, h.rules]
      · rfl
  have hempty : (p.matchExactRules cmd).isEmpty = (q.matchExactRules cmd).isEmpty := by
    rw [Bool.eq_iff_iff, List.isEmpty_iff, List.isEmpty_iff, List.eq_nil_iff_forall_not_mem,
      List.eq_nil_iff_forall_not_mem]
    simp only [hexact]
  refine decision_congr fun m => ?_
  unfold policyMatches
  rw [hempty]
  split
  · exact hhost m
  · exact hexact m

/-! ## The amendment's rule -/

lemma zip_append_of_length_le {α β : Type} {xs : List α} {ys : List β} (zs : List β)
    (h : xs.length ≤ ys.length) : xs.zip (ys ++ zs) = xs.zip ys := by
  induction xs generalizing ys with
  | nil => rfl
  | cons x xs ih =>
    cases ys with
    | nil => simp at h
    | cons y ys => simp [ih (Nat.le_of_succ_le_succ h)]

variable {m : RuleMatch}

lemma matches_eq_some_iff {rule : PrefixRule} :
    rule.matches cmd = some m ↔ ∃ args, cmd = rule.first :: args ∧
      rule.rest.length ≤ args.length ∧
      (rule.rest.zip args).all (fun (pattern, token) => pattern.matches token) = true ∧
      m = .prefixRuleMatch (cmd.take (rule.rest.length + 1)) rule.decision none
        rule.justification := by
  unfold PrefixRule.matches PrefixRule.matchesPrefix
  cases cmd with
  | nil => simp
  | cons program args =>
    simp only [List.cons.injEq, and_assoc, exists_and_left, exists_eq_left']
    generalize hall : (rule.rest.zip args).all _ = all
    by_cases hfirst : program = rule.first
    · by_cases hlength : rule.rest.length ≤ args.length
      · cases all <;> simp [hfirst, hlength, Nat.not_lt.mpr hlength, eq_comm]
      · simp [hlength, Nat.lt_of_not_le hlength]
    · simp [hfirst]

lemma matches_append {rule : PrefixRule} (h : rule.matches cmd = some m) (args : List Text) :
    ∃ m', rule.matches (cmd ++ args) = some m' ∧ m'.decision = m.decision := by
  obtain ⟨args', rfl, hlength, hall, rfl⟩ := matches_eq_some_iff.mp h
  refine ⟨_, matches_eq_some_iff.mpr ⟨args' ++ args, rfl, ?_, ?_, rfl⟩, rfl⟩
  · rw [List.length_append]
    omega
  · rw [zip_append_of_length_le args hlength]
    exact hall

lemma single_matches (expected token : Text) :
    PatternToken.matches token (.single expected) = decide (expected = token) := rfl

lemma all_zip_single_iff {rest args : List Text} :
    (rest.map PatternToken.single).length ≤ args.length ∧
      ((rest.map PatternToken.single).zip args).all
        (fun (pattern, token) => pattern.matches token) = true ↔
      ∃ more, args = rest ++ more := by
  induction rest generalizing args with
  | nil => simp
  | cons token rest ih =>
    cases args with
    | nil => simp
    | cons arg args =>
      simp only [List.map_cons, List.length_cons, Nat.succ_le_succ_iff, List.zip_cons_cons,
        List.all_cons, Bool.and_eq_true, single_matches, decide_eq_true_eq, List.cons_append,
        List.cons.injEq]
      rw [← and_assoc, and_comm (a := _ ≤ _), and_assoc, ih]
      constructor
      · rintro ⟨rfl, more, rfl⟩
        exact ⟨more, rfl, rfl⟩
      · rintro ⟨more, rfl, rfl⟩
        exact ⟨rfl, more, rfl⟩

lemma tokensRule_matches_iff {first : Text} {rest : List Text} {decision : Decision} :
    (∃ m, (tokensRule first rest decision).matches cmd = some m) ↔
      ∃ args, cmd = first :: rest ++ args := by
  simp only [matches_eq_some_iff]
  constructor
  · rintro ⟨_, args, rfl, hlength, hall, -⟩
    obtain ⟨more, rfl⟩ := all_zip_single_iff.mp ⟨hlength, hall⟩
    exact ⟨more, rfl⟩
  · rintro ⟨more, rfl⟩
    obtain ⟨hlength, hall⟩ := all_zip_single_iff.mpr ⟨more, rfl⟩
    exact ⟨_, rest ++ more, rfl, hlength, hall, rfl⟩

lemma tokensRule_matches_decision {first : Text} {rest : List Text} {decision : Decision}
    (h : (tokensRule first rest decision).matches cmd = some m) :
    m.decision = decision := by
  obtain ⟨_, -, -, -, rfl⟩ := matches_eq_some_iff.mp h
  rfl

lemma decision_withResolvedProgram (program : AbsolutePath) (m : RuleMatch) :
    (m.withResolvedProgram program).decision = m.decision := by
  cases m <;> rfl

/-! ## Matching with one more rule -/

lemma matchExactRules_addRule (rule : PrefixRule) :
    (p.addRule rule).matchExactRules cmd = p.matchExactRules cmd ++ (rule.matches cmd).toList := by
  cases cmd with
  | nil =>
    have hnone : rule.matches [] = none := rfl
    rw [hnone]
    rfl
  | cons program args =>
    by_cases hfirst : program = rule.first
    · show ((p.addRule rule).rulesByProgram program).filterMap _ = _
      simp only [addRule, if_pos hfirst, List.filterMap_append]
      rfl
    · have hnone : rule.matches (program :: args) = none := by
        cases h : rule.matches (program :: args) with
        | none => rfl
        | some m =>
          obtain ⟨args', hcmd, -⟩ := matches_eq_some_iff.mp h
          exact absurd (List.cons.inj hcmd).1 hfirst
      show ((p.addRule rule).rulesByProgram program).filterMap _ = _
      simp only [addRule, if_neg hfirst, hnone, Option.toList_none, List.append_nil]
      rfl

/-- The matches of the rule through the resolved executable. -/
def hostMatchesOf (home currentDir : Option AbsolutePath) (p : Policy) (rule : PrefixRule)
    (cmd : List Text) : List RuleMatch :=
  match hostProgram home currentDir cmd with
  | none => []
  | some (program, name) =>
    if p.hostAllows program name then
      ((rule.matches (name :: cmd.tail)).map (·.withResolvedProgram program)).toList
    else []

lemma matchHostExecutableRules_addRule (rule : PrefixRule) :
    (p.addRule rule).matchHostExecutableRules home currentDir cmd =
      p.matchHostExecutableRules home currentDir cmd ++
        p.hostMatchesOf home currentDir rule cmd := by
  unfold matchHostExecutableRules hostMatchesOf
  cases hostProgram home currentDir cmd with
  | none => rfl
  | some host =>
    obtain ⟨program, name⟩ := host
    have hallows : (p.addRule rule).hostAllows program name = p.hostAllows program name := rfl
    dsimp only
    rw [hallows]
    split
    · -- the rules of the executable are the exact rules of its name
      have hexact : (p.addRule rule).matchExactRules (name :: cmd.tail) =
          p.matchExactRules (name :: cmd.tail) ++ (rule.matches (name :: cmd.tail)).toList :=
        matchExactRules_addRule rule
      simp only [matchExactRules] at hexact
      rw [hexact, List.map_append, Option.toList_map]
    · rfl

lemma matchExactRules_append_ne_nil (h : p.matchExactRules cmd ≠ []) (args : List Text) :
    p.matchExactRules (cmd ++ args) ≠ [] := by
  obtain ⟨m, hm⟩ := List.exists_mem_of_ne_nil _ h
  cases cmd with
  | nil => exact absurd hm List.not_mem_nil
  | cons first rest =>
    obtain ⟨rule, hrule, hmatch⟩ := List.mem_filterMap.mp hm
    obtain ⟨m', hmatch', -⟩ := matches_append hmatch args
    exact List.ne_nil_of_mem (List.mem_filterMap.mpr ⟨rule, hrule, hmatch'⟩)

lemma matchHostExecutableRules_eq {program : AbsolutePath} {name : Text}
    (hhost : hostProgram home currentDir cmd = some (program, name))
    (hallows : p.hostAllows program name = true) :
    p.matchHostExecutableRules home currentDir cmd =
      (p.matchExactRules (name :: cmd.tail)).map (·.withResolvedProgram program) := by
  unfold matchHostExecutableRules
  rw [hhost]
  exact if_pos hallows

lemma matchHostExecutableRules_append_ne_nil
    (h : p.matchHostExecutableRules home currentDir cmd ≠ []) (args : List Text) :
    p.matchHostExecutableRules home currentDir (cmd ++ args) ≠ [] := by
  cases cmd with
  | nil => exact absurd rfl h
  | cons first rest =>
    cases hhost : hostProgram home currentDir (first :: rest) with
    | none => simp [matchHostExecutableRules, hhost] at h
    | some host =>
      obtain ⟨program, name⟩ := host
      have hallows : p.hostAllows program name = true := by
        by_contra hnot
        simp [matchHostExecutableRules, hhost, hnot] at h
      have hhost' : hostProgram home currentDir (first :: rest ++ args) = some (program, name) := hhost
      rw [matchHostExecutableRules_eq hhost hallows, Ne, List.map_eq_nil_iff] at h
      rw [matchHostExecutableRules_eq hhost' hallows, Ne, List.map_eq_nil_iff]
      exact matchExactRules_append_ne_nil h args

lemma policyMatches_of_exact (h : p.matchExactRules cmd ≠ []) :
    p.policyMatches home currentDir cmd ⟨true⟩ = p.matchExactRules cmd := by
  unfold policyMatches
  rw [if_neg (by simpa using h)]

lemma policyMatches_of_no_exact (h : p.matchExactRules cmd = []) :
    p.policyMatches home currentDir cmd ⟨true⟩ = p.matchHostExecutableRules home currentDir cmd := by
  unfold policyMatches
  rw [h]
  rfl

lemma alreadyAllowed_matches (h : p.alreadyAllowed home currentDir cmd = true) :
    p.policyMatches home currentDir cmd ⟨true⟩ ≠ [] ∧
      ∀ m ∈ p.policyMatches home currentDir cmd ⟨true⟩, m.decision = .allow := by
  simp only [alreadyAllowed, Bool.and_eq_true, decide_eq_true_eq] at h
  obtain ⟨hdecision, hany⟩ := h
  have hne : p.policyMatches home currentDir cmd ⟨true⟩ ≠ [] := by
    intro hnil
    rw [checkWithOptions_of_no_matches _ _ _ _ _ hnil] at hany
    simp [RuleMatch.isPolicyMatch] at hany
  refine ⟨hne, fun m hm => ?_⟩
  have hle := (decision_spec (fun _ => .forbidden) hne).2 m hm
  rw [hdecision] at hle
  exact decision_le_antisymm hle (decision_allow_le _)

/-! ## Adding the rule or not -/

section
variable {first : Text} {rest : List Text}

lemma hostMatchesOf_allow
    (h : m ∈ p.hostMatchesOf home currentDir (tokensRule first rest .allow) cmd) :
    m.decision = .allow := by
  unfold hostMatchesOf at h
  split at h
  · exact absurd h List.not_mem_nil
  split at h
  · rw [Option.mem_toList, Option.map_eq_some_iff] at h
    obtain ⟨m', hmatch, rfl⟩ := h
    rw [decision_withResolvedProgram]
    exact tokensRule_matches_decision hmatch
  · exact absurd h List.not_mem_nil

lemma decision_addRule_of_no_exact (args : List Text)
    (h : p.matchExactRules (first :: rest ++ args) = []) :
    ((p.addRule (tokensRule first rest .allow)).checkWithOptions home currentDir
      (first :: rest ++ args) fallback ⟨true⟩).decision = .allow := by
  have hmatch : ∃ m, (tokensRule first rest .allow).matches (first :: rest ++ args) = some m :=
    tokensRule_matches_iff.mpr ⟨args, rfl⟩
  obtain ⟨m, hm⟩ := hmatch
  have hexact : (p.addRule (tokensRule first rest .allow)).matchExactRules (first :: rest ++ args) =
      [m] := by
    rw [matchExactRules_addRule, h, hm]
    rfl
  have hmatches : (p.addRule (tokensRule first rest .allow)).policyMatches home currentDir
      (first :: rest ++ args) ⟨true⟩ = [m] := by
    rw [policyMatches_of_exact (by rw [hexact]; exact List.cons_ne_nil _ _), hexact]
  refine decision_eq_allow (by rw [hmatches]; exact List.cons_ne_nil _ _) fun m' hm' => ?_
  rw [hmatches, List.mem_singleton] at hm'
  rw [hm']
  exact tokensRule_matches_decision hm

variable (home currentDir) in
lemma policyMatches_addRule_of_no_match {rule : PrefixRule} (hexact : p.matchExactRules cmd = [])
    (hmatch : rule.matches cmd = none) :
    (p.addRule rule).policyMatches home currentDir cmd ⟨true⟩ =
      p.policyMatches home currentDir cmd ⟨true⟩ ++ p.hostMatchesOf home currentDir rule cmd := by
  have hexact' : (p.addRule rule).matchExactRules cmd = [] := by
    rw [matchExactRules_addRule, hexact, hmatch]
    rfl
  rw [policyMatches_of_no_exact hexact, policyMatches_of_no_exact hexact',
    matchHostExecutableRules_addRule]

lemma decision_addRule_of_unmatched (hnone : p.policyMatches home currentDir cmd ⟨true⟩ = [])
    (hhost : p.hostMatchesOf home currentDir (tokensRule first rest .allow) cmd ≠ []) :
    ((p.addRule (tokensRule first rest .allow)).checkWithOptions home currentDir cmd fallback
      ⟨true⟩).decision = .allow := by
  have hexact : p.matchExactRules cmd = [] := by
    by_contra hne
    rw [policyMatches_of_exact hne] at hnone
    exact hne hnone
  cases hmatch : (tokensRule first rest .allow).matches cmd with
  | some m =>
    obtain ⟨args, rfl⟩ := tokensRule_matches_iff.mp ⟨m, hmatch⟩
    exact decision_addRule_of_no_exact args hexact
  | none =>
    have hq : (p.addRule (tokensRule first rest .allow)).policyMatches home currentDir cmd ⟨true⟩ =
        p.hostMatchesOf home currentDir (tokensRule first rest .allow) cmd := by
      rw [policyMatches_addRule_of_no_match _ _ hexact hmatch, hnone, List.nil_append]
    refine decision_eq_allow (by rw [hq]; exact hhost) fun m hm => ?_
    rw [hq] at hm
    exact hostMatchesOf_allow hm

variable (home currentDir p first rest fallback) in
/-- The new rule matters to commands with its prefix, or to those it matches by host. -/
lemma decision_addRule (cmd : List Text) :
    (p.checkWithOptions home currentDir cmd fallback ⟨true⟩).decision =
      ((p.addRule (tokensRule first rest .allow)).checkWithOptions home currentDir cmd fallback
        ⟨true⟩).decision ∨
    ((∃ args, cmd = first :: rest ++ args) ∧ p.matchExactRules cmd = []) ∨
    (p.policyMatches home currentDir cmd ⟨true⟩ = [] ∧
      p.hostMatchesOf home currentDir (tokensRule first rest .allow) cmd ≠ []) := by
  by_cases hexact : p.matchExactRules cmd = []
  · cases hmatch : (tokensRule first rest .allow).matches cmd with
    | some m => exact Or.inr (Or.inl ⟨tokensRule_matches_iff.mp ⟨m, hmatch⟩, hexact⟩)
    | none =>
      have hq := policyMatches_addRule_of_no_match home currentDir hexact hmatch
      by_cases hne : p.policyMatches home currentDir cmd ⟨true⟩ = []
      · by_cases hextra : p.hostMatchesOf home currentDir (tokensRule first rest .allow) cmd = []
        · refine Or.inl (decision_congr fun m => ?_)
          rw [hq, hextra, List.append_nil]
        · exact Or.inr (Or.inr ⟨hne, hextra⟩)
      · exact Or.inl (decision_append_allow hq hne fun m hm => hostMatchesOf_allow hm)
  · have hq : (p.addRule (tokensRule first rest .allow)).policyMatches home currentDir cmd ⟨true⟩ =
        p.policyMatches home currentDir cmd ⟨true⟩ ++
          ((tokensRule first rest .allow).matches cmd).toList := by
      rw [policyMatches_of_exact hexact, policyMatches_of_exact, matchExactRules_addRule]
      rw [matchExactRules_addRule]
      exact List.append_ne_nil_of_left_ne_nil hexact _
    refine Or.inl (decision_append_allow hq ?_ fun m hm => ?_)
    · rw [policyMatches_of_exact hexact]
      exact hexact
    · exact tokensRule_matches_decision (Option.mem_toList.mp hm)

lemma hostMatchesOf_ne_nil_iff :
    p.hostMatchesOf home currentDir (tokensRule first rest .allow) cmd ≠ [] ↔
      ∃ program name args, hostProgram home currentDir cmd = some (program, name) ∧
        p.hostAllows program name = true ∧ name :: cmd.tail = first :: rest ++ args := by
  unfold hostMatchesOf
  cases hhost : hostProgram home currentDir cmd with
  | none => simp
  | some host =>
    obtain ⟨program, name⟩ := host
    dsimp only
    by_cases hallows : p.hostAllows program name = true
    · have hmatch := @tokensRule_matches_iff (name :: cmd.tail) first rest .allow
      constructor
      · intro hne
        rw [if_pos hallows, Ne, Option.toList_eq_nil_iff, Option.map_eq_none_iff, ← Ne,
          Option.ne_none_iff_exists'] at hne
        obtain ⟨args, hargs⟩ := hmatch.mp hne
        exact ⟨program, name, args, rfl, hallows, hargs⟩
      · rintro ⟨program', name', args, heq, -, hargs⟩
        cases heq
        obtain ⟨m, hm⟩ := hmatch.mpr ⟨args, hargs⟩
        rw [if_pos hallows, hm]
        exact List.cons_ne_nil _ _
    · constructor
      · intro hne
        rw [if_neg hallows] at hne
        exact absurd rfl hne
      · rintro ⟨program', name', args, heq, hallows', -⟩
        cases heq
        exact absurd hallows' hallows

/-- Where the policy allows the amended command, adding its rule makes no difference exactly when the
policy does not drift. -/
lemma agree_addRule_iff (hallowed : p.alreadyAllowed home currentDir (first :: rest) = true) :
    Agree home currentDir p (p.addRule (tokensRule first rest .allow)) ↔
      ¬ Drifts home currentDir p (first :: rest) := by
  obtain ⟨hne, hallow⟩ := alreadyAllowed_matches hallowed
  constructor
  · rintro hagree ⟨-, hexact, ⟨args, hnone, m, hm, hstricter⟩ |
      ⟨cmd, program, name, args, hhost, hallows, hargs, hnone⟩⟩
    · -- a stricter rule of the executable decides in memory, the new rule on disk
      rw [← policyMatches_of_no_exact hnone] at hm
      have hle := (decision_spec (fun _ => .allow) (List.ne_nil_of_mem hm)).2 m hm
      rw [hagree, decision_addRule_of_no_exact args hnone] at hle
      exact hstricter (decision_le_antisymm hle (decision_allow_le _))
    · -- no rule decides in memory, the new rule does on disk
      have hmatch := hostMatchesOf_ne_nil_iff.mpr ⟨program, name, args, hhost, hallows, hargs⟩
      have h := hagree cmd fun _ => .forbidden
      rw [checkWithOptions_of_no_matches _ _ _ _ _ hnone,
        decision_addRule_of_unmatched hnone hmatch] at h
      cases h
  · intro hdrift cmd fallback
    rcases decision_addRule home currentDir p fallback first rest cmd with
      heq | ⟨⟨args, rfl⟩, hnone⟩ | ⟨hnone, hmatch⟩
    · exact heq
    · -- only the rules of the executable allow the command, so they decide it with more arguments
      have hhostOnly : p.matchExactRules (first :: rest) = [] := by
        by_contra hexact
        exact matchExactRules_append_ne_nil hexact args hnone
      rw [policyMatches_of_no_exact hhostOnly] at hne
      have hne' := matchHostExecutableRules_append_ne_nil hne args
      rw [decision_addRule_of_no_exact args hnone]
      rw [← policyMatches_of_no_exact hnone] at hne'
      refine decision_eq_allow hne' fun m hm => ?_
      by_contra hstricter
      rw [policyMatches_of_no_exact hnone] at hm
      exact hdrift ⟨hallowed, hhostOnly, Or.inl ⟨args, hnone, m, hm, hstricter⟩⟩
    · obtain ⟨program, name, args, hhost, hallows, hargs⟩ := hostMatchesOf_ne_nil_iff.mp hmatch
      by_cases hexact : p.matchExactRules (first :: rest) = []
      · exact absurd ⟨hallowed, hexact, Or.inr ⟨cmd, program, name, args, hhost, hallows, hargs, hnone⟩⟩
          hdrift
      -- the exact rules of the amended command are those of the executable's name
      have hnone' : p.matchExactRules cmd = [] := by
        by_contra hne'
        rw [policyMatches_of_exact hne'] at hnone
        exact hne' hnone
      rw [policyMatches_of_no_exact hnone', matchHostExecutableRules_eq hhost hallows, hargs,
        List.map_eq_nil_iff] at hnone
      exact absurd hnone (matchExactRules_append_ne_nil hexact args)

end

lemma Agree.trans {r : Policy} (hpq : Agree home currentDir p q) (hqr : Agree home currentDir q r) :
    Agree home currentDir p r :=
  fun cmd fallback => (hpq cmd fallback).trans (hqr cmd fallback)

lemma Agree.symm (h : Agree home currentDir p q) : Agree home currentDir q p :=
  fun cmd fallback => (h cmd fallback).symm

end Policy

/-! ## The amendment -/

open Policy

/-- Reading the rules file after the amendment gives the rules that were there and the amendment's,
which is an exact rule for the tokens of the command. -/
def ReloadsAmendment (load : Text → Policy) (rulesFile : Text) (command : List Text) : Prop :=
  ∀ updated, (load rulesFile).addPrefixRule command .allow = .ok updated →
    (load (appendLockedLine rulesFile (allowPrefixRuleLine command))).SameRules updated

variable {home currentDir : Option AbsolutePath} {manager manager' : ExecPolicyManager}
  {command : List Text} {faults : AmendFaults}

/-- What an amendment that succeeds does: the line is in the file, and the policy is unchanged if it
allowed the command and else has the rule. -/
lemma appendAmendmentAndUpdate_eq_ok
    (h : manager.appendAmendmentAndUpdate home currentDir command faults = .ok manager') :
    ∃ first rest, command = first :: rest ∧
      manager'.rulesFile = appendLockedLine manager.rulesFile (allowPrefixRuleLine command) ∧
      manager'.policy =
        if manager.policy.alreadyAllowed home currentDir command then manager.policy
        else manager.policy.addRule (tokensRule first rest .allow) := by
  unfold ExecPolicyManager.appendAmendmentAndUpdate blockingAppendAllowPrefixRule at h
  cases command with
  | nil =>
    simp only [if_pos] at h
    split at h
    · cases h
    split at h <;> cases h
  | cons first rest =>
    refine ⟨first, rest, rfl, ?_⟩
    rw [if_neg (List.cons_ne_nil _ _)] at h
    split at h
    · cases h
    split at h
    · cases h
    split at h
    · cases h
    rename_i rulesFile hfile
    split at hfile
    · cases hfile
    cases hfile
    split at h
    · rename_i hallowed
      cases h
      exact ⟨rfl, (if_pos hallowed).symm⟩
    · rename_i hallowed
      cases h
      exact ⟨rfl, (if_neg hallowed).symm⟩

/-- After an amendment the policy in memory decides every command as the rules on disk do, exactly if
it did not allow the command by the rules of its executable alone while the new rule decides some
command otherwise. -/
theorem appendAmendmentAndUpdate_agree_iff (load : Text → Policy)
    (hloaded : manager.policy = load manager.rulesFile)
    (hreload : ReloadsAmendment load manager.rulesFile command)
    (h : manager.appendAmendmentAndUpdate home currentDir command faults = .ok manager') :
    Agree home currentDir manager'.policy (load manager'.rulesFile) ↔
      ¬ Drifts home currentDir manager.policy command := by
  obtain ⟨first, rest, rfl, hfile, hpolicy⟩ := appendAmendmentAndUpdate_eq_ok h
  have hdisk : Agree home currentDir (load manager'.rulesFile)
      (manager.policy.addRule (tokensRule first rest .allow)) := by
    rw [hfile, hloaded]
    exact (hreload _ rfl).agree
  rw [hpolicy]
  split
  · rename_i hallowed
    rw [← agree_addRule_iff hallowed]
    exact ⟨fun hagree => hagree.trans hdisk, fun hagree => hagree.trans hdisk.symm⟩
  · rename_i hallowed
    refine ⟨fun _ hdrift => hallowed hdrift.allowed, fun _ => hdisk.symm⟩

/-- `git` is allowed and `git push` forbidden, by name. -/
def gitRules : Policy where
  rulesByProgram name :=
    if name = "git".toList then
      [tokensRule "git".toList [] .allow, tokensRule "git".toList ["push".toList] .forbidden]
    else []
  hostExecutablesByName _ := none

/-- The rules with an amendable file that is empty at first. -/
def loadGitRules (command : List Text) (rulesFile : Text) : Policy :=
  if rulesFile = [] then gitRules
  else (gitRules.addPrefixRule command .allow).toOption.getD gitRules

lemma reloadsAmendment_loadGitRules (command : List Text) :
    ReloadsAmendment (loadGitRules command) [] command := by
  intro updated hupdated
  have hline : appendLockedLine [] (allowPrefixRuleLine command) ≠ [] := by
    unfold appendLockedLine
    split
    · rename_i hmem
      cases hmem
    · simp
  have hload : loadGitRules command (appendLockedLine [] (allowPrefixRuleLine command)) = updated := by
    unfold loadGitRules at hupdated ⊢
    rw [if_neg hline]
    rw [if_pos rfl] at hupdated
    rw [hupdated]
    rfl
  rw [hload]
  exact ⟨fun _ _ => Iff.rfl, fun _ => rfl⟩

/-- Amending by a command that no rule matches. -/
theorem appendAmendmentAndUpdate_agree_ls :
    ∃ manager', (ExecPolicyManager.mk gitRules []).appendAmendmentAndUpdate none none
        ["ls".toList] {} = .ok manager' ∧
      Agree none none manager'.policy (loadGitRules ["ls".toList] manager'.rulesFile) := by
  have hallowed : gitRules.alreadyAllowed none none ["ls".toList] = false := by decide +kernel
  have hok : (ExecPolicyManager.mk gitRules []).appendAmendmentAndUpdate none none
      ["ls".toList] {} = .ok ⟨gitRules.addRule (tokensRule "ls".toList [] .allow),
        appendLockedLine [] (allowPrefixRuleLine ["ls".toList])⟩ := by
    show (if gitRules.alreadyAllowed none none ["ls".toList] = true then _ else _) = _
    rw [hallowed]
    rfl
  exact ⟨_, hok, (appendAmendmentAndUpdate_agree_iff (loadGitRules ["ls".toList]) rfl
    (reloadsAmendment_loadGitRules _) hok).mpr fun hdrift => Bool.false_ne_true (hallowed.symm.trans hdrift.allowed)⟩

/-- Amending by `/usr/bin/git`, which the rules for `git` allow: in memory `/usr/bin/git push` stays
forbidden, after a restart it is allowed. -/
theorem amended_git_push_differs_after_reload :
    let load := loadGitRules ["/usr/bin/git".toList]
    let check := fun p : Policy => (p.checkWithOptions none none
      ["/usr/bin/git".toList, "push".toList] (fun _ => .prompt) ⟨true⟩).decision
    ReloadsAmendment load [] ["/usr/bin/git".toList] ∧
      ((ExecPolicyManager.mk (load []) []).appendAmendmentAndUpdate none none
        ["/usr/bin/git".toList] {}).toOption.map
          (fun manager => (check manager.policy, check (load manager.rulesFile))) =
        some (.forbidden, .allow) :=
  ⟨reloadsAmendment_loadGitRules _, by decide +kernel⟩

end Supercodex.ExecPolicy
