import Supercodex.Approvals.Requirement

/-!
# What an approval requirement promises

The requirement follows the strictest of the decisions about the commands of a script. Where an approval is
skipped all of them are allowed, and the sandbox is bypassed exactly if rules of the policy allow them all.
-/

namespace Supercodex.Approvals

open Supercodex.Path ExecPolicy Permissions ExecPolicy.Policy

section

variable {platform : Platform} {policy : Policy} {req : ExecApprovalRequest} {cmd first : List Text}
  {rest : List (List Text)} {fallback : List Text → Decision}

/-- The commands of a request. -/
def segments (platform : Platform) (req : ExecApprovalRequest) : List (List Text) :=
  (commandsForExecPolicy platform req.command).1.1 :: (commandsForExecPolicy platform req.command).1.2

/-- The decision about one command. -/
def decisionFor (platform : Platform) (policy : Policy) (fallback : List Text → Decision) (cmd : List Text) :
    Decision :=
  (policy.checkWithOptions platform.home platform.currentDir cmd fallback ⟨true⟩).decision

/-- The matches of one command. -/
def matchesFor (platform : Platform) (policy : Policy) (fallback : List Text → Decision) (cmd : List Text) :
    List RuleMatch :=
  (policy.checkWithOptions platform.home platform.currentDir cmd fallback ⟨true⟩).matchedRules

/-- The rules of the policy that match one command. -/
def rulesFor (platform : Platform) (policy : Policy) (cmd : List Text) : List RuleMatch :=
  policy.policyMatches platform.home platform.currentDir cmd ⟨true⟩

/-! ## Several commands -/

variable {m : RuleMatch}

lemma mem_checkMultiple (hcmd : cmd ∈ first :: rest)
    (hm : m ∈ matchesFor platform policy fallback cmd) :
    m ∈ (checkMultipleWithOptions platform policy first rest fallback ⟨true⟩).matchedRules := by
  unfold checkMultipleWithOptions
  unfold matchesFor checkWithOptions at hm
  simp only [List.mem_cons, List.mem_append, List.mem_flatMap] at hcmd hm ⊢
  rcases hcmd with rfl | hcmd
  · rcases hm with hm | hm
    · exact .inl hm
    · exact .inr (.inl hm)
  · exact .inr (.inr ⟨cmd, hcmd, hm⟩)

variable (platform policy fallback cmd) in
lemma decisionFor_spec :
    (∃ m ∈ matchesFor platform policy fallback cmd, m.decision = decisionFor platform policy fallback cmd) ∧
      ∀ m ∈ matchesFor platform policy fallback cmd,
        m.decision ≤ decisionFor platform policy fallback cmd :=
  ⟨exists_strictest _ _, fun _ => le_strictest⟩

lemma decisionFor_le_checkMultiple (hcmd : cmd ∈ first :: rest) :
    decisionFor platform policy fallback cmd ≤
      (checkMultipleWithOptions platform policy first rest fallback ⟨true⟩).decision := by
  obtain ⟨m, hm, hdecision⟩ := (decisionFor_spec platform policy cmd fallback).1
  rw [← hdecision]
  exact le_strictest (mem_checkMultiple hcmd hm)

/-! ## The matches of one command -/

lemma isPolicyMatch_of_mem_rulesFor (h : m ∈ rulesFor platform policy cmd) :
    m.isPolicyMatch = true := by
  have hrule : ∀ (p : Policy) (cmd : List Text), ∀ m ∈ p.matchExactRules cmd, m.isPolicyMatch = true := by
    intro p cmd m hm
    cases cmd with
    | nil => exact absurd hm List.not_mem_nil
    | cons first rest =>
      obtain ⟨rule, -, hmatch⟩ := List.mem_filterMap.mp hm
      obtain ⟨_, -, -, -, rfl⟩ := matches_eq_some_iff.mp hmatch
      rfl
  by_cases hexact : policy.matchExactRules cmd = []
  · rw [rulesFor, policyMatches_of_no_exact hexact] at h
    unfold matchHostExecutableRules at h
    split at h
    · exact absurd h List.not_mem_nil
    split at h
    · obtain ⟨m', hm', rfl⟩ := List.mem_map.mp h
      obtain ⟨rule, -, hmatch⟩ := List.mem_filterMap.mp hm'
      obtain ⟨_, -, -, -, rfl⟩ := matches_eq_some_iff.mp hmatch
      rfl
    · exact absurd h List.not_mem_nil
  · rw [rulesFor, policyMatches_of_exact hexact] at h
    exact hrule policy cmd m h

lemma matchesFor_of_rules (h : rulesFor platform policy cmd ≠ []) :
    matchesFor platform policy fallback cmd = rulesFor platform policy cmd := by
  obtain ⟨m, ms, hms⟩ := List.exists_cons_of_ne_nil h
  unfold matchesFor
  rw [checkWithOptions_of_matches _ _ _ _ _ hms, hms]

lemma decisionFor_of_no_rules (h : rulesFor platform policy cmd = []) :
    decisionFor platform policy fallback cmd = fallback cmd := by
  unfold decisionFor
  rw [checkWithOptions_of_no_matches _ _ _ _ _ h]

lemma mem_matchesFor_of_rule (hm : m ∈ rulesFor platform policy cmd) :
    m ∈ matchesFor platform policy fallback cmd := by
  rwa [matchesFor_of_rules (List.ne_nil_of_mem hm)]

variable (fallback) in
lemma rulesFor_le_decisionFor (hm : m ∈ rulesFor platform policy cmd) :
    m.decision ≤ decisionFor platform policy fallback cmd :=
  (decisionFor_spec platform policy cmd fallback).2 m (mem_matchesFor_of_rule hm)

/-! ## What the requirement says -/

/-- What the heuristics say about a command of the request. -/
def fallbackFor (platform : Platform) (req : ExecApprovalRequest) : List Text → Decision :=
  execPolicyFallback platform req (commandsForExecPolicy platform req.command).2

/-- The evaluation of all the commands. -/
def evaluationFor (platform : Platform) (policy : Policy) (req : ExecApprovalRequest) : Evaluation :=
  checkMultipleWithOptions platform policy (commandsForExecPolicy platform req.command).1.1
    (commandsForExecPolicy platform req.command).1.2 (fallbackFor platform req) ⟨true⟩

/-- The amendment that the request asks for. -/
def requestedFor (platform : Platform) (policy : Policy) (req : ExecApprovalRequest) :
    Option ExecPolicyAmendment :=
  deriveRequestedExecpolicyAmendmentFromPrefixRule platform req.prefixRule
    (evaluationFor platform policy req).matchedRules policy (segments platform req)
    (fallbackFor platform req) ⟨true⟩

/-- The requirement follows the decision of the policy. -/
lemma requirement_of_decision :
    createExecApprovalRequirementForCommand platform policy req =
      match (evaluationFor platform policy req).decision with
      | .forbidden =>
        .forbidden (deriveForbiddenReason platform req.command (evaluationFor platform policy req))
      | .prompt =>
        match promptIsRejectedByPolicy req.approvalPolicy
          ((evaluationFor platform policy req).matchedRules.any isPolicyPrompt) with
        | some reason => .forbidden reason
        | none => .needsApproval
            (derivePromptReason platform req.command (evaluationFor platform policy req))
            ((requestedFor platform policy req).or
              (if (commandsForExecPolicy platform req.command).2 then none
              else tryDeriveExecpolicyAmendmentForPromptRules
                (evaluationFor platform policy req).matchedRules))
      | .allow => .skip
          ((segments platform req).all fun command =>
            (rulesFor platform policy command).any fun m => m.isPolicyMatch && m.decision = .allow)
          (if (commandsForExecPolicy platform req.command).2 then none
          else tryDeriveExecpolicyAmendmentForAllowRules (evaluationFor platform policy req).matchedRules) :=
  rfl

lemma bypass_iff (hallow : decisionFor platform policy fallback cmd = .allow) :
    ((rulesFor platform policy cmd).any fun m => m.isPolicyMatch && m.decision = .allow) = true ↔
      rulesFor platform policy cmd ≠ [] ∧ ∀ m ∈ rulesFor platform policy cmd, m.decision = .allow := by
  have hall : ∀ m ∈ rulesFor platform policy cmd, m.decision = .allow := by
    intro m hm
    have hle := rulesFor_le_decisionFor fallback hm
    rw [hallow] at hle
    exact decision_le_antisymm hle (decision_allow_le _)
  rw [List.any_eq_true]
  constructor
  · intro h
    obtain ⟨m, hm, -⟩ := h
    exact ⟨List.ne_nil_of_mem hm, hall⟩
  · intro h
    obtain ⟨m, hm⟩ := List.exists_mem_of_ne_nil _ h.1
    refine ⟨m, hm, ?_⟩
    rw [isPolicyMatch_of_mem_rulesFor hm, hall m hm]
    rfl

/-- A skipped approval means that every segment is allowed. -/
lemma allowed_of_requirement {bypass : Bool} {amendment : Option ExecPolicyAmendment}
    (h : createExecApprovalRequirementForCommand platform policy req = .skip bypass amendment) :
    (∀ cmd ∈ segments platform req,
      decisionFor platform policy (fallbackFor platform req) cmd = .allow) ∧
    (bypass = true ↔ ∀ cmd ∈ segments platform req, rulesFor platform policy cmd ≠ [] ∧
      ∀ m ∈ rulesFor platform policy cmd, m.decision = .allow) := by
  have hspec : ∀ cmd ∈ segments platform req, decisionFor platform policy (fallbackFor platform req) cmd ≤
      (evaluationFor platform policy req).decision := fun _ => decisionFor_le_checkMultiple
  rw [requirement_of_decision] at h
  split at h
  · cases h
  · split at h <;> cases h
  rename_i hdecision
  cases h
  rw [hdecision] at hspec
  have hallow : ∀ cmd ∈ segments platform req,
      decisionFor platform policy (fallbackFor platform req) cmd = .allow :=
    fun cmd hcmd => decision_le_antisymm (hspec cmd hcmd) (decision_allow_le _)
  refine ⟨hallow, ?_⟩
  rw [List.all_eq_true]
  constructor
  · intro h cmd hcmd
    exact (bypass_iff (hallow cmd hcmd)).mp (h cmd hcmd)
  · intro h cmd hcmd
    exact (bypass_iff (hallow cmd hcmd)).mpr (h cmd hcmd)

end

end Supercodex.Approvals
