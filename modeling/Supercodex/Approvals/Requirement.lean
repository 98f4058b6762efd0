import Supercodex.ExecPolicy.Amendment
import Supercodex.Permissions.Legacy

/-!
# Which commands need an approval (`core/src/exec_policy.rs`)

A command is split into the commands of its script, each is matched against the exec policy, and those that
no rule matches are decided by heuristics. The outcome is whether the command runs at once, runs after an
approval, or does not run, and which amendment of the policy is proposed with the approval. The shell
grammar, the heuristics about single commands and the quoting of the messages are given.
-/

namespace Supercodex.Approvals

open Supercodex.Path ExecPolicy Permissions

/-- `GranularApprovalConfig`, as far as commands go. -/
structure GranularApprovalConfig where
  sandboxApproval : Bool
  rules : Bool
deriving DecidableEq

/-- `AskForApproval`. -/
inductive AskForApproval where
  | unlessTrusted
  | onFailure
  | onRequest
  | granular (config : GranularApprovalConfig)
  | never
deriving DecidableEq

/-- `SandboxPermissions`. -/
inductive SandboxPermissions where
  | useDefault
  | requireEscalated
  | withAdditionalPermissions
deriving DecidableEq

namespace SandboxPermissions

/-- `requires_escalated_permissions`. -/
def requiresEscalatedPermissions (permissions : SandboxPermissions) : Bool := permissions = .requireEscalated

/-- `requests_sandbox_override`. -/
def requestsSandboxOverride (permissions : SandboxPermissions) : Bool := permissions ≠ .useDefault

end SandboxPermissions

/-- `ExecPolicyAmendment`, as the tokens of its command. -/
abbrev ExecPolicyAmendment := List Text

/-- `ExecApprovalRequirement`. -/
inductive ExecApprovalRequirement where
  | skip (bypassSandbox : Bool) (proposedExecpolicyAmendment : Option ExecPolicyAmendment)
  | needsApproval (reason : Option Text) (proposedExecpolicyAmendment : Option ExecPolicyAmendment)
  | forbidden (reason : Text)
deriving DecidableEq

/-- `ExecApprovalRequest`. -/
structure ExecApprovalRequest where
  command : List Text
  approvalPolicy : AskForApproval
  sandboxPolicy : SandboxPolicy
  fileSystemSandboxPolicy : FileSystemSandboxPolicy
  sandboxPermissions : SandboxPermissions
  prefixRule : Option (List Text)

/-- What is given from outside: `parse_shell_lc_plain_commands`, `parse_shell_lc_single_command_prefix`,
`is_known_safe_command`, `command_might_be_dangerous`, `shlex::try_join`, whether the platform is Windows, and
what absolute paths are resolved with. -/
structure Platform where
  parseShellLcPlainCommands : List Text → Option (List (List Text))
  parseShellLcSingleCommandPrefix : List Text → Option (List Text)
  isKnownSafeCommand : List Text → Bool
  commandMightBeDangerous : List Text → Bool
  shlexTryJoin : List Text → Option Text
  windows : Bool
  home : Option AbsolutePath
  currentDir : Option AbsolutePath

/-- `PROMPT_CONFLICT_REASON`. -/
def promptConflictReason : Text := "approval required by policy, but AskForApproval is set to Never".toList

/-- `REJECT_SANDBOX_APPROVAL_REASON`. -/
def rejectSandboxApprovalReason : Text :=
  "approval required by policy, but AskForApproval::Granular.sandbox_approval is false".toList

/-- `REJECT_RULES_APPROVAL_REASON`. -/
def rejectRulesApprovalReason : Text :=
  "approval required by policy rule, but AskForApproval::Granular.rules is false".toList

/-- `BANNED_PREFIX_SUGGESTIONS`. -/
def bannedPrefixSuggestions : List (List Text) :=
  ([["python3"], ["python3", "-"], ["python3", "-c"], ["python"], ["python", "-"], ["python", "-c"], ["py"],
    ["py", "-3"], ["pythonw"], ["pyw"], ["pypy"], ["pypy3"], ["git"], ["bash"], ["bash", "-lc"], ["sh"],
    ["sh", "-c"], ["sh", "-lc"], ["zsh"], ["zsh", "-lc"], ["/bin/zsh"], ["/bin/zsh", "-lc"], ["/bin/bash"],
    ["/bin/bash", "-lc"], ["pwsh"], ["pwsh", "-Command"], ["pwsh", "-c"], ["powershell"],
    ["powershell", "-Command"], ["powershell", "-c"], ["powershell.exe"], ["powershell.exe", "-Command"],
    ["powershell.exe", "-c"], ["env"], ["sudo"], ["node"], ["node", "-e"], ["perl"], ["perl", "-e"], ["ruby"],
    ["ruby", "-e"], ["php"], ["php", "-r"], ["lua"], ["lua", "-e"], ["osascript"]] : List (List String)).map
    (·.map String.toList)

/-- `prompt_is_rejected_by_policy`. -/
def promptIsRejectedByPolicy (approvalPolicy : AskForApproval) (promptIsRule : Bool) : Option Text :=
  match approvalPolicy with
  | .never => some promptConflictReason
  | .onFailure => none
  | .onRequest => none
  | .unlessTrusted => none
  | .granular granularConfig =>
    if promptIsRule then
      if !granularConfig.rules then some rejectRulesApprovalReason else none
    else if !granularConfig.sandboxApproval then some rejectSandboxApprovalReason
    else none

section

variable (platform : Platform)

/-- `render_decision_for_unmatched_command`. -/
def renderDecisionForUnmatchedCommand (approvalPolicy : AskForApproval) (sandboxPolicy : SandboxPolicy)
    (fileSystemSandboxPolicy : FileSystemSandboxPolicy) (command : List Text)
    (sandboxPermissions : SandboxPermissions) (usedComplexParsing : Bool) : Decision :=
  if platform.isKnownSafeCommand command && !usedComplexParsing then .allow
  else
    let environmentLacksSandboxProtections := platform.windows && match sandboxPolicy with
      | .readOnly .. => true
      | _ => false
    if platform.commandMightBeDangerous command || environmentLacksSandboxProtections then
      match approvalPolicy with
      | .never =>
        match sandboxPolicy with
        | .dangerFullAccess | .externalSandbox _ => .allow
        | _ => .forbidden
      | _ => .prompt
    else
      match approvalPolicy with
      | .never | .onFailure => .allow
      | .unlessTrusted => .prompt
      | .onRequest | .granular _ =>
        match fileSystemSandboxPolicy.kind with
        | .unrestricted | .externalSandbox => .allow
        | .restricted => if sandboxPermissions.requestsSandboxOverride then .prompt else .allow

/-- `commands_for_exec_policy`: the first command, the commands after it, and whether the parsing was
complex. -/
def commandsForExecPolicy (command : List Text) : (List Text × List (List Text)) × Bool :=
  match platform.parseShellLcPlainCommands command with
  | some (first :: rest) => ((first, rest), false)
  | _ =>
    match platform.parseShellLcSingleCommandPrefix command with
    | some singleCommand => ((singleCommand, []), true)
    | none => ((command, []), false)

/-- `Policy::check_multiple_with_options`, of a first command and more. -/
def checkMultipleWithOptions (policy : Policy) (first : List Text) (rest : List (List Text))
    (heuristicsFallback : List Text → Decision) (options : MatchOptions) : Evaluation :=
  let ruleMatches := fun cmd =>
    policy.matchesForCommandWithOptions platform.home platform.currentDir cmd heuristicsFallback options
  let ms := (ruleMatches first).2 ++ rest.flatMap fun cmd => (ruleMatches cmd).1 :: (ruleMatches cmd).2
  ⟨strictest (ruleMatches first).1 ms, (ruleMatches first).1 :: ms⟩

/-- Does a rule of the policy prompt? -/
def isPolicyPrompt (m : RuleMatch) : Bool := m.isPolicyMatch && m.decision = .prompt

/-- `try_derive_execpolicy_amendment_for_prompt_rules`. -/
def tryDeriveExecpolicyAmendmentForPromptRules (matchedRules : List RuleMatch) : Option ExecPolicyAmendment :=
  if matchedRules.any isPolicyPrompt then none
  else matchedRules.findSome? fun
    | .heuristicsRuleMatch command .prompt => some command
    | _ => none

/-- `try_derive_execpolicy_amendment_for_allow_rules`. -/
def tryDeriveExecpolicyAmendmentForAllowRules (matchedRules : List RuleMatch) : Option ExecPolicyAmendment :=
  if matchedRules.any (·.isPolicyMatch) then none
  else matchedRules.findSome? fun
    | .heuristicsRuleMatch command .allow => some command
    | _ => none

/-- `prefix_rule_would_approve_all_commands`. -/
def prefixRuleWouldApproveAllCommands (execPolicy : Policy) (prefixRule : List Text)
    (commands : List (List Text)) (execPolicyFallback : List Text → Decision) (options : MatchOptions) : Bool :=
  match execPolicy.addPrefixRule prefixRule .allow with
  | .error _ => false
  | .ok policyWithPrefixRule => commands.all fun command =>
    (policyWithPrefixRule.checkWithOptions platform.home platform.currentDir command execPolicyFallback
      options).decision = .allow

/-- `derive_requested_execpolicy_amendment_from_prefix_rule`. -/
def deriveRequestedExecpolicyAmendmentFromPrefixRule (prefixRule : Option (List Text))
    (matchedRules : List RuleMatch) (execPolicy : Policy) (commands : List (List Text))
    (execPolicyFallback : List Text → Decision) (options : MatchOptions) : Option ExecPolicyAmendment :=
  match prefixRule with
  | none => none
  | some prefixRule =>
    if prefixRule.isEmpty then none
    else if bannedPrefixSuggestions.contains prefixRule then none
    else if matchedRules.any (·.isPolicyMatch) then none
    else if prefixRuleWouldApproveAllCommands platform execPolicy prefixRule commands execPolicyFallback options
    then some prefixRule else none

/-- `render_shlex_command`. -/
def renderShlexCommand (args : List Text) : Text :=
  (platform.shlexTryJoin args).getD ([' '].intercalate args)

/-- The match with the longest prefix among those that a rule decides in a way (`max_by_key`, which keeps the
last of several). -/
def mostSpecific (decision : Decision) (matchedRules : List RuleMatch) : Option (List Text × Option Text) :=
  (matchedRules.filterMap fun
    | .prefixRuleMatch matchedPrefix decision' _ justification =>
      if decision' = decision then some (matchedPrefix, justification) else none
    | .heuristicsRuleMatch .. => none).foldl
    (fun best m => match best with
      | some best => if best.1.length ≤ m.1.length then some m else some best
      | none => some m) none

/-- `derive_prompt_reason`. -/
def derivePromptReason (commandArgs : List Text) (evaluation : Evaluation) : Option Text :=
  let command := renderShlexCommand platform commandArgs
  match mostSpecific .prompt evaluation.matchedRules with
  | some (_, some justification) => some ('`' :: command ++ "` requires approval: ".toList ++ justification)
  | some (_, none) => some ('`' :: command ++ "` requires approval by policy".toList)
  | none => none

/-- `derive_forbidden_reason`. -/
def deriveForbiddenReason (commandArgs : List Text) (evaluation : Evaluation) : Text :=
  let command := renderShlexCommand platform commandArgs
  match mostSpecific .forbidden evaluation.matchedRules with
  | some (_, some justification) => '`' :: command ++ "` rejected: ".toList ++ justification
  | some (matchedPrefix, none) =>
    '`' :: command ++ "` rejected: policy forbids commands starting with `".toList ++
      renderShlexCommand platform matchedPrefix ++ ['`']
  | none => '`' :: command ++ "` rejected: blocked by policy".toList

/-- The fallback for the commands that no rule matches. -/
def execPolicyFallback (req : ExecApprovalRequest) (usedComplexParsing : Bool) (cmd : List Text) : Decision :=
  renderDecisionForUnmatchedCommand platform req.approvalPolicy req.sandboxPolicy req.fileSystemSandboxPolicy
    cmd req.sandboxPermissions usedComplexParsing

/-- `ExecPolicyManager::create_exec_approval_requirement_for_command`. -/
def createExecApprovalRequirementForCommand (execPolicy : Policy) (req : ExecApprovalRequest) :
    ExecApprovalRequirement :=
  let ((first, rest), usedComplexParsing) := commandsForExecPolicy platform req.command
  let fallback := execPolicyFallback platform req usedComplexParsing
  let evaluation := checkMultipleWithOptions platform execPolicy first rest fallback ⟨true⟩
  let requestedAmendment := deriveRequestedExecpolicyAmendmentFromPrefixRule platform req.prefixRule
    evaluation.matchedRules execPolicy (first :: rest) fallback ⟨true⟩
  match evaluation.decision with
  | .forbidden => .forbidden (deriveForbiddenReason platform req.command evaluation)
  | .prompt =>
    match promptIsRejectedByPolicy req.approvalPolicy (evaluation.matchedRules.any isPolicyPrompt) with
    | some reason => .forbidden reason
    | none => .needsApproval (derivePromptReason platform req.command evaluation)
        (requestedAmendment.or (if usedComplexParsing then none
          else tryDeriveExecpolicyAmendmentForPromptRules evaluation.matchedRules))
  | .allow => .skip
      ((first :: rest).all fun command =>
        (execPolicy.policyMatches platform.home platform.currentDir command ⟨true⟩).any fun m =>
          m.isPolicyMatch && m.decision = .allow)
      (if usedComplexParsing then none else tryDeriveExecpolicyAmendmentForAllowRules evaluation.matchedRules)

end

end Supercodex.Approvals
