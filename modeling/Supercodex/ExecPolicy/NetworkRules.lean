import Supercodex.ExecPolicy.Amendment
import Supercodex.NetworkProxy.Policy
import Supercodex.Library.LastWrites

/-!
# Network rules (`execpolicy/src/rule.rs`, `policy.rs`, `parser.rs`, `amend.rs`)

A network rule decides for one host. It is added to the policy in memory, written to the rules file as a call
of `network_rule`, and read back from there; each way normalises the host. The rules are compiled into a list
of allowed and a list of denied domains.
-/

namespace Supercodex.ExecPolicy

open Text

/-- `Error`, as far as network rules report it. -/
inductive RuleError where
  | invalidDecision (raw : Text)
  | invalidRule (message : Text)
deriving DecidableEq

/-- The text of the error. -/
def RuleError.message : RuleError → Text
  | invalidDecision raw => "invalid decision: ".toList ++ raw
  | invalidRule message => "invalid rule: ".toList ++ message

/-- `NetworkRuleProtocol`. -/
inductive NetworkRuleProtocol where
  | http
  | https
  | socks5Tcp
  | socks5Udp
deriving DecidableEq

/-- `NetworkRuleProtocol::parse`. -/
def NetworkRuleProtocol.parse (raw : Text) : Except RuleError NetworkRuleProtocol :=
  if raw = "http".toList then .ok .http
  else if raw = "https".toList ∨ raw = "https_connect".toList ∨ raw = "http-connect".toList then .ok .https
  else if raw = "socks5_tcp".toList then .ok .socks5Tcp
  else if raw = "socks5_udp".toList then .ok .socks5Udp
  else .error (.invalidRule ("network_rule protocol must be one of http, https, socks5_tcp, socks5_udp (got ".toList ++
    raw ++ ")".toList))

/-- `NetworkRuleProtocol::as_policy_string`. -/
def NetworkRuleProtocol.asPolicyString : NetworkRuleProtocol → Text
  | http => "http".toList
  | https => "https".toList
  | socks5Tcp => "socks5_tcp".toList
  | socks5Udp => "socks5_udp".toList

/-- `NetworkRule`. -/
structure NetworkRule where
  host : Text
  protocol : NetworkRuleProtocol
  decision : Decision
  justification : Option Text
deriving DecidableEq

/-! ## Hosts -/

/-- `char::is_ascii_digit` of all characters, of which there is at least one. -/
def isPort (port : Text) : Bool := !port.isEmpty && port.all Char.isDigit

/-- The host that stands in brackets, or before a port, or alone. -/
def networkRuleHostPart (raw host : Text) : Except RuleError Text :=
  match stripPrefix ['['] host with
  | some stripped =>
    if ']' ∉ stripped then
      .error (.invalidRule "network_rule host has an invalid bracketed IPv6 literal".toList)
    else
      let inside := stripped.takeWhile (· != ']')
      let rest := (stripped.dropWhile (· != ']')).drop 1
      let portOk := (stripPrefix [':'] rest).any isPort
      if rest ≠ [] ∧ !portOk then
        .error (.invalidRule ("network_rule host contains an unsupported suffix: ".toList ++ raw))
      else .ok inside
  | none =>
    if host.count ':' = 1 then
      let candidate := host.takeWhile (· != ':')
      let port := (host.dropWhile (· != ':')).drop 1
      if candidate ≠ [] ∧ isPort port then .ok candidate else .ok host
    else .ok host

/-- `normalize_network_rule_host`. -/
def normalizeNetworkRuleHost (raw : Text) : Except RuleError Text := do
  let host := raw.trim
  if host = [] then .error (.invalidRule "network_rule host cannot be empty".toList)
  else if "://".toList <:+: host ∨ '/' ∈ host ∨ '?' ∈ host ∨ '#' ∈ host then
    .error (.invalidRule
      "network_rule host must be a hostname or IP literal (without scheme or path)".toList)
  else
    let host ← networkRuleHostPart raw host
    let normalized := NetworkProxy.toAsciiLowercase (NetworkProxy.trimEndDots host).trim
    if normalized = [] then .error (.invalidRule "network_rule host cannot be empty".toList)
    else if '*' ∈ normalized then
      .error (.invalidRule "network_rule host must be a specific host; wildcards are not allowed".toList)
    else if normalized.any isWhitespace then
      .error (.invalidRule "network_rule host cannot contain whitespace".toList)
    else .ok normalized

/-! ## Rules in memory and in the file -/

/-- The check of a justification, made in each way. -/
def checkJustification (justification : Option Text) : Except RuleError Unit :=
  if justification.any (·.trim.isEmpty) then .error (.invalidRule "justification cannot be empty".toList)
  else .ok ()

/-- `Policy::add_network_rule`, on the network rules of the policy. -/
def addNetworkRule (networkRules : List NetworkRule) (host : Text) (protocol : NetworkRuleProtocol)
    (decision : Decision) (justification : Option Text) : Except RuleError (List NetworkRule) := do
  let host ← normalizeNetworkRuleHost host
  checkJustification justification
  return networkRules ++ [⟨host, protocol, decision, justification⟩]

/-- The arguments of a call of `network_rule` in a rules file. -/
structure NetworkRuleCall where
  host : Text
  protocol : Text
  decision : Text
  justification : Option Text
deriving DecidableEq

/-- The line of a call. -/
def NetworkRuleCall.line (call : NetworkRuleCall) : Text :=
  let args := ["host=".toList ++ jsonString call.host, "protocol=".toList ++ jsonString call.protocol,
    "decision=".toList ++ jsonString call.decision] ++
      (call.justification.map ("justification=".toList ++ jsonString ·)).toList
  "network_rule(".toList ++ ", ".toList.intercalate args ++ ")".toList

/-- The decision in a call, as `blocking_append_network_rule` writes it. -/
def decisionString : Decision → Text
  | .allow => "allow".toList
  | .prompt => "prompt".toList
  | .forbidden => "deny".toList

/-- The call that `blocking_append_network_rule` appends to the rules file. -/
def networkRuleCall (host : Text) (protocol : NetworkRuleProtocol) (decision : Decision)
    (justification : Option Text) : Except RuleError NetworkRuleCall := do
  let host ← normalizeNetworkRuleHost host
  checkJustification justification
  return ⟨host, protocol.asPolicyString, decisionString decision, justification⟩

/-- `Decision::parse`. -/
def Decision.parse (raw : Text) : Except RuleError Decision :=
  if raw = "allow".toList then .ok .allow
  else if raw = "prompt".toList then .ok .prompt
  else if raw = "forbidden".toList then .ok .forbidden
  else .error (.invalidDecision raw)

/-- `parse_network_rule_decision`. -/
def parseNetworkRuleDecision (raw : Text) : Except RuleError Decision :=
  if raw = "deny".toList then .ok .forbidden else Decision.parse raw

/-- The builtin `network_rule`: the rule that a call adds when the file is loaded. -/
def networkRule (call : NetworkRuleCall) : Except RuleError NetworkRule := do
  let protocol ← NetworkRuleProtocol.parse call.protocol
  let decision ← parseNetworkRuleDecision call.decision
  checkJustification call.justification
  let host ← normalizeNetworkRuleHost call.host
  return ⟨host, protocol, decision, call.justification⟩

/-! ## Compiled domains -/

/-- `upsert_domain`. -/
def upsertDomain (entries : List Text) (host : Text) : List Text := entries.filter (· ≠ host) ++ [host]

/-- One round of the loop of `compiled_network_domains`: the allowed and the denied domains. -/
def compileRule (domains : List Text × List Text) (rule : NetworkRule) : List Text × List Text :=
  match rule.decision with
  | .allow => (upsertDomain domains.1 rule.host, domains.2.filter (· ≠ rule.host))
  | .forbidden => (domains.1.filter (· ≠ rule.host), upsertDomain domains.2 rule.host)
  | .prompt => domains

/-- `Policy::compiled_network_domains`. -/
def compiledNetworkDomains (networkRules : List NetworkRule) : List Text × List Text :=
  networkRules.foldl compileRule ([], [])

end Supercodex.ExecPolicy

/-!
# The compiled domains

The rules of a policy are a log of writes: a rule that allows or forbids writes its decision to its host, and a
rule that prompts writes nothing. Each compiled list holds the hosts with one last decision.
-/

namespace Supercodex.ExecPolicy

/-- What a rule decides for good. -/
def NetworkRule.settled (rule : NetworkRule) : Option Decision :=
  match rule.decision with
  | .allow => some .allow
  | .forbidden => some .forbidden
  | .prompt => none

/-- The decision of the last rule for a host that does not prompt. -/
def lastDecision (rules : List NetworkRule) (host : Text) : Option Decision :=
  LastWrites.lastValue NetworkRule.host NetworkRule.settled rules host

/-- The last rule with this decision for a host is the one at `i`. -/
def LastPlacedAt (decision : Decision) (rules : List NetworkRule) (host : Text) (i : ℕ) : Prop :=
  LastWrites.LastAt NetworkRule.host NetworkRule.settled decision rules host i

lemma compileRule_eq (domains : List Text × List Text) (rule : NetworkRule) :
    compileRule domains rule =
      (LastWrites.write NetworkRule.host NetworkRule.settled .allow domains.1 rule,
        LastWrites.write NetworkRule.host NetworkRule.settled .forbidden domains.2 rule) := by
  unfold compileRule LastWrites.write NetworkRule.settled
  cases rule.decision with
  | allow | prompt | forbidden => rfl

lemma compiledNetworkDomains_eq (rules : List NetworkRule) :
    compiledNetworkDomains rules =
      (LastWrites.keysWith NetworkRule.host NetworkRule.settled .allow rules,
        LastWrites.keysWith NetworkRule.host NetworkRule.settled .forbidden rules) := by
  induction rules using List.reverseRecOn with
  | nil => rfl
  | append_singleton rules rule ih =>
    rw [compiledNetworkDomains, List.foldl_concat, LastWrites.keysWith_concat, LastWrites.keysWith_concat]
    show compileRule (compiledNetworkDomains rules) rule = _
    rw [ih, compileRule_eq]

/-- The compiled lists are duplicate-free and disjoint, the last rule that does not prompt decides where a host
is, and each list is in the order of the last rules that placed its hosts there. -/
theorem compiled_domains_last_decision (rules : List NetworkRule) :
    let (allowed, denied) := compiledNetworkDomains rules
    allowed.Nodup ∧ denied.Nodup ∧ allowed.Disjoint denied ∧
    (∀ host, host ∈ allowed ↔ lastDecision rules host = some .allow) ∧
    (∀ host, host ∈ denied ↔ lastDecision rules host = some .forbidden) ∧
    (allowed.Pairwise fun host host' =>
      ∃ i j, LastPlacedAt .allow rules host i ∧ LastPlacedAt .allow rules host' j ∧ i < j) ∧
    denied.Pairwise fun host host' =>
      ∃ i j, LastPlacedAt .forbidden rules host i ∧ LastPlacedAt .forbidden rules host' j ∧ i < j := by
  rw [compiledNetworkDomains_eq]
  have hne : Decision.allow ≠ .forbidden := by decide
  refine ⟨?_, ?_, ?_, ?_, ?_, ?_, ?_⟩
  · exact LastWrites.nodup_keysWith _ rules
  · exact LastWrites.nodup_keysWith _ rules
  · exact LastWrites.disjoint_keysWith hne rules
  · intro host
    exact LastWrites.mem_keysWith
  · intro host
    exact LastWrites.mem_keysWith
  · exact LastWrites.pairwise_keysWith _ rules
  · exact LastWrites.pairwise_keysWith _ rules

end Supercodex.ExecPolicy
