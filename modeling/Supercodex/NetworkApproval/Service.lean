import Mathlib.Data.Finset.Basic
import Supercodex.Library.Runs
import Supercodex.NetworkProxy.Policy
import Supercodex.Permissions.Legacy

/-!
# Network approvals (`core/src/tools/network_approval.rs`)

A sandboxed command that reaches for a host outside the allowlist makes a call of
`handle_inline_policy_request`. The calls of one session share five tables, each behind a lock of its
own. A step is one section under a lock, or one answer from outside (the turn, the hooks, the review),
and the calls take their steps in any order. No call is cancelled.

The pending approval that a call creates is known by the number of the call.
-/

namespace Supercodex.NetworkApproval

open NetworkProxy Permissions Runs

/-- `NetworkProtocol`, as `NetworkApprovalProtocol` keeps it. -/
inductive NetworkApprovalProtocol where
  | http
  | https
  | socks5Tcp
  | socks5Udp
deriving DecidableEq

/-- What a call reads of a `NetworkPolicyRequest`. -/
structure NetworkPolicyRequest where
  protocol : NetworkApprovalProtocol
  host : Text
  port : UInt16
deriving DecidableEq

/-- `protocol_key_label`. -/
def protocolKeyLabel : NetworkApprovalProtocol → Text
  | .http => "http".toList
  | .https => "https".toList
  | .socks5Tcp => "socks5-tcp".toList
  | .socks5Udp => "socks5-udp".toList

/-- `HostApprovalKey`. -/
structure HostApprovalKey where
  host : Text
  protocol : Text
  port : UInt16
deriving DecidableEq

/-- `HostApprovalKey::from_request`. -/
def NetworkPolicyRequest.key (request : NetworkPolicyRequest) : HostApprovalKey :=
  ⟨toAsciiLowercase request.host, protocolKeyLabel request.protocol, request.port⟩

/-- `NetworkDecision`, whose denials here all come from the decider. -/
inductive NetworkDecision where
  | allow
  | deny (reason : Text)
deriving DecidableEq

/-- `NetworkDecision::deny(REASON_NOT_ALLOWED)`. -/
def NetworkDecision.notAllowed : NetworkDecision := .deny "not_allowed".toList

/-- `PendingApprovalDecision`. -/
inductive PendingApprovalDecision where
  | allowOnce
  | allowForSession
  | deny
deriving DecidableEq

/-- `PendingApprovalDecision::to_network_decision`. -/
def PendingApprovalDecision.toNetworkDecision : PendingApprovalDecision → NetworkDecision
  | allowOnce | allowForSession => .allow
  | deny => .notAllowed

/-- `NetworkApprovalOutcome`. -/
inductive NetworkApprovalOutcome where
  | deniedByUser
  | deniedByPolicy (message : Text)
deriving DecidableEq

/-- `AskForApproval`. -/
inductive AskForApproval where
  | unlessTrusted
  | onFailure
  | onRequest
  | granular
  | never
deriving DecidableEq

/-- What a call reads of the `TurnContext`. -/
structure TurnContext where
  sandboxPolicy : SandboxPolicy
  approvalPolicy : AskForApproval
  /-- Is `approvals_reviewer` the automatic one? -/
  autoReview : Bool
deriving DecidableEq

/-- `allows_network_approval_flow`. -/
def allowsNetworkApprovalFlow (policy : AskForApproval) : Bool := policy != .never

/-- `sandbox_policy_allows_network_approval_flow`. -/
def sandboxPolicyAllowsNetworkApprovalFlow : SandboxPolicy → Bool
  | .readOnly .. | .workspaceWrite .. => true
  | _ => false

/-- `routes_approval_to_guardian`. -/
def routesApprovalToGuardian (turn : TurnContext) : Bool :=
  (turn.approvalPolicy == .onRequest || turn.approvalPolicy == .granular) && turn.autoReview

/-- `PermissionRequestDecision`. -/
inductive PermissionRequestDecision where
  | allow
  | deny (message : Text)
deriving DecidableEq

/-- `NetworkPolicyRuleAction`. -/
inductive NetworkPolicyRuleAction where
  | allow
  | deny
deriving DecidableEq

/-- `ReviewDecision`. -/
inductive ReviewDecision where
  | approved
  | approvedExecpolicyAmendment
  | approvedForSession
  | networkPolicyAmendment (action : NetworkPolicyRuleAction)
  | denied
  | timedOut
  | abort
deriving DecidableEq

/-- `ActiveNetworkApprovalCall`. -/
structure ActiveNetworkApprovalCall where
  registrationId : Text
  turnId : Text
  command : Text
deriving DecidableEq

/-- `guardian_timeout_message`. -/
def guardianTimeoutMessage : Text :=
  ("The automatic permission approval review did not finish before its deadline. " ++
    "Do not assume the action is unsafe based on the timeout alone. " ++
    "You may retry once, or ask the user for guidance or explicit approval.").toList

/-- `format_network_target`. -/
def formatNetworkTarget (protocol host : Text) (port : UInt16) : Text :=
  protocol ++ "://".toList ++ host ++ ":".toList ++ Nat.toDigits 10 port.toNat

/-- The message of a request that no review may allow. -/
def policyDenialMessage (request : NetworkPolicyRequest) : Text :=
  "Network access to \"".toList ++
    formatNetworkTarget request.key.protocol request.host request.key.port ++
    "\" was blocked by policy.".toList

/-! ## What the owner of a pending approval decides -/

/-- The values of `resolved` and `cache_session_deny`. -/
structure Verdict where
  resolved : PendingApprovalDecision
  cacheSessionDeny : Bool
  denies : cacheSessionDeny = true → resolved = .deny
deriving DecidableEq

namespace Verdict

/-- A decision that no table of the session keeps as a denial. -/
def uncached (resolved : PendingApprovalDecision) : Verdict := ⟨resolved, false, by simp⟩

/-- A denial for the session. -/
def denyForSession : Verdict := ⟨.deny, true, fun _ => rfl⟩

end Verdict

/-- The verdict of a review. -/
def ReviewDecision.verdict : ReviewDecision → Verdict
  | approved | approvedExecpolicyAmendment => .uncached .allowOnce
  | approvedForSession | networkPolicyAmendment .allow => .uncached .allowForSession
  | networkPolicyAmendment .deny => .denyForSession
  | denied | abort | timedOut => .uncached .deny

/-- The outcome that a review leaves for the call that it is about. -/
def ReviewDecision.outcome (guardian : Bool) (rejectionMessage : Text) :
    ReviewDecision → Option NetworkApprovalOutcome
  | networkPolicyAmendment .deny => some .deniedByUser
  | denied | abort => some (if guardian then .deniedByPolicy rejectionMessage else .deniedByUser)
  | timedOut => some (.deniedByPolicy guardianTimeoutMessage)
  | _ => none

/-- The verdict of a hook. -/
def PermissionRequestDecision.verdict : PermissionRequestDecision → Verdict
  | allow => .uncached .allowOnce
  | deny _ => .uncached .deny

/-- The outcome that a hook leaves for the call that it is about. -/
def PermissionRequestDecision.outcome : PermissionRequestDecision → Option NetworkApprovalOutcome
  | allow => none
  | deny message => some (.deniedByPolicy message)

/-- May this turn ask for a review? -/
def reviewable : Option TurnContext → Bool
  | none => false
  | some turn => sandboxPolicyAllowsNetworkApprovalFlow turn.sandboxPolicy &&
      allowsNetworkApprovalFlow turn.approvalPolicy

/-! ## Calls -/

/-- A call of `handle_inline_policy_request`. -/
abbrev CallId := ℕ

/-- Where a call is: before the section that the name tells. -/
inductive Phase where
  | checkingDenied
  | checkingApproved
  /-- Before `get_or_create_pending_approval`. -/
  | creating
  /-- In `wait_for_decision` on the approval of another call. -/
  | waiting (owner : CallId)
  /-- In `active_turn_context`. -/
  | readingTurn
  /-- Before `resolve_single_active_call`. -/
  | resolvingOwner (turn : TurnContext)
  /-- In `run_permission_request_hooks`. -/
  | runningHooks (turn : TurnContext) (ownerCall : Option ActiveNetworkApprovalCall)
  /-- In `review_approval_request` or `request_command_approval`. -/
  | prompting (guardian : Bool) (ownerCall : Option ActiveNetworkApprovalCall)
  /-- Before `record_call_outcome`. -/
  | recording (registrationId : Text) (outcome : NetworkApprovalOutcome) (verdict : Verdict)
  /-- Before `denied_hosts.remove`. -/
  | forgettingDenial (verdict : Verdict)
  /-- Before `approved_hosts.insert`. -/
  | approving (verdict : Verdict)
  /-- Before `approved_hosts.remove`. -/
  | forgettingApproval (verdict : Verdict)
  /-- Before `denied_hosts.insert`. -/
  | denying (verdict : Verdict)
  /-- Before `set_decision`; a message is recorded later for a request blocked by policy. -/
  | deciding (verdict : Verdict) (blocked : Option Text)
  /-- Before the pending approval is removed. -/
  | removing (verdict : Verdict) (blocked : Option Text)
  /-- Before `resolve_single_active_call` of a request blocked by policy. -/
  | resolvingBlocked (message : Text)
  /-- Before `record_call_outcome` of a request blocked by policy. -/
  | recordingBlocked (registrationId message : Text)
  | returned (decision : NetworkDecision)
deriving DecidableEq

/-- A call, with its request. -/
structure Call where
  request : NetworkPolicyRequest
  phase : Phase
deriving DecidableEq

namespace Phase

/-- The code after the block for `AllowForSession`. -/
def settleDenial (verdict : Verdict) : Phase :=
  if verdict.cacheSessionDeny then .forgettingApproval verdict else .deciding verdict none

/-- The code after the review. -/
def settle (verdict : Verdict) : Phase :=
  if verdict.resolved = .allowForSession then .forgettingDenial verdict else settleDenial verdict

/-- The code after a hook or a review has answered. -/
def answered (ownerCall : Option ActiveNetworkApprovalCall) (outcome : Option NetworkApprovalOutcome)
    (verdict : Verdict) : Phase :=
  match ownerCall, outcome with
  | some call, some outcome => .recording call.registrationId outcome verdict
  | _, _ => settle verdict

/-- The code after the pending approval is removed. -/
def finish (verdict : Verdict) : Option Text → Phase
  | some message => .resolvingBlocked message
  | none => .returned verdict.resolved.toNetworkDecision

end Phase

/-- `NetworkApprovalService`, with the calls and with what their approvals hold. -/
structure Service where
  activeCalls : List ActiveNetworkApprovalCall
  callOutcomes : Text → Option NetworkApprovalOutcome
  pendingHostApprovals : HostApprovalKey → Option CallId
  sessionApprovedHosts : Finset HostApprovalKey
  sessionDeniedHosts : Finset HostApprovalKey
  /-- `PendingHostApproval::decision`, of the approval that a call has created. -/
  decisions : CallId → Option PendingApprovalDecision
  calls : CallId → Option Call

/-- A step. -/
inductive Action where
  /-- A call begins. -/
  | start (request : NetworkPolicyRequest)
  /-- The next section of a call. -/
  | step
  /-- The answer of `active_turn_context`. -/
  | turn (context : Option TurnContext)
  /-- The answer of the hooks. -/
  | hooks (decision : Option PermissionRequestDecision)
  /-- The answer of the review, and the message of the guardian's rejection. -/
  | review (decision : ReviewDecision) (rejectionMessage : Text)
  /-- `register_call`, by a tool. -/
  | register (call : ActiveNetworkApprovalCall)
  /-- The first section of `unregister_call`. -/
  | unregister (registrationId : Text)
  /-- `take_call_outcome`, and the second section of `unregister_call`. -/
  | takeOutcome (registrationId : Text)

/-- A step, with the call that takes it. -/
structure Label where
  call : CallId
  action : Action

namespace Service

/-- `NetworkApprovalService::default`. -/
def default : Service where
  activeCalls := []
  callOutcomes := fun _ => none
  pendingHostApprovals := fun _ => none
  sessionApprovedHosts := ∅
  sessionDeniedHosts := ∅
  decisions := fun _ => none
  calls := fun _ => none

/-- `register_call`. -/
def registerCall (s : Service) (call : ActiveNetworkApprovalCall) : Service :=
  if s.activeCalls.any fun other => other.registrationId = call.registrationId then
    { s with activeCalls := s.activeCalls.map fun other =>
        if other.registrationId = call.registrationId then call else other }
  else { s with activeCalls := s.activeCalls ++ [call] }

/-- `resolve_single_active_call`. -/
def resolveSingleActiveCall (s : Service) : Option ActiveNetworkApprovalCall :=
  match s.activeCalls with
  | [call] => some call
  | _ => none

/-- `record_call_outcome`. -/
def recordCallOutcome (s : Service) (registrationId : Text) (outcome : NetworkApprovalOutcome) :
    Service :=
  if s.callOutcomes registrationId = some .deniedByUser then s
  else { s with callOutcomes := Function.update s.callOutcomes registrationId (some outcome) }

/-- A call goes on. -/
def goto (s : Service) (c : CallId) (request : NetworkPolicyRequest) (phase : Phase) : Service :=
  { s with calls := Function.update s.calls c (some ⟨request, phase⟩) }

/-- `get_or_create_pending_approval`, and what the call does with its answer. -/
def getOrCreatePendingApproval (s : Service) (c : CallId) (request : NetworkPolicyRequest) : Service :=
  match s.pendingHostApprovals request.key with
  | some owner => s.goto c request (.waiting owner)
  | none =>
    { s with
      pendingHostApprovals := Function.update s.pendingHostApprovals request.key (some c)
      decisions := Function.update s.decisions c none }.goto c request .readingTurn

/-- The next section of a call. There is none while it waits for an answer. -/
def proceed (s : Service) (c : CallId) (request : NetworkPolicyRequest) : Phase → Option Service
  | .checkingDenied =>
    some (s.goto c request
      (if request.key ∈ s.sessionDeniedHosts then .returned .notAllowed else .checkingApproved))
  | .checkingApproved =>
    some (s.goto c request
      (if request.key ∈ s.sessionApprovedHosts then .returned .allow else .creating))
  | .creating => some (s.getOrCreatePendingApproval c request)
  | .waiting owner =>
    (s.decisions owner).map fun decision => s.goto c request (.returned decision.toNetworkDecision)
  | .resolvingOwner turn =>
    some (s.goto c request (.runningHooks turn s.resolveSingleActiveCall))
  | .recording registrationId outcome verdict =>
    some ((s.recordCallOutcome registrationId outcome).goto c request (.settle verdict))
  | .forgettingDenial verdict =>
    some ({ s with sessionDeniedHosts := s.sessionDeniedHosts.erase request.key }.goto c request
      (.approving verdict))
  | .approving verdict =>
    some ({ s with sessionApprovedHosts := insert request.key s.sessionApprovedHosts }.goto c request
      (.settleDenial verdict))
  | .forgettingApproval verdict =>
    some ({ s with sessionApprovedHosts := s.sessionApprovedHosts.erase request.key }.goto c request
      (.denying verdict))
  | .denying verdict =>
    some ({ s with sessionDeniedHosts := insert request.key s.sessionDeniedHosts }.goto c request
      (.deciding verdict none))
  | .deciding verdict blocked =>
    some ({ s with decisions := Function.update s.decisions c (some verdict.resolved) }.goto c request
      (.removing verdict blocked))
  | .removing verdict blocked =>
    some ({ s with
      pendingHostApprovals := Function.update s.pendingHostApprovals request.key none }.goto c request
      (.finish verdict blocked))
  | .resolvingBlocked message =>
    some (s.goto c request (match s.resolveSingleActiveCall with
      | some owner => .recordingBlocked owner.registrationId message
      | none => .returned .notAllowed))
  | .recordingBlocked registrationId message =>
    some ((s.recordCallOutcome registrationId (.deniedByPolicy message)).goto c request
      (.returned .notAllowed))
  | .readingTurn | .runningHooks .. | .prompting .. | .returned _ => none

/-- What the answer of `active_turn_context` leads to. -/
def readTurn (request : NetworkPolicyRequest) (context : Option TurnContext) : Phase :=
  match context, reviewable context with
  | some turn, true => .resolvingOwner turn
  | _, _ => .deciding (.uncached .deny) (some (policyDenialMessage request))

/-- What the answer of the hooks leads to. -/
def readHooks (turn : TurnContext) (ownerCall : Option ActiveNetworkApprovalCall) :
    Option PermissionRequestDecision → Phase
  | some decision => .answered ownerCall decision.outcome decision.verdict
  | none => .prompting (routesApprovalToGuardian turn) ownerCall

/-- An answer from outside reaches a call. -/
def answer (s : Service) (c : CallId) (request : NetworkPolicyRequest) (phase : Phase) (action : Action) :
    Option Service :=
  match phase, action with
  | .readingTurn, .turn context => some (s.goto c request (readTurn request context))
  | .runningHooks turn ownerCall, .hooks decision =>
    some (s.goto c request (readHooks turn ownerCall decision))
  | .prompting guardian ownerCall, .review decision rejectionMessage =>
    some (s.goto c request
      (.answered ownerCall (decision.outcome guardian rejectionMessage) decision.verdict))
  | _, _ => none

/-- A step of a call that has begun. -/
def advance (s : Service) (c : CallId) (action : Action) : Option Service :=
  match s.calls c, action with
  | some call, .step => s.proceed c call.request call.phase
  | some call, action => s.answer c call.request call.phase action
  | none, _ => none

/-- A step of the system. -/
def next (s : Service) (l : Label) : Option Service :=
  match l.action with
  | .start request => if s.calls l.call = none then some (s.goto l.call request .checkingDenied) else none
  | .register call => some (s.registerCall call)
  | .unregister registrationId =>
    some { s with activeCalls :=
      s.activeCalls.filter fun other => other.registrationId ≠ registrationId }
  | .takeOutcome registrationId =>
    some { s with callOutcomes := Function.update s.callOutcomes registrationId none }
  | action => s.advance l.call action

end Service

/-- A step of the system, as a relation. -/
def Step (s : Service) (l : Label) (s' : Service) : Prop := s.next l = some s'

end Supercodex.NetworkApproval
