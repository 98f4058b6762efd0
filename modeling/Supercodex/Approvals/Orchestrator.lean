import Supercodex.Approvals.Requirement
import Supercodex.Library.Text
import Supercodex.NetworkApproval.Service
import Mathlib.Logic.Function.Basic

/-!
# Running a tool call (`core/src/tools/orchestrator.rs`, `core/src/tools/sandboxing.rs`)

A call of a tool runtime is approved, attempted in the sandbox that is selected for it and, where the sandbox
denies it, attempted once more without one. The calls of a session share the approvals that users gave for the
session. A step is one answer from outside (the hooks, the guardian, the user, the attempt) or one look at the
shared approvals, and the calls take their steps in any order.
-/

namespace Supercodex.Approvals

open ExecPolicy Permissions
open NetworkApproval (NetworkApprovalProtocol PermissionRequestDecision NetworkPolicyRuleAction ReviewDecision
  guardianTimeoutMessage)

/-! ## Sandboxes -/

/-- The operating system that the program is built for. -/
inductive TargetOs where
  | macos
  | linux
  | windows
  | other
deriving DecidableEq

/-- `SandboxType`. -/
inductive SandboxType where
  | none
  | macosSeatbelt
  | linuxSeccomp
  | windowsRestrictedToken
deriving DecidableEq

/-- `get_platform_sandbox`. -/
def getPlatformSandbox (os : TargetOs) (windowsSandboxEnabled : Bool) : Option SandboxType :=
  match os with
  | .macos => some .macosSeatbelt
  | .linux => some .linuxSeccomp
  | .windows => if windowsSandboxEnabled then some .windowsRestrictedToken else none
  | .other => none

/-- `should_require_platform_sandbox`. -/
def shouldRequirePlatformSandbox (fileSystemPolicy : FileSystemSandboxPolicy)
    (networkPolicy : NetworkSandboxPolicy) (hasManagedNetworkRequirements : Bool) : Bool :=
  if hasManagedNetworkRequirements then true
  else if networkPolicy ≠ .enabled then fileSystemPolicy.kind ≠ .externalSandbox
  else match fileSystemPolicy.kind with
    | .restricted => !fileSystemPolicy.hasFullDiskWriteAccess
    | .unrestricted | .externalSandbox => false

/-- What a call reads of the `TurnContext`. -/
structure TurnContext where
  approvalPolicy : AskForApproval
  /-- Is `approvals_reviewer` the automatic one? -/
  autoReview : Bool
  fileSystemSandboxPolicy : FileSystemSandboxPolicy
  networkSandboxPolicy : NetworkSandboxPolicy
  /-- Is the network managed by a proxy? -/
  network : Bool
  windowsSandboxEnabled : Bool

/-- `SandboxManager::select_initial`; all runtimes prefer `Auto`. -/
def selectInitial (os : TargetOs) (turn : TurnContext) : SandboxType :=
  if shouldRequirePlatformSandbox turn.fileSystemSandboxPolicy turn.networkSandboxPolicy turn.network then
    (getPlatformSandbox os turn.windowsSandboxEnabled).getD .none
  else .none

/-- `routes_approval_to_guardian`. -/
def routesApprovalToGuardian (turn : TurnContext) : Bool :=
  turn.autoReview && match turn.approvalPolicy with
    | .onRequest | .granular _ => true
    | _ => false

/-- `default_exec_approval_requirement`. -/
def defaultExecApprovalRequirement (policy : AskForApproval)
    (fileSystemSandboxPolicy : FileSystemSandboxPolicy) : ExecApprovalRequirement :=
  let needsApproval : Bool := match policy with
    | .never | .onFailure => false
    | .onRequest | .granular _ => fileSystemSandboxPolicy.kind = .restricted
    | .unlessTrusted => true
  let rejected : Bool := match policy with
    | .granular config => !config.sandboxApproval
    | _ => false
  if needsApproval && rejected then
    .forbidden "approval policy disallowed sandbox approval prompt".toList
  else if needsApproval then .needsApproval none none
  else .skip false none

/-! ## Denials by the network policy -/

/-- `NetworkPolicyDecision`. -/
inductive NetworkPolicyDecision where
  | deny
  | ask
deriving DecidableEq

/-- `NetworkDecisionSource`. -/
inductive NetworkDecisionSource where
  | baselinePolicy
  | modeGuard
  | proxyState
  | decider
deriving DecidableEq

/-- What is read of a `NetworkPolicyDecisionPayload`. -/
structure NetworkPolicyDecisionPayload where
  decision : NetworkPolicyDecision
  source : NetworkDecisionSource
  protocol : Option NetworkApprovalProtocol
  host : Option Text
deriving DecidableEq

/-- `NetworkPolicyDecisionPayload::is_ask_from_decider`. -/
def NetworkPolicyDecisionPayload.isAskFromDecider (payload : NetworkPolicyDecisionPayload) : Bool :=
  payload.decision = .ask && payload.source = .decider

/-- `NetworkApprovalContext`. -/
structure NetworkApprovalContext where
  host : Text
  protocol : NetworkApprovalProtocol
deriving DecidableEq

/-- `network_approval_context_from_payload`. -/
def networkApprovalContextFromPayload (payload : NetworkPolicyDecisionPayload) :
    Option NetworkApprovalContext :=
  if !payload.isAskFromDecider then none
  else do
    let protocol ← payload.protocol
    let host := Text.trim (← payload.host)
    if host = [] then none else some ⟨host, protocol⟩

/-! ## Tool runtimes -/

/-- The runtimes whose calls are orchestrated. -/
inductive ToolRuntime where
  | shell
  | unifiedExec
  | applyPatch
deriving DecidableEq

/-- What the orchestrator reads of a `ShellRequest`, `UnifiedExecRequest` or `ApplyPatchRequest`, with the
approval keys of the request. -/
structure ToolRequest (Key : Type) where
  runtime : ToolRuntime
  approvalKeys : List Key
  execApprovalRequirement : ExecApprovalRequirement
  /-- Read of commands only. -/
  sandboxPermissions : SandboxPermissions
  /-- Read of patches only. -/
  permissionsPreapproved : Bool
deriving DecidableEq

/-- What the handlers of commands read of a call: the command, what is asked for with it, and the permissions
that apply to it, if any, with whether those granted before cover them. -/
structure CommandCall (Key : Type) where
  command : List Text
  sandboxPolicy : SandboxPolicy
  sandboxPermissions : SandboxPermissions
  grantedPermissions : Option Bool
  prefixRule : Option (List Text)
  approvalKeys : List Key

/-- `apply_granted_turn_permissions`: the permissions of the sandbox, and whether they are approved already. -/
def applyGrantedTurnPermissions (sandboxPermissions : SandboxPermissions) (grantedPermissions : Option Bool) :
    SandboxPermissions × Bool :=
  if sandboxPermissions = .requireEscalated then (sandboxPermissions, false)
  else match grantedPermissions with
    | some permissionsPreapproved => (.withAdditionalPermissions, permissionsPreapproved)
    | none => (sandboxPermissions, false)

/-- The `ExecApprovalRequest` of the handlers. Permissions that are approved already are not asked for again. -/
def CommandCall.execApprovalRequest {Key : Type} (turn : TurnContext) (call : CommandCall Key) :
    ExecApprovalRequest :=
  let (sandboxPermissions, permissionsPreapproved) :=
    applyGrantedTurnPermissions call.sandboxPermissions call.grantedPermissions
  { command := call.command
    approvalPolicy := turn.approvalPolicy
    sandboxPolicy := call.sandboxPolicy
    fileSystemSandboxPolicy := turn.fileSystemSandboxPolicy
    sandboxPermissions := if permissionsPreapproved then .useDefault else sandboxPermissions
    prefixRule := call.prefixRule }

/-- The request that the handlers of `shell` and `unified_exec` make of a call; none where they reject it. -/
def CommandCall.toolRequest {Key : Type} (platform : Platform) (execPolicy : Policy) (turn : TurnContext)
    (runtime : ToolRuntime) (call : CommandCall Key) : Option (ToolRequest Key) :=
  let (sandboxPermissions, permissionsPreapproved) :=
    applyGrantedTurnPermissions call.sandboxPermissions call.grantedPermissions
  if sandboxPermissions.requestsSandboxOverride && !permissionsPreapproved &&
    turn.approvalPolicy ≠ .onRequest then none
  else some {
    runtime
    approvalKeys := call.approvalKeys
    execApprovalRequirement :=
      createExecApprovalRequirementForCommand platform execPolicy (call.execApprovalRequest turn)
    sandboxPermissions
    permissionsPreapproved }

/-- `SandboxOverride`. -/
inductive SandboxOverride where
  | noOverride
  | bypassSandboxFirstAttempt
deriving DecidableEq

/-- `sandbox_override_for_first_attempt`. -/
def sandboxOverrideForFirstAttempt (sandboxPermissions : SandboxPermissions)
    (execApprovalRequirement : ExecApprovalRequirement) : SandboxOverride :=
  let allowedByPolicy := match execApprovalRequirement with
    | .skip true _ => true
    | _ => false
  if sandboxPermissions.requiresEscalatedPermissions || allowedByPolicy then .bypassSandboxFirstAttempt
  else .noOverride

section

variable {Key : Type}

/-- `sandbox_mode_for_first_attempt`. -/
def ToolRequest.sandboxModeForFirstAttempt (request : ToolRequest Key) : SandboxOverride :=
  match request.runtime with
  | .shell | .unifiedExec =>
    sandboxOverrideForFirstAttempt request.sandboxPermissions request.execApprovalRequirement
  | .applyPatch => .noOverride

/-- `wants_no_sandbox_approval`. -/
def ToolRuntime.wantsNoSandboxApproval (runtime : ToolRuntime) (policy : AskForApproval) : Bool :=
  match policy with
  | .onFailure | .unlessTrusted => true
  | .never => false
  | .onRequest => runtime = .applyPatch
  | .granular config => config.sandboxApproval

/-- `should_bypass_approval`. -/
def shouldBypassApproval (policy : AskForApproval) (alreadyApproved : Bool) : Bool :=
  if alreadyApproved then true else policy = .never

/-! ## The approvals of the session -/

/-- `ApprovalStore`, by serialized keys. -/
abbrev ApprovalStore := Text → Option ReviewDecision

variable (serialize : Key → Option Text)

/-- `ApprovalStore::get`. -/
def ApprovalStore.get (store : ApprovalStore) (key : Key) : Option ReviewDecision :=
  (serialize key).bind store

/-- `ApprovalStore::put`. -/
def ApprovalStore.put (store : ApprovalStore) (key : Key) (value : ReviewDecision) : ApprovalStore :=
  match serialize key with
  | some s => Function.update store s (some value)
  | none => store

/-- Are all keys approved for the session? -/
def ApprovalStore.approves (store : ApprovalStore) (keys : List Key) : Bool :=
  keys.all fun key => store.get serialize key = some .approvedForSession

/-- The approvals after the user's decision about a request with these keys. -/
def ApprovalStore.record (store : ApprovalStore) (keys : List Key) (decision : ReviewDecision) :
    ApprovalStore :=
  if decision = .approvedForSession then
    keys.foldl (fun store key => store.put serialize key .approvedForSession) store
  else store

/-! ## Calls -/

/-- What an approval is requested for: the first attempt, or another one after a denial. -/
inductive Stage where
  | first (retryReason : Option Text)
  | retry (retryReason : Text) (networkApprovalContext : Option NetworkApprovalContext)
deriving DecidableEq

/-- The `retry_reason` of the `ApprovalCtx`. -/
def Stage.retryReason : Stage → Option Text
  | first retryReason => retryReason
  | retry retryReason _ => some retryReason

/-- The first attempt, or the one without a sandbox. -/
inductive Attempt where
  | initial
  | escalated
deriving DecidableEq

/-- How an attempt ends. -/
inductive AttemptResult where
  | ok
  | sandboxDenied (networkPolicyDecision : Option NetworkPolicyDecisionPayload)
  | otherError
deriving DecidableEq

/-- How a call ends. -/
inductive CallResult where
  | attempted (result : AttemptResult)
  | rejected (reason : Text)
deriving DecidableEq

/-- What a call waits for. -/
inductive Phase where
  | hooks (stage : Stage)
  | guardian (stage : Stage)
  | cache (stage : Stage)
  /-- `recorded`: an approval for the session is kept. -/
  | user (stage : Stage) (recorded : Bool)
  | attempting (attempt : Attempt) (sandbox : SandboxType)
  | finished (result : CallResult)
deriving DecidableEq

/-- What does not change during a call. -/
structure CallContext (Key : Type) where
  request : ToolRequest Key
  turn : TurnContext
  strictAutoReview : Bool

/-- A call of `ToolOrchestrator::run`. -/
structure Call (Key : Type) extends CallContext Key where
  alreadyApproved : Bool
  phase : Phase

/-- Are approvals left to the guardian? -/
def CallContext.useGuardian (context : CallContext Key) : Bool :=
  routesApprovalToGuardian context.turn || context.strictAutoReview

/-- `reject_if_not_approved`: why an attempt is not approved. -/
def rejectIfNotApproved (guardian : Bool) (rejectionMessage : Text) : ReviewDecision → Option Text
  | .denied | .abort => some (if guardian then rejectionMessage else "rejected by user".toList)
  | .timedOut => some guardianTimeoutMessage
  | .approved | .approvedExecpolicyAmendment | .approvedForSession => none
  | .networkPolicyAmendment .allow => none
  | .networkPolicyAmendment .deny => some "rejected by user".toList

variable (os : TargetOs)

/-- The sandbox of the first attempt. -/
def CallContext.initialSandbox (context : CallContext Key) : SandboxType :=
  match context.request.sandboxModeForFirstAttempt with
  | .bypassSandboxFirstAttempt => .none
  | .noOverride => selectInitial os context.turn

namespace Call

/-- The call waits for something else. -/
def goTo (call : Call Key) (phase : Phase) : Call Key := { call with phase := phase }

/-- The attempt that was approved. -/
def proceed (call : Call Key) : Stage → Call Key
  | .first _ => { call with
      alreadyApproved := true
      phase := .attempting .initial (call.initialSandbox os) }
  | .retry .. => call.goTo (.attempting .escalated .none)

/-- What follows a decision about an approval. -/
def decided (call : Call Key) (stage : Stage) (decision : ReviewDecision) (rejectionMessage : Text) :
    Call Key :=
  match rejectIfNotApproved call.useGuardian rejectionMessage decision with
  | some reason => call.goTo (.finished (.rejected reason))
  | none => call.proceed os stage

/-- `with_cached_approval`, as far as the first look. -/
def withCachedApproval (call : Call Key) (stage : Stage) : Call Key :=
  if call.request.approvalKeys = [] then call.goTo (.user stage false) else call.goTo (.cache stage)

/-- `start_approval_async`. -/
def startApproval (call : Call Key) (stage : Stage) : Call Key :=
  if call.useGuardian then call.goTo (.guardian stage)
  else match call.request.runtime with
    | .shell | .unifiedExec => call.withCachedApproval stage
    | .applyPatch =>
      if call.request.permissionsPreapproved && stage.retryReason.isNone then
        call.decided os stage .approved []
      else if stage.retryReason.isSome then call.goTo (.user stage false)
      else call.withCachedApproval stage

/-- `request_approval`; every runtime has a payload for the hooks. -/
def requestApproval (call : Call Key) (stage : Stage) (evaluatePermissionRequestHooks : Bool) : Call Key :=
  if evaluatePermissionRequestHooks then call.goTo (.hooks stage) else call.startApproval os stage

/-- How a call begins. -/
def run (context : CallContext Key) : Call Key :=
  let call : Call Key := ⟨context, false, .attempting .initial (context.initialSandbox os)⟩
  match context.request.execApprovalRequirement with
  | .skip .. =>
    if context.strictAutoReview then call.requestApproval os (.first none) false else call
  | .forbidden reason => call.goTo (.finished (.rejected reason))
  | .needsApproval reason _ => call.requestApproval os (.first reason) (!context.strictAutoReview)

/-- Why another attempt is requested after a denial by the sandbox, and for which network access; none where the
denial stands. -/
def escalation (context : CallContext Key) (networkPolicyDecision : Option NetworkPolicyDecisionPayload) :
    Option (Text × Option NetworkApprovalContext) :=
  let networkApprovalContext :=
    if context.turn.network then networkPolicyDecision.bind networkApprovalContextFromPayload else none
  let allowOnRequestNetworkPrompt := context.turn.approvalPolicy = .onRequest &&
    networkApprovalContext.isSome &&
    match defaultExecApprovalRequirement context.turn.approvalPolicy context.turn.fileSystemSandboxPolicy with
    | .needsApproval .. => true
    | _ => false
  if networkPolicyDecision.isSome && networkApprovalContext.isNone then none
  else if !context.request.runtime.wantsNoSandboxApproval context.turn.approvalPolicy &&
    !allowOnRequestNetworkPrompt then none
  else some (match networkApprovalContext with
    | some context => "Network access to \"".toList ++ context.host ++ "\" is blocked by policy.".toList
    | none => "command failed; retry without sandbox?".toList, networkApprovalContext)

/-- What follows the first attempt. -/
def afterInitial (call : Call Key) (result : AttemptResult) : Call Key :=
  match result with
  | .sandboxDenied networkPolicyDecision =>
    match escalation call.toCallContext networkPolicyDecision with
    | none => call.goTo (.finished (.attempted result))
    | some (retryReason, networkApprovalContext) =>
      if !call.strictAutoReview && shouldBypassApproval call.turn.approvalPolicy call.alreadyApproved &&
        networkApprovalContext.isNone then call.proceed os (.retry retryReason networkApprovalContext)
      else call.requestApproval os (.retry retryReason networkApprovalContext) (!call.strictAutoReview)
  | _ => call.goTo (.finished (.attempted result))

end Call

/-- What a call is told. -/
inductive Event where
  | hooksDecided (decision : Option PermissionRequestDecision)
  /-- The guardian's decision, and the message of its rejection. -/
  | guardianDecided (decision : ReviewDecision) (rejectionMessage : Text)
  | cacheChecked
  | userDecided (decision : ReviewDecision)
  | attempted (result : AttemptResult)
deriving DecidableEq

/-- One step of a call, with the shared approvals. -/
def Call.step (store : ApprovalStore) (call : Call Key) (event : Event) : Option (ApprovalStore × Call Key) :=
  match call.phase, event with
  | .hooks stage, .hooksDecided decision =>
    some (store, match decision with
      | some .allow => call.decided os stage .approved []
      | some (.deny message) => call.goTo (.finished (.rejected message))
      | none => call.startApproval os stage)
  | .guardian stage, .guardianDecided decision rejectionMessage =>
    some (store, call.decided os stage decision rejectionMessage)
  | .cache stage, .cacheChecked =>
    some (store, if store.approves serialize call.request.approvalKeys then
        call.decided os stage .approvedForSession []
      else call.goTo (.user stage true))
  | .user stage recorded, .userDecided decision =>
    some (if recorded then store.record serialize call.request.approvalKeys decision else store,
      call.decided os stage decision [])
  | .attempting .initial _, .attempted result => some (store, call.afterInitial os result)
  | .attempting .escalated _, .attempted result =>
    some (store, call.goTo (.finished (.attempted result)))
  | _, _ => none

/-! ## Sessions -/

variable {Id : Type} [DecidableEq Id]

/-- The calls of a session and the approvals they share. -/
structure Session (Id Key : Type) where
  toolApprovals : ApprovalStore
  calls : Id → Option (Call Key)

/-- A session without calls. -/
def Session.new : Session Id Key := ⟨fun _ => none, fun _ => none⟩

/-- What happens in a session. -/
inductive Action (Id Key : Type) where
  | run (id : Id) (context : CallContext Key)
  | tell (id : Id) (event : Event)

/-- One step of a session. -/
def Session.step (session : Session Id Key) (action : Action Id Key) : Option (Session Id Key) :=
  match action with
  | .run id context =>
    match session.calls id with
    | none => some ⟨session.toolApprovals, Function.update session.calls id (some (Call.run os context))⟩
    | some _ => none
  | .tell id event => do
    let call ← session.calls id
    let (store, call) ← call.step serialize os session.toolApprovals event
    some ⟨store, Function.update session.calls id (some call)⟩

end

end Supercodex.Approvals
