import Supercodex.Session.RolloutReconstruction
import Supercodex.Path.AbsolutePath

/-!
# Thread items (`app-server-protocol/src/protocol/v2.rs`, `item_builders.rs`)

The items that a client sees in a turn, and the builders that make them from the events of the core.
Values that no function here looks into (JSON values, citations, web search actions) are carried as
their text.
-/

namespace Supercodex.ThreadHistory

open History Supercodex.Path

/-! ## The parts of an item -/

/-- `UserInput`, as the history has it. -/
inductive UserInput where
  | text (text : Text) (textElements : List Text)
  | image (url : Text)
  | localImage (path : Text)
deriving DecidableEq

/-- `HookPromptFragment`. -/
structure HookPromptFragment where
  text : Text
  hookRunId : Text
deriving DecidableEq

/-- `CommandExecutionSource` (and the core's `ExecCommandSource`). -/
inductive CommandExecutionSource where
  | agent | userShell | unifiedExecStartup | unifiedExecInteraction
deriving DecidableEq

/-- `CommandExecutionStatus`. -/
inductive CommandExecutionStatus where
  | inProgress | completed | failed | declined
deriving DecidableEq

/-- The core's `ExecCommandStatus`. -/
inductive ExecCommandStatus where
  | completed | failed | declined
deriving DecidableEq

/-- `ParsedCommand`. -/
inductive ParsedCommand where
  | read (cmd name path : Text)
  | listFiles (cmd : Text) (path : Option Text)
  | search (cmd : Text) (query path : Option Text)
  | unknown (cmd : Text)
deriving DecidableEq

/-- `CommandAction`. -/
inductive CommandAction where
  | read (command name : Text) (path : AbsolutePath)
  | listFiles (command : Text) (path : Option Text)
  | search (command : Text) (query path : Option Text)
  | unknown (command : Text)
deriving DecidableEq

/-- `PatchApplyStatus`. -/
inductive PatchApplyStatus where
  | inProgress | completed | failed | declined
deriving DecidableEq

/-- The core's `PatchApplyStatus`. -/
inductive CorePatchApplyStatus where
  | completed | failed | declined
deriving DecidableEq

/-- `FileChange`. -/
inductive FileChange where
  | add (content : Text)
  | delete (content : Text)
  | update (unifiedDiff : Text) (movePath : Option Text)
deriving DecidableEq

/-- `PatchChangeKind`. -/
inductive PatchChangeKind where
  | add
  | delete
  | update (movePath : Option Text)
deriving DecidableEq

/-- `FileUpdateChange`. -/
structure FileUpdateChange where
  path : Text
  kind : PatchChangeKind
  diff : Text
deriving DecidableEq

/-- `McpToolCallStatus`, `DynamicToolCallStatus` and `CollabAgentToolCallStatus`. -/
inductive ToolCallStatus where
  | inProgress | completed | failed
deriving DecidableEq

/-- `McpToolCallResult`. -/
structure McpToolCallResult where
  content : List Text
  structuredContent : Option Text
  metadata : Option Text
deriving DecidableEq

/-- The core's `CallToolResult`. -/
structure CallToolResult where
  content : List Text
  structuredContent : Option Text
  isError : Option Bool
  metadata : Option Text
deriving DecidableEq

/-- `DynamicToolCallOutputContentItem`. -/
inductive DynamicToolCallOutputContentItem where
  | inputText (text : Text)
  | inputImage (imageUrl : Text)
deriving DecidableEq

/-- `CollabAgentTool`. -/
inductive CollabAgentTool where
  | spawnAgent | sendInput | resumeAgent | wait | closeAgent
deriving DecidableEq

/-- `AgentStatus`. -/
inductive AgentStatus where
  | pendingInit
  | running
  | interrupted
  | completed (message : Option Text)
  | errored (message : Text)
  | shutdown
  | notFound
deriving DecidableEq

/-- `CollabAgentStatus`. -/
inductive CollabAgentStatus where
  | pendingInit | running | interrupted | completed | errored | shutdown | notFound
deriving DecidableEq

/-- `CollabAgentState`. -/
structure CollabAgentState where
  status : CollabAgentStatus
  message : Option Text
deriving DecidableEq

/-! ## Items -/

/-- `ThreadItem`. -/
inductive ThreadItem where
  | userMessage (id : Text) (content : List UserInput)
  | hookPrompt (id : Text) (fragments : List HookPromptFragment)
  | agentMessage (id text : Text) (phase : Option MessagePhase) (memoryCitation : Option Text)
  | plan (id text : Text)
  | reasoning (id : Text) (summary content : List Text)
  | commandExecution (id command : Text) (cwd : AbsolutePath) (processId : Option Text)
      (source : CommandExecutionSource) (status : CommandExecutionStatus)
      (commandActions : List CommandAction) (aggregatedOutput : Option Text)
      (exitCode : Option ℤ) (durationMs : Option ℕ)
  | fileChange (id : Text) (changes : List FileUpdateChange) (status : PatchApplyStatus)
  | mcpToolCall (id server tool : Text) (status : ToolCallStatus) (arguments : Text)
      (mcpAppResourceUri : Option Text) (result : Option McpToolCallResult) (error : Option Text)
      (durationMs : Option ℕ)
  | dynamicToolCall (id : Text) (nameSpace : Option Text) (tool arguments : Text)
      (status : ToolCallStatus) (contentItems : Option (List DynamicToolCallOutputContentItem))
      (success : Option Bool) (durationMs : Option ℕ)
  | collabAgentToolCall (id : Text) (tool : CollabAgentTool) (status : ToolCallStatus)
      (senderThreadId : Text) (receiverThreadIds : List Text) (prompt model : Option Text)
      (reasoningEffort : Option Text) (agentsStates : List (Text × CollabAgentState))
  | webSearch (id query : Text) (action : Option Text)
  | imageView (id : Text) (path : AbsolutePath)
  | imageGeneration (id status : Text) (revisedPrompt : Option Text) (result : Text)
      (savedPath : Option AbsolutePath)
  | enteredReviewMode (id review : Text)
  | exitedReviewMode (id review : Text)
  | contextCompaction (id : Text)

/-- `ThreadItem::id`. -/
def ThreadItem.id : ThreadItem → Text
  | userMessage id _ | hookPrompt id _ | agentMessage id _ _ _ | plan id _ | reasoning id _ _
  | commandExecution id _ _ _ _ _ _ _ _ _ | fileChange id _ _
  | mcpToolCall id _ _ _ _ _ _ _ _ | dynamicToolCall id _ _ _ _ _ _ _
  | collabAgentToolCall id _ _ _ _ _ _ _ _ | webSearch id _ _ | imageView id _
  | imageGeneration id _ _ _ _ | enteredReviewMode id _ | exitedReviewMode id _
  | contextCompaction id => id

/-! ## Events that carry an item -/

/-- What the thread history relies on and other packages compute. -/
structure Externals where
  history : History.Externals
  /-- `shlex_join`. -/
  shlexJoin : List Text → Text
  /-- `parse_command`. -/
  parseCommand : List Text → List ParsedCommand
  /-- The home directory, which `AbsolutePathBuf::join` expands `~` to. -/
  home : Option AbsolutePath

/-- `ExecCommandBeginEvent`. -/
structure ExecCommandBeginEvent where
  callId : Text
  turnId : Text
  processId : Option Text
  command : List Text
  cwd : AbsolutePath
  parsedCmd : List ParsedCommand
  source : CommandExecutionSource

/-- `ExecCommandEndEvent`; the duration is in milliseconds. -/
structure ExecCommandEndEvent extends ExecCommandBeginEvent where
  aggregatedOutput : Text
  exitCode : ℤ
  duration : ℕ
  status : ExecCommandStatus

/-- `GuardianAssessmentStatus`. -/
inductive GuardianAssessmentStatus where
  | inProgress | approved | denied | timedOut | aborted
deriving DecidableEq

/-- `GuardianAssessmentAction`: the actions without an item are not told apart. -/
inductive GuardianAssessmentAction where
  | command (command : Text) (cwd : AbsolutePath)
  | execve (program : Text) (argv : List Text) (cwd : AbsolutePath)
  | applyPatch | networkAccess | mcpToolCall | requestPermissions

/-- `GuardianAssessmentEvent`. -/
structure GuardianAssessmentEvent where
  targetItemId : Option Text
  turnId : Text
  status : GuardianAssessmentStatus
  action : GuardianAssessmentAction

/-- `ApplyPatchApprovalRequestEvent` and `PatchApplyBeginEvent`. -/
structure PatchEvent where
  callId : Text
  turnId : Text
  changes : List (Text × FileChange)

/-- `DynamicToolCallRequest`. -/
structure DynamicToolCallRequest where
  callId : Text
  turnId : Text
  nameSpace : Option Text
  tool : Text
  arguments : Text

/-- `DynamicToolCallResponseEvent`. -/
structure DynamicToolCallResponseEvent extends DynamicToolCallRequest where
  contentItems : List DynamicToolCallOutputContentItem
  success : Bool
  duration : ℕ

/-- `McpToolCallBeginEvent`, with its invocation. -/
structure McpToolCallBeginEvent where
  callId : Text
  server : Text
  tool : Text
  arguments : Option Text
  mcpAppResourceUri : Option Text

/-- `McpToolCallEndEvent`. -/
structure McpToolCallEndEvent extends McpToolCallBeginEvent where
  duration : ℕ
  result : Except Text CallToolResult

/-! ## Builders -/

/-- `i64::MAX`. -/
def i64Max : ℕ := 2 ^ 63 - 1

/-- `i64::try_from(duration.as_millis()).ok()`. -/
def durationMs (duration : ℕ) : Option ℕ := if duration ≤ i64Max then some duration else none

/-- `CommandAction::from_core_with_cwd`. -/
def CommandAction.fromCoreWithCwd (deps : Externals) (cwd : AbsolutePath) :
    ParsedCommand → CommandAction
  | .read cmd name path => .read cmd name (resolvePathAgainstBase deps.home path cwd)
  | .listFiles cmd path => .listFiles cmd path
  | .search cmd query path => .search cmd query path
  | .unknown cmd => .unknown cmd

/-- `map_patch_change_kind`. -/
def mapPatchChangeKind : FileChange → PatchChangeKind
  | .add _ => .add
  | .delete _ => .delete
  | .update _ movePath => .update movePath

/-- `format_file_change_diff`. -/
def formatFileChangeDiff : FileChange → Text
  | .add content => content
  | .delete content => content
  | .update unifiedDiff (some path) => unifiedDiff ++ "\n\nMoved to: ".toList ++ path
  | .update unifiedDiff none => unifiedDiff

/-- `convert_patch_changes`. -/
def convertPatchChanges (changes : List (Text × FileChange)) : List FileUpdateChange :=
  (changes.map fun (path, change) =>
    { path, kind := mapPatchChangeKind change, diff := formatFileChangeDiff change
      : FileUpdateChange }).mergeSort fun a b => a.path ≤ b.path

/-- `build_file_change_approval_request_item` and `build_file_change_begin_item`. -/
def buildFileChangeBeginItem (payload : PatchEvent) : ThreadItem :=
  .fileChange payload.callId (convertPatchChanges payload.changes) .inProgress

/-- `build_file_change_end_item`. -/
def buildFileChangeEndItem (payload : PatchEvent) (status : CorePatchApplyStatus) : ThreadItem :=
  .fileChange payload.callId (convertPatchChanges payload.changes) (match status with
    | .completed => .completed
    | .failed => .failed
    | .declined => .declined)

/-- `build_command_execution_begin_item`. -/
def buildCommandExecutionBeginItem (deps : Externals) (payload : ExecCommandBeginEvent) :
    ThreadItem :=
  .commandExecution payload.callId (deps.shlexJoin payload.command) payload.cwd payload.processId
    payload.source .inProgress
    (payload.parsedCmd.map (CommandAction.fromCoreWithCwd deps payload.cwd)) none none none

/-- `build_command_execution_end_item`. -/
def buildCommandExecutionEndItem (deps : Externals) (payload : ExecCommandEndEvent) : ThreadItem :=
  let aggregatedOutput := if payload.aggregatedOutput = [] then none
    else some payload.aggregatedOutput
  let status := match payload.status with
    | .completed => .completed
    | .failed => .failed
    | .declined => .declined
  .commandExecution payload.callId (deps.shlexJoin payload.command) payload.cwd payload.processId
    payload.source status
    (payload.parsedCmd.map (CommandAction.fromCoreWithCwd deps payload.cwd)) aggregatedOutput
    (some payload.exitCode) (some ((durationMs payload.duration).getD i64Max))

/-- `build_item_from_guardian_event`. -/
def buildItemFromGuardianEvent (deps : Externals) (assessment : GuardianAssessmentEvent)
    (status : CommandExecutionStatus) : Option ThreadItem :=
  match assessment.action with
  | .command command cwd => assessment.targetItemId.map fun id =>
    .commandExecution id command cwd none .agent status [.unknown command] none none none
  | .execve program argv cwd => assessment.targetItemId.map fun id =>
    let argv := if argv = [] then [program] else program :: argv.drop 1
    let command := deps.shlexJoin argv
    let parsedCmd := deps.parseCommand argv
    let commandActions := if parsedCmd = [] then [.unknown command]
      else parsedCmd.map (CommandAction.fromCoreWithCwd deps cwd)
    .commandExecution id command cwd none .agent status commandActions none none none
  | .applyPatch | .networkAccess | .mcpToolCall | .requestPermissions => none

/-- The item of `handle_dynamic_tool_call_request`. -/
def dynamicToolCallRequestItem (payload : DynamicToolCallRequest) : ThreadItem :=
  .dynamicToolCall payload.callId payload.nameSpace payload.tool payload.arguments .inProgress none
    none none

/-- The item of `handle_dynamic_tool_call_response`. -/
def dynamicToolCallResponseItem (payload : DynamicToolCallResponseEvent) : ThreadItem :=
  .dynamicToolCall payload.callId payload.nameSpace payload.tool payload.arguments
    (if payload.success then .completed else .failed) (some payload.contentItems)
    (some payload.success) (durationMs payload.duration)

/-- The item of `handle_mcp_tool_call_begin`. -/
def mcpToolCallBeginItem (payload : McpToolCallBeginEvent) : ThreadItem :=
  .mcpToolCall payload.callId payload.server payload.tool .inProgress
    (payload.arguments.getD "null".toList) payload.mcpAppResourceUri none none none

/-- `McpToolCallEndEvent::is_success`. -/
def McpToolCallEndEvent.isSuccess (payload : McpToolCallEndEvent) : Bool :=
  match payload.result with
  | .ok result => !result.isError.getD false
  | .error _ => false

/-- The item of `handle_mcp_tool_call_end`. -/
def mcpToolCallEndItem (payload : McpToolCallEndEvent) : ThreadItem :=
  let status := if payload.isSuccess then .completed else .failed
  let (result, error) : Option McpToolCallResult × Option Text := match payload.result with
    | .ok value => (some ⟨value.content, value.structuredContent, value.metadata⟩, none)
    | .error message => (none, some message)
  .mcpToolCall payload.callId payload.server payload.tool status
    (payload.arguments.getD "null".toList) payload.mcpAppResourceUri result error
    (durationMs payload.duration)

/-- `CollabAgentState::from`. -/
def CollabAgentState.ofStatus : AgentStatus → CollabAgentState
  | .pendingInit => ⟨.pendingInit, none⟩
  | .running => ⟨.running, none⟩
  | .interrupted => ⟨.interrupted, none⟩
  | .completed message => ⟨.completed, message⟩
  | .errored message => ⟨.errored, some message⟩
  | .shutdown => ⟨.shutdown, none⟩
  | .notFound => ⟨.notFound, none⟩

/-- `matches!(status, AgentStatus::Errored(_) | AgentStatus::NotFound)`. -/
def AgentStatus.isFailure : AgentStatus → Bool
  | .errored _ | .notFound => true
  | _ => false

end Supercodex.ThreadHistory
