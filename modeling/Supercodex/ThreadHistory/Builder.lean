import Supercodex.ThreadHistory.ThreadItem
import Supercodex.Library.FirstMatch

/-!
# The thread history (`app-server-protocol/src/protocol/thread_history.rs`)

One reducer turns the events of a running thread, or the items of its rollout, into the turns that a
client sees. A turn is opened by `TurnStarted`, or implicitly by the first item that needs one.
-/

namespace Supercodex.ThreadHistory

open History FirstMatch

/-! ## Turns -/

/-- `TurnStatus`. -/
inductive TurnStatus where
  | completed | interrupted | failed | inProgress
deriving DecidableEq

/-- `CodexErrorInfo`. -/
inductive CodexErrorInfo where
  | contextWindowExceeded | usageLimitExceeded | serverOverloaded | cyberPolicy
  | httpConnectionFailed (httpStatusCode : Option ℕ)
  | responseStreamConnectionFailed (httpStatusCode : Option ℕ)
  | internalServerError | unauthorized | badRequest | sandboxError
  | responseStreamDisconnected (httpStatusCode : Option ℕ)
  | responseTooManyFailedAttempts (httpStatusCode : Option ℕ)
  | activeTurnNotSteerable (turnKind : Text)
  | threadRollbackFailed | other
deriving DecidableEq

/-- `CodexErrorInfo::affects_turn_status`. -/
def CodexErrorInfo.affectsTurnStatus : CodexErrorInfo → Bool
  | threadRollbackFailed | activeTurnNotSteerable _ => false
  | _ => true

/-- `TurnError`; the history never has additional details. -/
structure TurnError where
  message : Text
  codexErrorInfo : Option CodexErrorInfo
  additionalDetails : Option Text := none
deriving DecidableEq

/-- `Turn`. -/
structure Turn where
  id : Text
  items : List ThreadItem
  error : Option TurnError
  status : TurnStatus
  startedAt : Option ℤ
  completedAt : Option ℤ
  durationMs : Option ℤ

/-- `PendingTurn`; `Turn::from` is the projection to the turn. -/
structure PendingTurn extends Turn where
  openedExplicitly : Bool
  sawCompaction : Bool
  rolloutStartIndex : ℕ

/-! ## Events -/

/-- `TurnItem`: the history reads only plans. -/
inductive TurnItem where
  | plan (id text : Text)
  | userMessage | hookPrompt | agentMessage | reasoning | webSearch | imageGeneration
  | contextCompaction

/-- `EventMsg`, with the data that the history reads. -/
inductive EventMsg where
  | userMessage (message : Text) (images : Option (List Text))
      (localImages textElements : List Text)
  | agentMessage (message : Text) (phase : Option MessagePhase) (memoryCitation : Option Text)
  | agentReasoning (text : Text)
  | agentReasoningRawContent (text : Text)
  | webSearchBegin (callId : Text)
  | webSearchEnd (callId query action : Text)
  | execCommandBegin (payload : ExecCommandBeginEvent)
  | execCommandEnd (payload : ExecCommandEndEvent)
  | guardianAssessment (payload : GuardianAssessmentEvent)
  | applyPatchApprovalRequest (payload : PatchEvent)
  | patchApplyBegin (payload : PatchEvent)
  | patchApplyEnd (payload : PatchEvent) (status : CorePatchApplyStatus)
  | dynamicToolCallRequest (payload : DynamicToolCallRequest)
  | dynamicToolCallResponse (payload : DynamicToolCallResponseEvent)
  | mcpToolCallBegin (payload : McpToolCallBeginEvent)
  | mcpToolCallEnd (payload : McpToolCallEndEvent)
  | viewImageToolCall (callId : Text) (path : Path.AbsolutePath)
  | imageGenerationBegin (callId : Text)
  | imageGenerationEnd (callId status : Text) (revisedPrompt : Option Text) (result : Text)
      (savedPath : Option Path.AbsolutePath)
  | collabAgentSpawnBegin (callId senderThreadId prompt model reasoningEffort : Text)
  | collabAgentSpawnEnd (callId senderThreadId : Text) (newThreadId : Option Text)
      (prompt model reasoningEffort : Text) (status : AgentStatus)
  | collabAgentInteractionBegin (callId senderThreadId receiverThreadId prompt : Text)
  | collabAgentInteractionEnd (callId senderThreadId receiverThreadId prompt : Text)
      (status : AgentStatus)
  | collabWaitingBegin (callId senderThreadId : Text) (receiverThreadIds : List Text)
  | collabWaitingEnd (callId senderThreadId : Text) (statuses : List (Text × AgentStatus))
  | collabCloseBegin (callId senderThreadId receiverThreadId : Text)
  | collabCloseEnd (callId senderThreadId receiverThreadId : Text) (status : AgentStatus)
  | collabResumeBegin (callId senderThreadId receiverThreadId : Text)
  | collabResumeEnd (callId senderThreadId receiverThreadId : Text) (status : AgentStatus)
  | contextCompacted
  | enteredReviewMode (userFacingHint : Option Text)
  /-- The review output is read for its overall explanation. -/
  | exitedReviewMode (reviewOutput : Option Text)
  | itemStarted (turnId : Text) (item : TurnItem)
  | itemCompleted (turnId : Text) (item : TurnItem)
  | error (message : Text) (codexErrorInfo : Option CodexErrorInfo)
  | threadRolledBack (numTurns : ℕ)
  | turnAborted (turnId : Option Text) (completedAt durationMs : Option ℤ)
  | turnStarted (turnId : Text) (startedAt : Option ℤ)
  | turnComplete (turnId : Text) (completedAt durationMs : Option ℤ)
  /-- All events that the history does nothing for. -/
  | other

/-- `RolloutItem`. -/
inductive RolloutItem where
  | sessionMeta
  | responseItem (item : ResponseItem)
  | compacted (item : Session.CompactedItem)
  | turnContext (item : TurnContextItem)
  | eventMsg (event : EventMsg)

/-! ## The builder -/

/-- `ThreadHistoryBuilder`. -/
structure ThreadHistoryBuilder where
  turns : List Turn
  currentTurn : Option PendingTurn
  nextItemIndex : ℕ
  currentRolloutIndex : ℕ
  nextRolloutIndex : ℕ

/-- `REVIEW_FALLBACK_MESSAGE`. -/
def reviewFallbackMessage : Text := "Reviewer failed to output a response.".toList

/-- `render_review_output_text`. -/
def renderReviewOutputText (overallExplanation : Text) : Text :=
  let explanation := Text.trim overallExplanation
  if explanation = [] then reviewFallbackMessage else explanation

/-- `upsert_turn_item`. -/
def upsertTurnItem (items : List ThreadItem) (item : ThreadItem) : List ThreadItem :=
  (modifyFirst (fun existing => existing.id = item.id) (fun _ => item) items).getD (items ++ [item])

/-- `format!("item-{}", index)`. -/
def itemId (index : ℕ) : Text := "item-".toList ++ Nat.toDigits 10 index

/-- `format!("rollout-{}", index)`. -/
def rolloutId (index : ℕ) : Text := "rollout-".toList ++ Nat.toDigits 10 index

/-- `build_user_inputs`. -/
def buildUserInputs (message : Text) (images : Option (List Text))
    (localImages textElements : List Text) : List UserInput :=
  (if Text.trim message = [] then [] else [.text message textElements]) ++
    ((images.getD []).map .image ++ localImages.map .localImage)

/-- The new turn of `mark_completed`: a failed or interrupted turn keeps its status. -/
def Turn.markCompleted (turn : Turn) (completedAt durationMs : Option ℤ) : Turn :=
  { turn with
    status := if turn.status = .completed ∨ turn.status = .inProgress then .completed
      else turn.status
    completedAt := completedAt
    durationMs := durationMs }

/-- The new turn of `apply_abort`. -/
def Turn.applyAbort (turn : Turn) (completedAt durationMs : Option ℤ) : Turn :=
  { turn with status := .interrupted, completedAt := completedAt, durationMs := durationMs }

namespace PendingTurn

/-- A change to the turn that leaves the marks of the builder alone. -/
def mapTurn (turn : PendingTurn) (change : Turn → Turn) : PendingTurn :=
  { turn with toTurn := change turn.toTurn }

/-- `turn.items.push(item)`. -/
def push (turn : PendingTurn) (item : ThreadItem) : PendingTurn :=
  turn.mapTurn fun turn => { turn with items := turn.items ++ [item] }

/-- `upsert_turn_item(&mut turn.items, item)`. -/
def upsert (turn : PendingTurn) (item : ThreadItem) : PendingTurn :=
  turn.mapTurn fun turn => { turn with items := upsertTurnItem turn.items item }

end PendingTurn

namespace ThreadHistoryBuilder

/-- `ThreadHistoryBuilder::new`. -/
def new : ThreadHistoryBuilder where
  turns := []
  currentTurn := none
  nextItemIndex := 1
  currentRolloutIndex := 0
  nextRolloutIndex := 0

/-- `ThreadHistoryBuilder::reset`. -/
def reset (_ : ThreadHistoryBuilder) : ThreadHistoryBuilder := new

variable (builder : ThreadHistoryBuilder)

/-- `finish_current_turn`. -/
def finishCurrentTurn : ThreadHistoryBuilder :=
  match builder.currentTurn with
  | none => builder
  | some turn =>
    if turn.items = [] ∧ turn.openedExplicitly = false ∧ turn.sawCompaction = false then
      { builder with currentTurn := none }
    else { builder with currentTurn := none, turns := builder.turns ++ [turn.toTurn] }

/-- `finish`. -/
def finish : List Turn := builder.finishCurrentTurn.turns

/-- `active_turn_snapshot`. -/
def activeTurnSnapshot : Option Turn :=
  (builder.currentTurn.map PendingTurn.toTurn).or builder.turns.getLast?

/-- `active_turn_position`. -/
def activeTurnPosition : Option ℕ :=
  if builder.currentTurn.isSome then some builder.turns.length
  else if builder.turns = [] then none
  else some (builder.turns.length - 1)

/-- `new_turn`; the `uuid` is what `Uuid::now_v7` gives at this call. -/
def newTurn (uuid : Text) (id : Option Text) : PendingTurn where
  id := id.getD
    (if builder.nextRolloutIndex = 0 then uuid else rolloutId builder.currentRolloutIndex)
  items := []
  error := none
  status := .completed
  startedAt := none
  completedAt := none
  durationMs := none
  openedExplicitly := false
  sawCompaction := false
  rolloutStartIndex := builder.currentRolloutIndex

/-- `ensure_turn`, as the turn that it gives. -/
def ensureTurn (uuid : Text) : PendingTurn := builder.currentTurn.getD (builder.newTurn uuid none)

/-- A change to the turn that `ensure_turn` gives. -/
def changeTurn (uuid : Text) (change : PendingTurn → PendingTurn) : ThreadHistoryBuilder :=
  { builder with currentTurn := some (change (builder.ensureTurn uuid)) }

/-- A change to the active turn, if there is one. -/
def changeActiveTurn (change : Turn → Turn) : ThreadHistoryBuilder :=
  { builder with currentTurn := builder.currentTurn.map (PendingTurn.mapTurn · change) }

/-- `upsert_item_in_turn_id`: without a turn of this id the item is dropped. -/
def upsertItemInTurnId (turnId : Text) (item : ThreadItem) : ThreadHistoryBuilder :=
  match builder.currentTurn.filter fun turn => turn.id = turnId with
  | some turn => { builder with currentTurn := some (turn.upsert item) }
  | none =>
    match modifyFirst (fun turn => turn.id = turnId)
        (fun turn => { turn with items := upsertTurnItem turn.items item }) builder.turns with
    | some turns => { builder with turns := turns }
    | none => builder

/-- `upsert_item_in_current_turn`. -/
def upsertItemInCurrentTurn (uuid : Text) (item : ThreadItem) : ThreadHistoryBuilder :=
  builder.changeTurn uuid (·.upsert item)

/-- The handlers whose event may leave out its turn id. -/
def upsertItem (uuid turnId : Text) (item : ThreadItem) : ThreadHistoryBuilder :=
  if turnId = [] then builder.upsertItemInCurrentTurn uuid item
  else builder.upsertItemInTurnId turnId item

/-- `next_item_id` and a push of the item that it names. -/
def pushNextItem (uuid : Text) (item : Text → ThreadItem) : ThreadHistoryBuilder :=
  { builder with nextItemIndex := builder.nextItemIndex + 1 }.changeTurn uuid
    (·.push (item (itemId builder.nextItemIndex)))

/-! ## Handlers -/

/-- `handle_user_message`. -/
def handleUserMessage (uuid message : Text) (images : Option (List Text))
    (localImages textElements : List Text) : ThreadHistoryBuilder :=
  let builder := match builder.currentTurn with
    | some turn =>
      if turn.openedExplicitly = false ∧ ¬ (turn.sawCompaction = true ∧ turn.items = []) then
        builder.finishCurrentTurn
      else builder
    | none => builder
  builder.pushNextItem uuid
    (.userMessage · (buildUserInputs message images localImages textElements))

/-- `handle_agent_message`. -/
def handleAgentMessage (uuid text : Text) (phase : Option MessagePhase)
    (memoryCitation : Option Text) : ThreadHistoryBuilder :=
  if text = [] then builder
  else builder.pushNextItem uuid (.agentMessage · text phase memoryCitation)

/-- The two reasoning handlers: a text is added to the last item if that is a reasoning item, and
becomes an item of its own otherwise. -/
def handleReasoning (uuid text : Text) (add : List Text → List Text → List Text × List Text) :
    ThreadHistoryBuilder :=
  if text = [] then builder
  else
    match (builder.ensureTurn uuid).items.getLast? with
    | some (.reasoning id summary content) =>
      let (summary, content) := add summary content
      builder.changeTurn uuid (·.mapTurn fun turn =>
        { turn with items := turn.items.dropLast ++ [.reasoning id summary content] })
    | _ =>
      let (summary, content) := add [] []
      builder.pushNextItem uuid (.reasoning · summary content)

/-- `handle_agent_reasoning`. -/
def handleAgentReasoning (uuid text : Text) : ThreadHistoryBuilder :=
  builder.handleReasoning uuid text fun summary content => (summary ++ [text], content)

/-- `handle_agent_reasoning_raw_content`. -/
def handleAgentReasoningRawContent (uuid text : Text) : ThreadHistoryBuilder :=
  builder.handleReasoning uuid text fun summary content => (summary, content ++ [text])

/-- `handle_item_started` and `handle_item_completed`. -/
def handleTurnItem (turnId : Text) : TurnItem → ThreadHistoryBuilder
  | .plan id text =>
    if text = [] then builder else builder.upsertItemInTurnId turnId (.plan id text)
  | _ => builder

/-- The status in `handle_guardian_assessment`: an approved action has an item of its own. -/
def guardianStatus : GuardianAssessmentStatus → Option CommandExecutionStatus
  | .inProgress => some .inProgress
  | .denied | .aborted => some .declined
  | .timedOut => some .failed
  | .approved => none

/-- `handle_guardian_assessment`. -/
def handleGuardianAssessment (deps : Externals) (uuid : Text) (payload : GuardianAssessmentEvent) :
    ThreadHistoryBuilder :=
  match (guardianStatus payload.status).bind (buildItemFromGuardianEvent deps payload) with
  | some item => builder.upsertItem uuid payload.turnId item
  | none => builder

/-- `handle_collab_agent_spawn_end`. -/
def handleCollabAgentSpawnEnd (uuid callId senderThreadId : Text) (newThreadId : Option Text)
    (prompt model reasoningEffort : Text) (status : AgentStatus) : ThreadHistoryBuilder :=
  let callStatus := if status.isFailure then .failed
    else if newThreadId.isSome then .completed
    else .failed
  let (receiverThreadIds, agentsStates) := match newThreadId with
    | some id => ([id], [(id, CollabAgentState.ofStatus status)])
    | none => ([], [])
  builder.upsertItemInCurrentTurn uuid (.collabAgentToolCall callId .spawnAgent callStatus
    senderThreadId receiverThreadIds (some prompt) (some model) (some reasoningEffort) agentsStates)

/-- The other `handle_collab_*_end` handlers of one receiver. -/
def handleCollabEnd (tool : CollabAgentTool) (prompt : Option Text)
    (uuid callId senderThreadId receiverThreadId : Text) (status : AgentStatus) :
    ThreadHistoryBuilder :=
  builder.upsertItemInCurrentTurn uuid (.collabAgentToolCall callId tool
    (if status.isFailure then .failed else .completed) senderThreadId [receiverThreadId] prompt none
    none [(receiverThreadId, CollabAgentState.ofStatus status)])

/-- The `handle_collab_*_begin` handlers. -/
def handleCollabBegin (tool : CollabAgentTool) (prompt model reasoningEffort : Option Text)
    (uuid callId senderThreadId : Text) (receiverThreadIds : List Text) : ThreadHistoryBuilder :=
  builder.upsertItemInCurrentTurn uuid (.collabAgentToolCall callId tool .inProgress senderThreadId
    receiverThreadIds prompt model reasoningEffort [])

/-- `handle_collab_waiting_end`. -/
def handleCollabWaitingEnd (uuid callId senderThreadId : Text)
    (statuses : List (Text × AgentStatus)) : ThreadHistoryBuilder :=
  let status := if statuses.any (·.2.isFailure) then .failed else .completed
  let receiverThreadIds := (statuses.map Prod.fst).mergeSort (· ≤ ·)
  let agentsStates := statuses.map fun (id, status) => (id, CollabAgentState.ofStatus status)
  builder.upsertItemInCurrentTurn uuid (.collabAgentToolCall callId .wait status senderThreadId
    receiverThreadIds none none none agentsStates)

/-- `handle_error`. -/
def handleError (message : Text) (codexErrorInfo : Option CodexErrorInfo) : ThreadHistoryBuilder :=
  if codexErrorInfo.all CodexErrorInfo.affectsTurnStatus then
    builder.changeActiveTurn fun turn =>
      { turn with status := .failed, error := some { message, codexErrorInfo } }
  else builder

/-- `handle_turn_aborted`. -/
def handleTurnAborted (turnId : Option Text) (completedAt durationMs : Option ℤ) :
    ThreadHistoryBuilder :=
  -- an event without an id, or with the id of no turn, is for the active turn
  let active := builder.changeActiveTurn (·.applyAbort completedAt durationMs)
  match turnId with
  | some turnId =>
    if builder.currentTurn.any fun turn => turn.id = turnId then active
    else
      match modifyFirst (fun turn => turn.id = turnId) (·.applyAbort completedAt durationMs)
          builder.turns with
      | some turns => { builder with turns := turns }
      | none => active
  | none => active

/-- `handle_turn_started`. -/
def handleTurnStarted (turnId : Text) (startedAt : Option ℤ) : ThreadHistoryBuilder :=
  let builder := builder.finishCurrentTurn
  { builder with
    currentTurn := some { builder.newTurn [] (some turnId) with
      status := .inProgress, startedAt := startedAt, openedExplicitly := true } }

/-- `handle_turn_complete`. -/
def handleTurnComplete (turnId : Text) (completedAt durationMs : Option ℤ) :
    ThreadHistoryBuilder :=
  -- the active turn is marked and closed, also when the id is that of no turn
  let active := builder.changeActiveTurn (·.markCompleted completedAt durationMs)
  if builder.currentTurn.any fun turn => turn.id = turnId then active.finishCurrentTurn
  else
    match modifyFirst (fun turn => turn.id = turnId) (·.markCompleted completedAt durationMs)
        builder.turns with
    | some turns => { builder with turns := turns }
    | none => active.finishCurrentTurn

/-- `handle_compacted`. -/
def handleCompacted (uuid : Text) : ThreadHistoryBuilder :=
  builder.changeTurn uuid ({ · with sawCompaction := true })

/-- `handle_thread_rollback`. -/
def handleThreadRollback (numTurns : ℕ) : ThreadHistoryBuilder :=
  let builder := builder.finishCurrentTurn
  let turns := if numTurns ≥ builder.turns.length then []
    else builder.turns.take (builder.turns.length - numTurns)
  let itemCount := (turns.map fun turn => turn.items.length).sum
  { builder with turns := turns, nextItemIndex := itemCount + 1 }

/-- `parse_hook_prompt_message`; the `uuid` names a prompt without an id. -/
def parseHookPromptMessage (deps : Externals) (uuid : Text) (id : Option Text)
    (content : List ContentItem) : Option ThreadItem :=
  match content.mapM fun
    | .inputText text => deps.history.parseHookPromptFragment text
    | _ => none with
  | none | some [] => none
  | some fragments =>
    some (.hookPrompt (id.getD uuid) (fragments.map fun (text, hookRunId) => ⟨text, hookRunId⟩))

/-- `handle_response_item`. -/
def handleResponseItem (deps : Externals) (uuid : Text) : ResponseItem → ThreadHistoryBuilder
  | .message id role content _ _ =>
    if role ≠ "user".toList then builder
    else
      match parseHookPromptMessage deps uuid id content with
      | some item => builder.changeTurn uuid (·.push item)
      | none => builder
  | _ => builder

/-- `handle_event`. -/
def handleEvent (deps : Externals) (uuid : Text) : EventMsg → ThreadHistoryBuilder
  | .userMessage message images localImages textElements =>
    builder.handleUserMessage uuid message images localImages textElements
  | .agentMessage message phase memoryCitation =>
    builder.handleAgentMessage uuid message phase memoryCitation
  | .agentReasoning text => builder.handleAgentReasoning uuid text
  | .agentReasoningRawContent text => builder.handleAgentReasoningRawContent uuid text
  | .webSearchBegin callId => builder.upsertItemInCurrentTurn uuid (.webSearch callId [] none)
  | .webSearchEnd callId query action =>
    builder.upsertItemInCurrentTurn uuid (.webSearch callId query (some action))
  | .execCommandBegin payload =>
    builder.upsertItemInTurnId payload.turnId (buildCommandExecutionBeginItem deps payload)
  | .execCommandEnd payload =>
    builder.upsertItemInTurnId payload.turnId (buildCommandExecutionEndItem deps payload)
  | .guardianAssessment payload => builder.handleGuardianAssessment deps uuid payload
  | .applyPatchApprovalRequest payload | .patchApplyBegin payload =>
    builder.upsertItem uuid payload.turnId (buildFileChangeBeginItem payload)
  | .patchApplyEnd payload status =>
    builder.upsertItem uuid payload.turnId (buildFileChangeEndItem payload status)
  | .dynamicToolCallRequest payload =>
    builder.upsertItem uuid payload.turnId (dynamicToolCallRequestItem payload)
  | .dynamicToolCallResponse payload =>
    builder.upsertItem uuid payload.turnId (dynamicToolCallResponseItem payload)
  | .mcpToolCallBegin payload =>
    builder.upsertItemInCurrentTurn uuid (mcpToolCallBeginItem payload)
  | .mcpToolCallEnd payload => builder.upsertItemInCurrentTurn uuid (mcpToolCallEndItem payload)
  | .viewImageToolCall callId path =>
    builder.upsertItemInCurrentTurn uuid (.imageView callId path)
  | .imageGenerationBegin callId =>
    builder.upsertItemInCurrentTurn uuid (.imageGeneration callId [] none [] none)
  | .imageGenerationEnd callId status revisedPrompt result savedPath =>
    builder.upsertItemInCurrentTurn uuid
      (.imageGeneration callId status revisedPrompt result savedPath)
  | .collabAgentSpawnBegin callId senderThreadId prompt model reasoningEffort =>
    builder.handleCollabBegin .spawnAgent (some prompt) (some model) (some reasoningEffort) uuid
      callId senderThreadId []
  | .collabAgentSpawnEnd callId senderThreadId newThreadId prompt model reasoningEffort status =>
    builder.handleCollabAgentSpawnEnd uuid callId senderThreadId newThreadId prompt model
      reasoningEffort status
  | .collabAgentInteractionBegin callId senderThreadId receiverThreadId prompt =>
    builder.handleCollabBegin .sendInput (some prompt) none none uuid callId senderThreadId
      [receiverThreadId]
  | .collabAgentInteractionEnd callId senderThreadId receiverThreadId prompt status =>
    builder.handleCollabEnd .sendInput (some prompt) uuid callId senderThreadId receiverThreadId
      status
  | .collabWaitingBegin callId senderThreadId receiverThreadIds =>
    builder.handleCollabBegin .wait none none none uuid callId senderThreadId receiverThreadIds
  | .collabWaitingEnd callId senderThreadId statuses =>
    builder.handleCollabWaitingEnd uuid callId senderThreadId statuses
  | .collabCloseBegin callId senderThreadId receiverThreadId =>
    builder.handleCollabBegin .closeAgent none none none uuid callId senderThreadId
      [receiverThreadId]
  | .collabCloseEnd callId senderThreadId receiverThreadId status =>
    builder.handleCollabEnd .closeAgent none uuid callId senderThreadId receiverThreadId status
  | .collabResumeBegin callId senderThreadId receiverThreadId =>
    builder.handleCollabBegin .resumeAgent none none none uuid callId senderThreadId
      [receiverThreadId]
  | .collabResumeEnd callId senderThreadId receiverThreadId status =>
    builder.handleCollabEnd .resumeAgent none uuid callId senderThreadId receiverThreadId status
  | .contextCompacted => builder.pushNextItem uuid .contextCompaction
  | .enteredReviewMode userFacingHint =>
    builder.pushNextItem uuid
      (.enteredReviewMode · (userFacingHint.getD "Review requested.".toList))
  | .exitedReviewMode reviewOutput =>
    builder.pushNextItem uuid (.exitedReviewMode ·
      ((reviewOutput.map renderReviewOutputText).getD reviewFallbackMessage))
  | .itemStarted turnId item => builder.handleTurnItem turnId item
  | .itemCompleted turnId item => builder.handleTurnItem turnId item
  | .error message codexErrorInfo => builder.handleError message codexErrorInfo
  | .threadRolledBack numTurns => builder.handleThreadRollback numTurns
  | .turnAborted turnId completedAt durationMs =>
    builder.handleTurnAborted turnId completedAt durationMs
  | .turnStarted turnId startedAt => builder.handleTurnStarted turnId startedAt
  | .turnComplete turnId completedAt durationMs =>
    builder.handleTurnComplete turnId completedAt durationMs
  | .other => builder

/-- The place of a rollout item is counted. -/
def countRolloutItem : ThreadHistoryBuilder :=
  { builder with
    currentRolloutIndex := builder.nextRolloutIndex
    nextRolloutIndex := builder.nextRolloutIndex + 1 }

/-- `handle_rollout_item`. -/
def handleRolloutItem (deps : Externals) (uuid : Text) (item : RolloutItem) :
    ThreadHistoryBuilder :=
  let builder := builder.countRolloutItem
  match item with
  | .eventMsg event => builder.handleEvent deps uuid event
  | .compacted _ => builder.handleCompacted uuid
  | .responseItem item => builder.handleResponseItem deps uuid item
  | .turnContext _ | .sessionMeta => builder

/-- The loop of `build_turns_from_rollout_items`, with the uuids that its calls draw. -/
def handleRolloutItems (deps : Externals) (items : List (Text × RolloutItem)) :
    ThreadHistoryBuilder :=
  items.foldl (fun builder entry => builder.handleRolloutItem deps entry.1 entry.2) new

end ThreadHistoryBuilder

/-- `build_turns_from_rollout_items`. -/
def buildTurnsFromRolloutItems (deps : Externals) (items : List (Text × RolloutItem)) :
    List Turn :=
  (ThreadHistoryBuilder.handleRolloutItems deps items).finish

end Supercodex.ThreadHistory
