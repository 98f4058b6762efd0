import Supercodex.ThreadHistory.Builder

/-!
# The live view of a thread and its replay

An open turn is always one that `finish` keeps: it was opened explicitly, it has items, or it stands for
a compaction. So the turn that a client is shown as active is the one it later finds in the replay.
-/

namespace Supercodex.ThreadHistory

open History FirstMatch PendingTurn

/-! ## Where an event puts its item -/

/-- The turn that an event is for. -/
inductive Address where
  | current
  | turn (turnId : Text)
deriving DecidableEq

/-- The address in an event that may leave out its turn id. -/
def Address.ofTurnId (turnId : Text) : Address := if turnId = [] then .current else .turn turnId

/-- The item that an event puts into a turn, or replaces there, with the turn that it is for. -/
def EventMsg.upserts (deps : Externals) : EventMsg → Option (Address × ThreadItem)
  | .webSearchBegin callId => some (.current, .webSearch callId [] none)
  | .webSearchEnd callId query action => some (.current, .webSearch callId query (some action))
  | .execCommandBegin payload =>
    some (.turn payload.turnId, buildCommandExecutionBeginItem deps payload)
  | .execCommandEnd payload =>
    some (.turn payload.turnId, buildCommandExecutionEndItem deps payload)
  | .guardianAssessment payload =>
    ((ThreadHistoryBuilder.guardianStatus payload.status).bind
      (buildItemFromGuardianEvent deps payload)).map (Address.ofTurnId payload.turnId, ·)
  | .applyPatchApprovalRequest payload | .patchApplyBegin payload =>
    some (Address.ofTurnId payload.turnId, buildFileChangeBeginItem payload)
  | .patchApplyEnd payload status =>
    some (Address.ofTurnId payload.turnId, buildFileChangeEndItem payload status)
  | .dynamicToolCallRequest payload =>
    some (Address.ofTurnId payload.turnId, dynamicToolCallRequestItem payload)
  | .dynamicToolCallResponse payload =>
    some (Address.ofTurnId payload.turnId, dynamicToolCallResponseItem payload)
  | .mcpToolCallBegin payload => some (.current, mcpToolCallBeginItem payload)
  | .mcpToolCallEnd payload => some (.current, mcpToolCallEndItem payload)
  | .viewImageToolCall callId path => some (.current, .imageView callId path)
  | .imageGenerationBegin callId => some (.current, .imageGeneration callId [] none [] none)
  | .imageGenerationEnd callId status revisedPrompt result savedPath =>
    some (.current, .imageGeneration callId status revisedPrompt result savedPath)
  | .collabAgentSpawnBegin callId senderThreadId prompt model reasoningEffort =>
    some (.current, .collabAgentToolCall callId .spawnAgent .inProgress senderThreadId []
      (some prompt) (some model) (some reasoningEffort) [])
  | .collabAgentSpawnEnd callId senderThreadId newThreadId prompt model reasoningEffort status =>
    some (.current, .collabAgentToolCall callId .spawnAgent
      (if status.isFailure then .failed else if newThreadId.isSome then .completed else .failed)
      senderThreadId newThreadId.toList (some prompt) (some model) (some reasoningEffort)
      (newThreadId.toList.map (·, CollabAgentState.ofStatus status)))
  | .collabAgentInteractionBegin callId senderThreadId receiverThreadId prompt =>
    some (.current, .collabAgentToolCall callId .sendInput .inProgress senderThreadId
      [receiverThreadId] (some prompt) none none [])
  | .collabAgentInteractionEnd callId senderThreadId receiverThreadId prompt status =>
    some (.current, .collabAgentToolCall callId .sendInput
      (if status.isFailure then .failed else .completed) senderThreadId [receiverThreadId]
      (some prompt) none none [(receiverThreadId, CollabAgentState.ofStatus status)])
  | .collabWaitingBegin callId senderThreadId receiverThreadIds =>
    some (.current, .collabAgentToolCall callId .wait .inProgress senderThreadId receiverThreadIds
      none none none [])
  | .collabWaitingEnd callId senderThreadId statuses =>
    some (.current, .collabAgentToolCall callId .wait
      (if statuses.any (·.2.isFailure) then .failed else .completed) senderThreadId
      ((statuses.map Prod.fst).mergeSort (· ≤ ·)) none none none
      (statuses.map fun (id, status) => (id, CollabAgentState.ofStatus status)))
  | .collabCloseBegin callId senderThreadId receiverThreadId =>
    some (.current, .collabAgentToolCall callId .closeAgent .inProgress senderThreadId
      [receiverThreadId] none none none [])
  | .collabCloseEnd callId senderThreadId receiverThreadId status =>
    some (.current, .collabAgentToolCall callId .closeAgent
      (if status.isFailure then .failed else .completed) senderThreadId [receiverThreadId] none none
      none [(receiverThreadId, CollabAgentState.ofStatus status)])
  | .collabResumeBegin callId senderThreadId receiverThreadId =>
    some (.current, .collabAgentToolCall callId .resumeAgent .inProgress senderThreadId
      [receiverThreadId] none none none [])
  | .collabResumeEnd callId senderThreadId receiverThreadId status =>
    some (.current, .collabAgentToolCall callId .resumeAgent
      (if status.isFailure then .failed else .completed) senderThreadId [receiverThreadId] none none
      none [(receiverThreadId, CollabAgentState.ofStatus status)])
  | .itemStarted turnId (.plan id text) | .itemCompleted turnId (.plan id text) =>
    if text = [] then none else some (.turn turnId, .plan id text)
  | _ => none

/-- The turn that an event names. -/
def EventMsg.turnId : EventMsg → Option Text
  | .execCommandBegin payload => some payload.turnId
  | .execCommandEnd payload => some payload.turnId
  | .guardianAssessment payload => if payload.turnId = [] then none else some payload.turnId
  | .applyPatchApprovalRequest payload | .patchApplyBegin payload | .patchApplyEnd payload _ =>
    if payload.turnId = [] then none else some payload.turnId
  | .dynamicToolCallRequest payload => if payload.turnId = [] then none else some payload.turnId
  | .dynamicToolCallResponse payload => if payload.turnId = [] then none else some payload.turnId
  | .itemStarted turnId _ | .itemCompleted turnId _ => some turnId
  | .turnAborted turnId _ _ => turnId
  | .turnStarted turnId _ => some turnId
  | .turnComplete turnId _ _ => some turnId
  | _ => none

namespace ThreadHistoryBuilder

variable {builder : ThreadHistoryBuilder} {deps : Externals} {uuid : Text}

/-- The item is put into the turn at the address. -/
def upsertAt (builder : ThreadHistoryBuilder) (uuid : Text) :
    Address → ThreadItem → ThreadHistoryBuilder
  | .current, item => builder.upsertItemInCurrentTurn uuid item
  | .turn turnId, item => builder.upsertItemInTurnId turnId item

lemma upsertItem_eq (turnId : Text) (item : ThreadItem) :
    builder.upsertItem uuid turnId item = builder.upsertAt uuid (.ofTurnId turnId) item := by
  unfold upsertItem Address.ofTurnId
  split <;> rfl

/-- What an event that puts no item of its own into a turn can do. -/
inductive Marks (uuid : Text) (builder : ThreadHistoryBuilder) :
    EventMsg → ThreadHistoryBuilder → Prop where
  | nothing {event : EventMsg} : Marks uuid builder event builder
  | user (message : Text) (images : Option (List Text)) (localImages textElements : List Text) :
    Marks uuid builder (.userMessage message images localImages textElements)
      (builder.handleUserMessage uuid message images localImages textElements)
  | pushNextItem {event : EventMsg} (item : Text → ThreadItem) (hid : ∀ id, (item id).id = id)
      (hturn : event.turnId = none) : Marks uuid builder event (builder.pushNextItem uuid item)
  | reasoning {event : EventMsg} (text : Text)
      (add : List Text → List Text → List Text × List Text) (hturn : event.turnId = none) :
    Marks uuid builder event (builder.handleReasoning uuid text add)
  | error (message : Text) (info : Option CodexErrorInfo) :
    Marks uuid builder (.error message info) (builder.handleError message info)
  | rollback (numTurns : ℕ) :
    Marks uuid builder (.threadRolledBack numTurns) (builder.handleThreadRollback numTurns)
  | aborted (turnId : Option Text) (completedAt durationMs : Option ℤ) :
    Marks uuid builder (.turnAborted turnId completedAt durationMs)
      (builder.handleTurnAborted turnId completedAt durationMs)
  | started (turnId : Text) (startedAt : Option ℤ) :
    Marks uuid builder (.turnStarted turnId startedAt) (builder.handleTurnStarted turnId startedAt)
  | complete (turnId : Text) (completedAt durationMs : Option ℤ) :
    Marks uuid builder (.turnComplete turnId completedAt durationMs)
      (builder.handleTurnComplete turnId completedAt durationMs)

lemma handleTurnItem_cases (builder : ThreadHistoryBuilder) (uuid turnId : Text)
    (item : TurnItem) :
    (∃ id text, item = .plan id text ∧ text ≠ [] ∧
      builder.handleTurnItem turnId item = builder.upsertAt uuid (.turn turnId) (.plan id text)) ∨
    (∀ id text, item = .plan id text → text = []) ∧
      builder.handleTurnItem turnId item = builder := by
  cases item with
  | plan id text =>
    by_cases h : text = []
    · refine .inr ⟨fun _ _ heq => ?_, if_pos h⟩
      cases heq
      exact h
    · exact .inl ⟨id, text, rfl, h, if_neg h⟩
  | _ => exact .inr ⟨nofun, rfl⟩

/-- What an event can do to the builder. -/
lemma handleEvent_cases (deps : Externals) (uuid : Text) (builder : ThreadHistoryBuilder)
    (event : EventMsg) :
    (∃ address item, event.upserts deps = some (address, item) ∧
      builder.handleEvent deps uuid event = builder.upsertAt uuid address item) ∨
    event.upserts deps = none ∧ Marks uuid builder event (builder.handleEvent deps uuid event) := by
  cases event with
  | userMessage message images localImages textElements => exact .inr ⟨rfl, .user ..⟩
  | agentMessage text phase memoryCitation =>
    refine .inr ⟨rfl, ?_⟩
    show Marks uuid builder _ (builder.handleAgentMessage uuid text phase memoryCitation)
    unfold handleAgentMessage
    split
    · exact .nothing
    · exact .pushNextItem _ (fun _ => rfl) rfl
  | agentReasoning text | agentReasoningRawContent text =>
    refine .inr ⟨rfl, ?_⟩
    simp only [handleEvent, handleAgentReasoning, handleAgentReasoningRawContent]
    exact .reasoning text _ rfl
  | guardianAssessment payload =>
    simp only [EventMsg.upserts, handleEvent, handleGuardianAssessment]
    split
    · next item hitem => exact .inl ⟨_, item, by rw [hitem]; rfl, upsertItem_eq _ _⟩
    · next hnone => exact .inr ⟨by rw [hnone]; rfl, .nothing⟩
  | contextCompacted | enteredReviewMode hint | exitedReviewMode output =>
    refine .inr ⟨rfl, ?_⟩
    simp only [handleEvent]
    exact .pushNextItem _ (fun _ => rfl) rfl
  | error message info => exact .inr ⟨rfl, .error ..⟩
  | threadRolledBack numTurns => exact .inr ⟨rfl, .rollback numTurns⟩
  | turnAborted turnId completedAt durationMs => exact .inr ⟨rfl, .aborted ..⟩
  | turnStarted turnId startedAt => exact .inr ⟨rfl, .started ..⟩
  | turnComplete turnId completedAt durationMs => exact .inr ⟨rfl, .complete ..⟩
  | other => exact .inr ⟨rfl, .nothing⟩
  | itemStarted turnId item | itemCompleted turnId item =>
    rcases handleTurnItem_cases builder uuid turnId item with
      ⟨id, text, rfl, hne, heq⟩ | ⟨hplan, heq⟩
    · exact .inl ⟨_, _, if_neg hne, heq⟩
    refine .inr ⟨?_, ?_⟩
    · cases item with
      | plan id text => exact if_pos (hplan id text rfl)
      | _ => rfl
    · show Marks uuid builder _ (builder.handleTurnItem turnId item)
      rw [heq]
      exact .nothing
  | collabAgentSpawnEnd callId sender newThreadId prompt model effort status =>
    cases newThreadId <;> exact .inl ⟨_, _, rfl, rfl⟩
  | applyPatchApprovalRequest payload | patchApplyBegin payload | patchApplyEnd payload status
  | dynamicToolCallRequest payload | dynamicToolCallResponse payload =>
    exact .inl ⟨_, _, rfl, upsertItem_eq _ _⟩
  | _ => exact .inl ⟨_, _, rfl, rfl⟩

/-! ## The open turn -/

/-- The open turn is one that `finish_current_turn` keeps. -/
def KeepsOpenTurn (builder : ThreadHistoryBuilder) : Prop :=
  ∀ turn, builder.currentTurn = some turn →
    turn.items ≠ [] ∨ turn.openedExplicitly = true ∨ turn.sawCompaction = true

namespace KeepsOpenTurn

lemma of_none (h : builder.currentTurn = none) : builder.KeepsOpenTurn := by
  intro turn hturn
  rw [h] at hturn
  cases hturn

lemma new : ThreadHistoryBuilder.new.KeepsOpenTurn := of_none rfl

end KeepsOpenTurn

@[simp]
lemma finishCurrentTurn_currentTurn : builder.finishCurrentTurn.currentTurn = none := by
  unfold finishCurrentTurn
  split
  · assumption
  · split <;> rfl

/-- All turns, the open one last. -/
def allTurns (builder : ThreadHistoryBuilder) : List Turn :=
  builder.turns ++ (builder.currentTurn.map PendingTurn.toTurn).toList

lemma KeepsOpenTurn.finishCurrentTurn_turns (h : builder.KeepsOpenTurn) :
    builder.finishCurrentTurn.turns = builder.allTurns := by
  unfold finishCurrentTurn allTurns
  split
  · next hnone => simp [hnone]
  next turn hturn =>
  rw [if_neg]
  · simp [hturn]
  · rintro ⟨hitems, hexplicit, hsaw⟩
    rcases h turn hturn with hkeep | hkeep | hkeep
    · exact hkeep hitems
    · rw [hexplicit] at hkeep
      cases hkeep
    · rw [hsaw] at hkeep
      cases hkeep

lemma upsertTurnItem_ne_nil (items : List ThreadItem) (item : ThreadItem) :
    upsertTurnItem items item ≠ [] := by
  unfold upsertTurnItem
  cases h : modifyFirst (fun existing => decide (existing.id = item.id)) (fun _ => item) items with
  | none => simp
  | some changed =>
    obtain ⟨before, old, after, -, rfl, -, -⟩ := modifyFirst_eq_some h
    simp

namespace KeepsOpenTurn

lemma changeTurn (change : PendingTurn → PendingTurn)
    (hchange : ∀ turn, (change turn).items ≠ [] ∨ (change turn).openedExplicitly = true ∨
      (change turn).sawCompaction = true) : (builder.changeTurn uuid change).KeepsOpenTurn := by
  intro turn hturn
  cases hturn
  exact hchange _

lemma changeActiveTurn (h : builder.KeepsOpenTurn) (change : Turn → Turn)
    (hchange : ∀ turn, (change turn).items = turn.items) :
    (builder.changeActiveTurn change).KeepsOpenTurn := by
  intro turn hturn
  obtain ⟨old, hold, rfl⟩ := Option.map_eq_some_iff.mp hturn
  rcases h old hold with hkeep | hkeep
  · left
    show (change old.toTurn).items ≠ []
    rw [hchange]
    exact hkeep
  · exact .inr hkeep

lemma pushNextItem (item : Text → ThreadItem) : (builder.pushNextItem uuid item).KeepsOpenTurn :=
  changeTurn _ fun turn => .inl (by simp [push, mapTurn])

section

variable (h : builder.KeepsOpenTurn)
include h

lemma upsertAt (address : Address) (item : ThreadItem) :
    (builder.upsertAt uuid address item).KeepsOpenTurn := by
  cases address with
  | current => exact changeTurn _ fun turn => .inl (upsertTurnItem_ne_nil _ _)
  | turn turnId =>
    show (builder.upsertItemInTurnId turnId item).KeepsOpenTurn
    unfold upsertItemInTurnId
    split
    · intro turn hturn
      cases hturn
      exact .inl (upsertTurnItem_ne_nil _ _)
    · split <;> exact h

lemma handleReasoning (text : Text)
    (add : List Text → List Text → List Text × List Text) :
    (builder.handleReasoning uuid text add).KeepsOpenTurn := by
  unfold ThreadHistoryBuilder.handleReasoning
  split
  · exact h
  · split
    · exact changeTurn _ fun turn => .inl (by simp [mapTurn])
    · exact pushNextItem _

lemma handleTurnAborted (turnId : Option Text)
    (completedAt durationMs : Option ℤ) :
    (builder.handleTurnAborted turnId completedAt durationMs).KeepsOpenTurn := by
  have hactive := h.changeActiveTurn (·.applyAbort completedAt durationMs) fun _ => rfl
  unfold ThreadHistoryBuilder.handleTurnAborted
  split
  · split
    · exact hactive
    · split
      · exact h
      · exact hactive
  · exact hactive

lemma handleTurnComplete (turnId : Text)
    (completedAt durationMs : Option ℤ) :
    (builder.handleTurnComplete turnId completedAt durationMs).KeepsOpenTurn := by
  unfold ThreadHistoryBuilder.handleTurnComplete
  split
  · exact of_none finishCurrentTurn_currentTurn
  · split
    · exact h
    · exact of_none finishCurrentTurn_currentTurn

lemma handleEvent (deps : Externals) (uuid : Text) (event : EventMsg) :
    (builder.handleEvent deps uuid event).KeepsOpenTurn := by
  rcases handleEvent_cases deps uuid builder event with ⟨address, item, -, heq⟩ | ⟨-, hmarks⟩
  · rw [heq]
    exact h.upsertAt address item
  generalize builder.handleEvent deps uuid event = result at hmarks ⊢
  cases hmarks with
  | nothing => exact h
  | user message images localImages textElements => exact pushNextItem _
  | pushNextItem item hid hturn => exact pushNextItem item
  | reasoning text add hturn => exact h.handleReasoning text add
  | error message info =>
    unfold handleError
    split
    · exact h.changeActiveTurn _ fun _ => rfl
    · exact h
  | rollback numTurns => exact of_none finishCurrentTurn_currentTurn
  | aborted turnId completedAt durationMs => exact h.handleTurnAborted _ _ _
  | started turnId startedAt =>
    intro turn hturn
    cases hturn
    exact .inr (.inl rfl)
  | complete turnId completedAt durationMs => exact h.handleTurnComplete _ _ _

lemma handleResponseItem (deps : Externals) (uuid : Text)
    (item : ResponseItem) : (builder.handleResponseItem deps uuid item).KeepsOpenTurn := by
  unfold ThreadHistoryBuilder.handleResponseItem
  split
  · split
    · exact h
    · split
      · exact changeTurn _ fun turn => .inl (by simp [push, mapTurn])
      · exact h
  · exact h

lemma handleRolloutItem (deps : Externals) (uuid : Text)
    (item : RolloutItem) : (builder.handleRolloutItem deps uuid item).KeepsOpenTurn := by
  have hnext : builder.countRolloutItem.KeepsOpenTurn := h
  cases item with
  | eventMsg event => exact hnext.handleEvent deps uuid event
  | compacted item => exact changeTurn _ fun turn => .inr (.inr rfl)
  | responseItem item => exact hnext.handleResponseItem deps uuid item
  | turnContext item | sessionMeta => exact hnext

end

end KeepsOpenTurn

/-! ## The live view -/

/-- What a builder is fed. -/
inductive Feed where
  | event (uuid : Text) (event : EventMsg)
  | rolloutItem (uuid : Text) (item : RolloutItem)
  | reset

/-- The builder after one more call. -/
def feed (deps : Externals) (builder : ThreadHistoryBuilder) : Feed → ThreadHistoryBuilder
  | .event uuid event => builder.handleEvent deps uuid event
  | .rolloutItem uuid item => builder.handleRolloutItem deps uuid item
  | .reset => builder.reset

/-- The builder after a list of calls, oldest first. -/
def feedAll (deps : Externals) (feeds : List Feed) : ThreadHistoryBuilder :=
  feeds.foldl (feed deps) new

lemma KeepsOpenTurn.feed (h : builder.KeepsOpenTurn) (deps : Externals) (input : Feed) :
    (builder.feed deps input).KeepsOpenTurn := by
  cases input with
  | event uuid event => exact h.handleEvent deps uuid event
  | rolloutItem uuid item => exact h.handleRolloutItem deps uuid item
  | reset => exact KeepsOpenTurn.new

lemma keepsOpenTurn_foldl (h : builder.KeepsOpenTurn) (deps : Externals) (feeds : List Feed) :
    (feeds.foldl (feed deps) builder).KeepsOpenTurn := by
  induction feeds generalizing builder with
  | nil => exact h
  | cons input feeds ih => exact ih (h.feed deps input)

lemma activeTurnSnapshot_eq : builder.activeTurnSnapshot = builder.allTurns.getLast? := by
  unfold activeTurnSnapshot allTurns
  cases h : builder.currentTurn with
  | none | some turn => simp

lemma activeTurnPosition_eq :
    builder.activeTurnPosition =
      if builder.allTurns = [] then none else some (builder.allTurns.length - 1) := by
  unfold activeTurnPosition allTurns
  cases h : builder.currentTurn with
  | none | some turn => simp

/-- After any calls, there is an active turn if and only if it has a position, and the turn that is
shown as active is the one that `finish` returns at that position. -/
theorem live_view_eq_replay (deps : Externals) (feeds : List Feed) :
    ((feedAll deps feeds).activeTurnSnapshot.isSome ↔
      (feedAll deps feeds).activeTurnPosition.isSome) ∧
    ∀ turn i, (feedAll deps feeds).activeTurnSnapshot = some turn →
      (feedAll deps feeds).activeTurnPosition = some i →
      (feedAll deps feeds).finish[i]? = some turn := by
  have hkeeps : (feedAll deps feeds).KeepsOpenTurn :=
    keepsOpenTurn_foldl KeepsOpenTurn.new deps feeds
  have hfinish : (feedAll deps feeds).finish = (feedAll deps feeds).allTurns :=
    hkeeps.finishCurrentTurn_turns
  rw [activeTurnSnapshot_eq, activeTurnPosition_eq, hfinish]
  by_cases hempty : (feedAll deps feeds).allTurns = []
  · simp [hempty]
  · rw [if_neg hempty]
    refine ⟨by simp [List.getLast?_isSome, hempty], fun turn i hturn hi => ?_⟩
    rw [← Option.some.inj hi, ← hturn, List.getLast?_eq_getElem?]

end ThreadHistoryBuilder

/-- No command and no hook prompt is parsed. -/
def noParsers : Externals where
  history := ⟨fun _ => none, fun _ => false, fun policy => policy⟩
  shlexJoin := fun _ => []
  parseCommand := fun _ => []
  home := none

end Supercodex.ThreadHistory
