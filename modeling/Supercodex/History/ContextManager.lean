import Supercodex.History.Normalize

/-!
# The conversation history (`core/src/context_manager/history.rs`)

`ContextManager` keeps the items of a conversation, oldest first. Recording filters and truncates
items, a compaction replaces them, and a rollback cuts the history before one of its instruction
turns, together with the injected context right before that turn.
-/

namespace Supercodex.History

/-- `TurnContextItem`, with the fields that the replay reads. -/
structure TurnContextItem where
  turnId : Option Text
  model : Text
  realtimeActive : Option Bool
deriving DecidableEq

/-- `ContextManager`, without its token counts. -/
structure ContextManager where
  items : List ResponseItem
  historyVersion : ℕ
  referenceContextItem : Option TurnContextItem
deriving DecidableEq

/-- `is_api_message`. -/
def isApiMessage : ResponseItem → Bool
  | .message _ role _ _ _ => role ≠ "system".toList
  | .ghostSnapshot _ | .other => false
  | _ => true

/-- `matches!(item, ResponseItem::GhostSnapshot { .. })`. -/
def isGhostSnapshot : ResponseItem → Bool
  | .ghostSnapshot _ => true
  | _ => false

/-- `ContextManager::process_item`. -/
def Externals.processItem (deps : Externals) (policy : TruncationPolicy) :
    ResponseItem → ResponseItem
  | .functionCallOutput callId output =>
    .functionCallOutput callId
      (truncateFunctionOutputPayload output (deps.serializationBudget policy))
  | .customToolCallOutput callId name output =>
    .customToolCallOutput callId name
      (truncateFunctionOutputPayload output (deps.serializationBudget policy))
  | item => item

/-- `user_message_positions`. -/
def Externals.userMessagePositions (deps : Externals) (items : List ResponseItem) : List ℕ :=
  (items.zipIdx.filter fun (item, _) => deps.isUserTurnBoundary item).map Prod.snd

namespace ContextManager

/-- `ContextManager::new`. -/
def new : ContextManager := ⟨[], 0, none⟩

/-- `ContextManager::replace`. -/
def replace (cm : ContextManager) (items : List ResponseItem) : ContextManager :=
  { cm with items := items, historyVersion := saturatingAdd cm.historyVersion 1 }

/-- `ContextManager::record_items`. -/
def recordItems (deps : Externals) (policy : TruncationPolicy) (cm : ContextManager)
    (items : List ResponseItem) : ContextManager :=
  items.foldl (fun cm item =>
    if !isApiMessage item && !isGhostSnapshot item then cm
    else { cm with items := cm.items ++ [deps.processItem policy item] }) cm

/-- `ContextManager::remove_first_item`. -/
def removeFirstItem (cm : ContextManager) : ContextManager :=
  match cm.items with
  | [] => cm
  | removed :: items => { cm with items := removeCorrespondingFor items removed }

/-- `ContextManager::remove_last_item`. -/
def removeLastItem (cm : ContextManager) : ContextManager × Bool :=
  match cm.items.getLast? with
  | some removed =>
    ({ cm with
        items := removeCorrespondingFor cm.items.dropLast removed
        historyVersion := saturatingAdd cm.historyVersion 1 }, true)
  | none => (cm, false)

/-- Is the item context that a rollback removes together with the turn after it? -/
def isPreTurnContextUpdate (deps : Externals) : ResponseItem → Bool
  | .message _ role content _ _ =>
    (role = "developer".toList && isContextualDevMessageContent content) ||
      (role = "user".toList && deps.isContextualUserMessageContent content)
  | _ => false

/-- Is the item a developer message that mixes context with persistent text? -/
def isMixedDevMessage : ResponseItem → Bool
  | .message _ role content _ _ =>
    role = "developer".toList && isContextualDevMessageContent content &&
      hasNonContextualDevMessageContent content
  | _ => false

/-- `ContextManager::trim_pre_turn_context_updates`. -/
def trimPreTurnContextUpdates (deps : Externals) (snapshot : List ResponseItem)
    (firstInstructionTurnIdx : ℕ) (cm : ContextManager) : ℕ → ContextManager × ℕ
  | 0 => (cm, 0)
  | cutIdx + 1 =>
    if firstInstructionTurnIdx < cutIdx + 1 then
      match snapshot[cutIdx]? with
      | some item =>
        if isPreTurnContextUpdate deps item then
          let cm := if isMixedDevMessage item then { cm with referenceContextItem := none } else cm
          trimPreTurnContextUpdates deps snapshot firstInstructionTurnIdx cm cutIdx
        else (cm, cutIdx + 1)
      | none => (cm, cutIdx + 1)
    else (cm, cutIdx + 1)

/-- `ContextManager::drop_last_n_user_turns`. -/
def dropLastNUserTurns (deps : Externals) (cm : ContextManager) (numTurns : ℕ) : ContextManager :=
  if numTurns = 0 then cm
  else
    let snapshot := cm.items
    let userPositions := deps.userMessagePositions snapshot
    match userPositions with
    | [] => cm.replace snapshot
    | firstInstructionTurnIdx :: _ =>
      let cutIdx :=
        if userPositions.length ≤ numTurns then firstInstructionTurnIdx
        else userPositions.getD (userPositions.length - numTurns) firstInstructionTurnIdx
      let (cm, cutIdx) := trimPreTurnContextUpdates deps snapshot firstInstructionTurnIdx cm cutIdx
      cm.replace (snapshot.take cutIdx)

end ContextManager

end Supercodex.History
