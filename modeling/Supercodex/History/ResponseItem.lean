import Supercodex.History.Truncation

/-!
# Response items (`protocol/src/models.rs`, `core/src/event_mapping.rs`, `core/src/compact.rs`)

The items of a conversation, which of them are context that was injected and not written by the
user, and the history that a compaction without a replacement history stands for. Values that no
function here looks into (JSON values, shell actions, ghost commits) are carried as their text.
-/

namespace Supercodex.History

open Text

/-! ## The items -/

/-- `ImageDetail`. -/
inductive ImageDetail where
  | auto | low | high | original
deriving DecidableEq

/-- `ContentItem`. -/
inductive ContentItem where
  | inputText (text : Text)
  | inputImage (imageUrl : Text) (detail : Option ImageDetail)
  | outputText (text : Text)
deriving DecidableEq

/-- `FunctionCallOutputContentItem`. -/
inductive FunctionCallOutputContentItem where
  | inputText (text : Text)
  | inputImage (imageUrl : Text) (detail : Option ImageDetail)
deriving DecidableEq

/-- `FunctionCallOutputBody`. -/
inductive FunctionCallOutputBody where
  | text (content : Text)
  | contentItems (items : List FunctionCallOutputContentItem)
deriving DecidableEq

/-- `FunctionCallOutputPayload`. -/
structure FunctionCallOutputPayload where
  body : FunctionCallOutputBody
  success : Option Bool
deriving DecidableEq

/-- `MessagePhase`. -/
inductive MessagePhase where
  | commentary | finalAnswer
deriving DecidableEq

/-- `LocalShellStatus`. -/
inductive LocalShellStatus where
  | completed | inProgress | incomplete
deriving DecidableEq

/-- `ResponseItem`. -/
inductive ResponseItem where
  | message (id : Option Text) (role : Text) (content : List ContentItem)
      (endTurn : Option Bool) (phase : Option MessagePhase)
  | reasoning (id : Text) (summary : List Text) (content : Option (List Text))
      (encryptedContent : Option Text)
  | localShellCall (id callId : Option Text) (status : LocalShellStatus) (action : Text)
  | functionCall (id : Option Text) (name : Text) (nameSpace : Option Text)
      (arguments callId : Text)
  | toolSearchCall (id callId status : Option Text) (execution arguments : Text)
  | functionCallOutput (callId : Text) (output : FunctionCallOutputPayload)
  | customToolCall (id status : Option Text) (callId name input : Text)
  | customToolCallOutput (callId : Text) (name : Option Text)
      (output : FunctionCallOutputPayload)
  | toolSearchOutput (callId : Option Text) (status execution : Text) (tools : List Text)
  | webSearchCall (id status action : Option Text)
  | imageGenerationCall (id status : Text) (revisedPrompt : Option Text) (result : Text)
  | ghostSnapshot (ghostCommit : Text)
  | compaction (encryptedContent : Text)
  | other
deriving DecidableEq

/-- A message of the user with one text. -/
def ResponseItem.user (text : Text) : ResponseItem :=
  .message none "user".toList [.inputText text] none none

/-! ## Truncation of tool outputs (`utils/output-truncation/src/lib.rs`) -/

/-- The variables of the loop in `truncate_function_output_items_with_policy`. -/
structure OutputTruncation where
  out : List FunctionCallOutputContentItem
  remainingBudget : ℕ
  omittedTextItems : ℕ
deriving DecidableEq

/-- One turn of that loop. -/
def OutputTruncation.step (policy : TruncationPolicy) (s : OutputTruncation) :
    FunctionCallOutputContentItem → OutputTruncation
  | .inputText text =>
    if s.remainingBudget = 0 then
      { s with omittedTextItems := s.omittedTextItems + 1 }
    else
      let cost := match policy with
        | .bytes _ => byteLen text
        | .tokens _ => approxTokenCount text
      if cost ≤ s.remainingBudget then
        { s with out := s.out ++ [.inputText text], remainingBudget := s.remainingBudget - cost }
      else
        let snippet := match policy with
          | .bytes _ => truncateText text (.bytes s.remainingBudget)
          | .tokens _ => truncateText text (.tokens s.remainingBudget)
        if snippet = [] then
          { s with omittedTextItems := s.omittedTextItems + 1, remainingBudget := 0 }
        else
          { s with out := s.out ++ [.inputText snippet], remainingBudget := 0 }
  | .inputImage imageUrl detail => { s with out := s.out ++ [.inputImage imageUrl detail] }

/-- `truncate_function_output_items_with_policy`. -/
def truncateFunctionOutputItemsWithPolicy (items : List FunctionCallOutputContentItem)
    (policy : TruncationPolicy) : List FunctionCallOutputContentItem :=
  let budget := match policy with
    | .bytes _ => policy.byteBudget
    | .tokens _ => policy.tokenBudget
  let final := items.foldl (OutputTruncation.step policy) ⟨[], budget, 0⟩
  if 0 < final.omittedTextItems then
    final.out ++ [.inputText ("[omitted ".toList ++ Nat.toDigits 10 final.omittedTextItems ++
      " text items ...]".toList)]
  else final.out

/-- `truncate_function_output_payload`. -/
def truncateFunctionOutputPayload (output : FunctionCallOutputPayload)
    (policy : TruncationPolicy) : FunctionCallOutputPayload :=
  let body := match output.body with
    | .text content => .text (truncateText content policy)
    | .contentItems items => .contentItems (truncateFunctionOutputItemsWithPolicy items policy)
  ⟨body, output.success⟩

/-! ## Injected context -/

/-- What the history relies on and other packages compute. -/
structure Externals where
  /-- `from_xml_str::<HookPromptXml>`: the text and the hook run id of a hook prompt. -/
  hookPromptXml : Text → Option (Text × Text)
  /-- Does `serde_json::from_str::<InterAgentCommunication>` succeed? -/
  interAgentCommunication : Text → Bool
  /-- `policy * 1.2`, computed in floating point. -/
  serializationBudget : TruncationPolicy → TruncationPolicy

/-- Does the text begin with `start`, up to ASCII case? -/
def startsWithIgnoreAsciiCase (start t : Text) : Bool :=
  (t.take start.length).map Char.toLower = start.map Char.toLower

/-- Does the text end with `stop`, up to ASCII case? -/
def endsWithIgnoreAsciiCase (stop t : Text) : Bool :=
  (t.drop (t.length - stop.length)).map Char.toLower = stop.map Char.toLower

/-- `ContextualUserFragment::matches_text`, for a fragment with the given markers. -/
def matchesText (startMarker endMarker text : Text) : Bool :=
  if startMarker = [] || endMarker = [] then false
  else
    let trimmed := trimStart text
    startsWithIgnoreAsciiCase startMarker trimmed &&
      endsWithIgnoreAsciiCase endMarker (trimEnd trimmed)

/-- The markers of `CONTEXTUAL_USER_FRAGMENTS`. -/
def contextualUserFragments : List (Text × Text) :=
  [ ("# AGENTS.md instructions for ".toList, "</INSTRUCTIONS>".toList),
    ("<environment_context>".toList, "</environment_context>".toList),
    ("<skill>".toList, "</skill>".toList),
    ("<user_shell_command>".toList, "</user_shell_command>".toList),
    ("<turn_aborted>".toList, "</turn_aborted>".toList),
    ("<subagent_notification>".toList, "</subagent_notification>".toList) ]

/-- `is_standard_contextual_user_text`. -/
def isStandardContextualUserText (text : Text) : Bool :=
  contextualUserFragments.any fun (startMarker, endMarker) => matchesText startMarker endMarker text

/-- `CONTEXTUAL_DEVELOPER_PREFIXES`. -/
def contextualDeveloperPrefixes : List Text :=
  [ "<permissions instructions>".toList, "<model_switch>".toList, "<collaboration_mode>".toList,
    "<realtime_conversation>".toList, "<personality_spec>".toList ]

/-- `is_contextual_dev_fragment`. -/
def isContextualDevFragment : ContentItem → Bool
  | .inputText text =>
    contextualDeveloperPrefixes.any fun start => startsWithIgnoreAsciiCase start (trimStart text)
  | .inputImage .. | .outputText _ => false

/-- `is_contextual_dev_message_content`. -/
def isContextualDevMessageContent (message : List ContentItem) : Bool :=
  message.any isContextualDevFragment

/-- `has_non_contextual_dev_message_content`. -/
def hasNonContextualDevMessageContent (message : List ContentItem) : Bool :=
  message.any fun item => !isContextualDevFragment item

namespace Externals

variable (deps : Externals)

/-- `parse_hook_prompt_fragment`. -/
def parseHookPromptFragment (text : Text) : Option (Text × Text) :=
  match deps.hookPromptXml (trim text) with
  | some (text, hookRunId) => if trim hookRunId = [] then none else some (text, hookRunId)
  | none => none

/-- `is_contextual_user_fragment`. -/
def isContextualUserFragment : ContentItem → Bool
  | .inputText text =>
    (deps.parseHookPromptFragment text).isSome || isStandardContextualUserText text
  | .inputImage .. | .outputText _ => false

/-- `is_contextual_user_message_content`. -/
def isContextualUserMessageContent (message : List ContentItem) : Bool :=
  message.any deps.isContextualUserFragment

/-- `InterAgentCommunication::is_message_content`. -/
def isInterAgentInstructionContent : List ContentItem → Bool
  | [.inputText text] | [.outputText text] => deps.interAgentCommunication text
  | _ => false

/-- `is_user_turn_boundary`. -/
def isUserTurnBoundary : ResponseItem → Bool
  | .message _ role content _ _ =>
    (role = "user".toList && !deps.isContextualUserMessageContent content) ||
      (role = "assistant".toList && deps.isInterAgentInstructionContent content)
  | _ => false

/-- The loop of `parse_visible_hook_prompt_message`. -/
def hookPromptFragments : List ContentItem → Option (List (Text × Text))
  | [] => some []
  | .inputText text :: rest =>
    match deps.parseHookPromptFragment text with
    | some fragment => (hookPromptFragments rest).map (fragment :: ·)
    | none => if isStandardContextualUserText text then hookPromptFragments rest else none
  | .inputImage .. :: _ | .outputText _ :: _ => none

/-- `parse_visible_hook_prompt_message`. -/
def parseVisibleHookPromptMessage (content : List ContentItem) : Option (List (Text × Text)) :=
  match deps.hookPromptFragments content with
  | some [] | none => none
  | some fragments => some fragments

end Externals

/-! ## What the user wrote -/

/-- `UserInput`. -/
inductive UserInput where
  | text (text : Text)
  | image (imageUrl : Text)
deriving DecidableEq

/-- `UserMessageItem::message`. -/
def userMessageText (content : List UserInput) : Text :=
  content.flatMap fun
    | .text text => text
    | .image _ => []

/-- Is the content item an image? -/
def ContentItem.isInputImage : ContentItem → Bool
  | .inputImage .. => true
  | .inputText _ | .outputText _ => false

/-- `is_local_image_open_tag_text` or `is_image_open_tag_text`. -/
def isImageOpenTagText (text : Text) : Bool :=
  text = "<image>".toList ||
    match stripPrefix "<image name=".toList text with
    | some rest => ['>'].isSuffixOf rest
    | none => false

/-- `is_local_image_close_tag_text` and `is_image_close_tag_text`. -/
def isImageCloseTagText (text : Text) : Bool := text = "</image>".toList

/-- The loop of `parse_user_message`; `before` says whether an image stands right before. -/
def parseUserInputs : Bool → List ContentItem → List UserInput
  | _, [] => []
  | before, .inputText text :: rest =>
    let after := rest.head?.any ContentItem.isInputImage
    if (isImageOpenTagText text && after) || (isImageCloseTagText text && before) then
      parseUserInputs false rest
    else .text text :: parseUserInputs false rest
  | _, .inputImage imageUrl _ :: rest => .image imageUrl :: parseUserInputs true rest
  | _, .outputText _ :: rest => parseUserInputs false rest

/-- `TurnItem`. What an item that is not a user message holds is not read here. -/
inductive TurnItem where
  | userMessage (content : List UserInput)
  | hookPrompt (fragments : List (Text × Text))
  | agentMessage | reasoning | webSearch | imageGeneration
deriving DecidableEq

namespace Externals

variable (deps : Externals)

/-- `parse_user_message`. -/
def parseUserMessage (message : List ContentItem) : Option (List UserInput) :=
  if deps.isContextualUserMessageContent message then none
  else some (parseUserInputs false message)

/-- `parse_turn_item`. -/
def parseTurnItem : ResponseItem → Option TurnItem
  | .message _ role content _ _ =>
    if role = "user".toList then
      match deps.parseVisibleHookPromptMessage content with
      | some fragments => some (.hookPrompt fragments)
      | none => (deps.parseUserMessage content).map .userMessage
    else if role = "assistant".toList then some .agentMessage
    else none
  | .reasoning .. => some .reasoning
  | .webSearchCall .. => some .webSearch
  | .imageGenerationCall .. => some .imageGeneration
  | _ => none

end Externals

/-! ## Legacy compaction -/

/-- `SUMMARY_PREFIX`. -/
def summaryMarker : Text :=
  ("Another language model started to solve this problem and produced a summary of its " ++
    "thinking process. You also have access to the state of the tools that were used by that " ++
    "language model. Use this to build on the work that has already been done and avoid " ++
    "duplicating work. Here is the summary produced by the other language model, use the " ++
    "information in this summary to assist with your own analysis:").toList

/-- `is_summary_message`. -/
def isSummaryMessage (message : Text) : Bool := (summaryMarker ++ ['\n']).isPrefixOf message

/-- `collect_user_messages`. -/
def Externals.collectUserMessages (deps : Externals) (items : List ResponseItem) : List Text :=
  items.filterMap fun item =>
    match deps.parseTurnItem item with
    | some (.userMessage content) =>
      if isSummaryMessage (userMessageText content) then none else some (userMessageText content)
    | _ => none

/-- `COMPACT_USER_MESSAGE_MAX_TOKENS`. -/
def compactUserMessageMaxTokens : ℕ := 20000

/-- The loop of `build_compacted_history_with_limit` over the messages, newest first. -/
def selectMessages : ℕ → List Text → List Text
  | _, [] => []
  | remaining, message :: older =>
    if remaining = 0 then []
    else
      let tokens := approxTokenCount message
      if tokens ≤ remaining then message :: selectMessages (remaining - tokens) older
      else [truncateText message (.tokens remaining)]

/-- `build_compacted_history_with_limit`. -/
def buildCompactedHistoryWithLimit (history : List ResponseItem) (userMessages : List Text)
    (summaryText : Text) (maxTokens : ℕ) : List ResponseItem :=
  let selectedMessages := (selectMessages maxTokens userMessages.reverse).reverse
  let summaryText := if summaryText = [] then "(no summary available)".toList else summaryText
  history ++ selectedMessages.map ResponseItem.user ++ [ResponseItem.user summaryText]

/-- `build_compacted_history`. -/
def buildCompactedHistory (initialContext : List ResponseItem) (userMessages : List Text)
    (summaryText : Text) : List ResponseItem :=
  buildCompactedHistoryWithLimit initialContext userMessages summaryText
    compactUserMessageMaxTokens

end Supercodex.History
