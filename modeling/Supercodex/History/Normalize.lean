import Supercodex.History.ResponseItem

/-!
# Pairing of calls and outputs (`core/src/context_manager/normalize.rs`)

Before a prompt is sent, every call gets an output and outputs without a call are dropped.
`error_or_panic` panics in a build with debug assertions and only logs otherwise, so the passes
below are functions into `Except Text`: an error is the text of the panic.
-/

namespace Supercodex.History

/-- `error_or_panic`. -/
def errorOrPanic (debugAssertions : Bool) (message : Text) : Except Text Unit :=
  if debugAssertions then .error message else .ok ()

/-- `error_or_panic`, where there is an error to report. -/
def reportError (debugAssertions : Bool) : Option Text → Except Text Unit
  | some message => errorOrPanic debugAssertions message
  | none => .ok ()

/-- `FunctionCallOutputPayload::from_text`. -/
def FunctionCallOutputPayload.fromText (content : Text) : FunctionCallOutputPayload :=
  ⟨.text content, none⟩

/-! ## `ensure_call_outputs_present` -/

/-- Is there a `FunctionCallOutput` with this call id? -/
def hasFunctionCallOutput (items : List ResponseItem) (callId : Text) : Bool :=
  items.any fun
    | .functionCallOutput existing _ => existing = callId
    | _ => false

/-- Is there a `ToolSearchOutput` with this call id? -/
def hasToolSearchOutput (items : List ResponseItem) (callId : Text) : Bool :=
  items.any fun
    | .toolSearchOutput (some existing) _ _ _ => existing = callId
    | _ => false

/-- Is there a `CustomToolCallOutput` with this call id? -/
def hasCustomToolCallOutput (items : List ResponseItem) (callId : Text) : Bool :=
  items.any fun
    | .customToolCallOutput existing _ _ => existing = callId
    | _ => false

/-- The output that stands in for a missing one, and the error that is reported about it. -/
structure MissingOutput where
  output : ResponseItem
  error : Option Text
deriving DecidableEq

/-- The `FunctionCallOutput` of a call that was aborted. -/
def abortedFunctionCallOutput (callId : Text) : ResponseItem :=
  .functionCallOutput callId (.fromText "aborted".toList)

/-- One turn of the loop over the items: what is missing for this item. -/
def missingOutput (items : List ResponseItem) : ResponseItem → Option MissingOutput
  | .functionCall _ _ _ _ callId =>
    if hasFunctionCallOutput items callId then none
    else some ⟨abortedFunctionCallOutput callId, none⟩
  | .toolSearchCall _ (some callId) _ _ _ =>
    if hasToolSearchOutput items callId then none
    else some ⟨.toolSearchOutput (some callId) "completed".toList "client".toList [], none⟩
  | .customToolCall _ _ callId _ _ =>
    if hasCustomToolCallOutput items callId then none
    else some ⟨.customToolCallOutput callId none (.fromText "aborted".toList),
      some ("Custom tool call output is missing for call id: ".toList ++ callId)⟩
  | .localShellCall _ (some callId) _ _ =>
    if hasFunctionCallOutput items callId then none
    else some ⟨abortedFunctionCallOutput callId,
      some ("Local shell call output is missing for call id: ".toList ++ callId)⟩
  | _ => none

section
variable (debugAssertions : Bool)

/-- The loop that collects the missing outputs with the positions of their calls. -/
def missingOutputsToInsert (items : List ResponseItem) :
    List (ResponseItem × ℕ) → Except Text (List (ℕ × ResponseItem))
  | [] => .ok []
  | (item, idx) :: rest =>
    match missingOutput items item with
    | none => missingOutputsToInsert items rest
    | some missing => do
      reportError debugAssertions missing.error
      let later ← missingOutputsToInsert items rest
      return (idx, missing.output) :: later

/-- The insertions, in reverse index order. -/
def insertOutputs (missing : List (ℕ × ResponseItem)) (items : List ResponseItem) :
    List ResponseItem :=
  missing.reverse.foldl (fun items (idx, output) => items.insertIdx (idx + 1) output) items

/-- `ensure_call_outputs_present`. -/
def ensureCallOutputsPresent (items : List ResponseItem) : Except Text (List ResponseItem) := do
  let missing ← missingOutputsToInsert debugAssertions items items.zipIdx
  return insertOutputs missing items

/-! ## `remove_orphan_outputs` -/

/-- The ids of the `FunctionCall` items. -/
def functionCallIds (items : List ResponseItem) : List Text :=
  items.filterMap fun
    | .functionCall _ _ _ _ callId => some callId
    | _ => none

/-- The ids of the `ToolSearchCall` items that have one. -/
def toolSearchCallIds (items : List ResponseItem) : List Text :=
  items.filterMap fun
    | .toolSearchCall _ (some callId) _ _ _ => some callId
    | _ => none

/-- The ids of the `LocalShellCall` items that have one. -/
def localShellCallIds (items : List ResponseItem) : List Text :=
  items.filterMap fun
    | .localShellCall _ (some callId) _ _ => some callId
    | _ => none

/-- The ids of the `CustomToolCall` items. -/
def customToolCallIds (items : List ResponseItem) : List Text :=
  items.filterMap fun
    | .customToolCall _ _ callId _ _ => some callId
    | _ => none

/-- The error about an item that `retain` drops. -/
def orphanError (items : List ResponseItem) : ResponseItem → Option Text
  | .functionCallOutput callId _ =>
    if (functionCallIds items).contains callId || (localShellCallIds items).contains callId then none
    else some ("Orphan function call output for call id: ".toList ++ callId)
  | .customToolCallOutput callId _ _ =>
    if (customToolCallIds items).contains callId then none
    else some ("Orphan custom tool call output for call id: ".toList ++ callId)
  | .toolSearchOutput callId _ execution _ =>
    if execution = "server".toList then none
    else match callId with
      | some callId =>
        if (toolSearchCallIds items).contains callId then none
        else some ("Orphan tool search output for call id: ".toList ++ callId)
      | none => none
  | _ => none

/-- `Vec::retain` with the closure of `remove_orphan_outputs`. -/
def retainOutputs (items : List ResponseItem) : List ResponseItem → Except Text (List ResponseItem)
  | [] => .ok []
  | item :: rest =>
    match orphanError items item with
    | none => do
      let kept ← retainOutputs items rest
      return item :: kept
    | some message => do
      errorOrPanic debugAssertions message
      retainOutputs items rest

/-- `remove_orphan_outputs`. -/
def removeOrphanOutputs (items : List ResponseItem) : Except Text (List ResponseItem) :=
  retainOutputs debugAssertions items items

/-! ## `strip_images_when_unsupported` and the whole pass -/

/-- `InputModality`. -/
inductive InputModality where
  | text | image
deriving DecidableEq

/-- `IMAGE_CONTENT_OMITTED_PLACEHOLDER`. -/
def imageContentOmittedPlaceholder : Text :=
  "image content omitted because you do not support image input".toList

/-- A content item of a message without its image. -/
def ContentItem.stripImage : ContentItem → ContentItem
  | .inputImage _ _ => .inputText imageContentOmittedPlaceholder
  | item => item

/-- A tool output without its images. -/
def FunctionCallOutputPayload.stripImages (output : FunctionCallOutputPayload) :
    FunctionCallOutputPayload :=
  match output.body with
  | .contentItems items =>
    { output with body := .contentItems (items.map fun
        | .inputImage _ _ => .inputText imageContentOmittedPlaceholder
        | item => item) }
  | .text _ => output

/-- One turn of the loop of `strip_images_when_unsupported`. -/
def ResponseItem.stripImages : ResponseItem → ResponseItem
  | .message id role content endTurn phase =>
    .message id role (content.map ContentItem.stripImage) endTurn phase
  | .functionCallOutput callId output => .functionCallOutput callId output.stripImages
  | .customToolCallOutput callId name output => .customToolCallOutput callId name output.stripImages
  | .imageGenerationCall id status revisedPrompt _ => .imageGenerationCall id status revisedPrompt []
  | item => item

/-- `strip_images_when_unsupported`. -/
def stripImagesWhenUnsupported (inputModalities : List InputModality)
    (items : List ResponseItem) : List ResponseItem :=
  if inputModalities.contains .image then items else items.map ResponseItem.stripImages

/-- The two passes of `normalize_history` over calls and outputs. -/
def pairCallOutputs (items : List ResponseItem) : Except Text (List ResponseItem) := do
  let items ← ensureCallOutputsPresent debugAssertions items
  removeOrphanOutputs debugAssertions items

/-- `ContextManager::normalize_history`. -/
def normalizeHistory (inputModalities : List InputModality) (items : List ResponseItem) :
    Except Text (List ResponseItem) := do
  let items ← pairCallOutputs debugAssertions items
  return stripImagesWhenUnsupported inputModalities items

end

/-! ## `remove_corresponding_for` -/

/-- `remove_first_matching`. -/
def removeFirstMatching (predicate : ResponseItem → Bool) (items : List ResponseItem) : List ResponseItem :=
  items.eraseP predicate

/-- `matches!(i, ResponseItem::FunctionCall { call_id: existing, .. } if existing == call_id)`. -/
def isFunctionCallOf (callId : Text) : ResponseItem → Bool
  | .functionCall _ _ _ _ existing => existing = callId
  | _ => false

/-- The same for a `LocalShellCall` with a call id. -/
def isLocalShellCallOf (callId : Text) : ResponseItem → Bool
  | .localShellCall _ (some existing) _ _ => existing = callId
  | _ => false

/-- The same for a `FunctionCallOutput`. -/
def isFunctionCallOutputOf (callId : Text) : ResponseItem → Bool
  | .functionCallOutput existing _ => existing = callId
  | _ => false

/-- The same for a `ToolSearchCall` with a call id. -/
def isToolSearchCallOf (callId : Text) : ResponseItem → Bool
  | .toolSearchCall _ (some existing) _ _ _ => existing = callId
  | _ => false

/-- The same for a `ToolSearchOutput` with a call id. -/
def isToolSearchOutputOf (callId : Text) : ResponseItem → Bool
  | .toolSearchOutput (some existing) _ _ _ => existing = callId
  | _ => false

/-- The same for a `CustomToolCall`. -/
def isCustomToolCallOf (callId : Text) : ResponseItem → Bool
  | .customToolCall _ _ existing _ _ => existing = callId
  | _ => false

/-- The same for a `CustomToolCallOutput`. -/
def isCustomToolCallOutputOf (callId : Text) : ResponseItem → Bool
  | .customToolCallOutput existing _ _ => existing = callId
  | _ => false

/-- `remove_corresponding_for`. -/
def removeCorrespondingFor (items : List ResponseItem) : ResponseItem → List ResponseItem
  | .functionCall _ _ _ _ callId => removeFirstMatching (isFunctionCallOutputOf callId) items
  | .functionCallOutput callId _ =>
    if items.any (isFunctionCallOf callId) then items.eraseP (isFunctionCallOf callId)
    else items.eraseP (isLocalShellCallOf callId)
  | .toolSearchCall _ (some callId) _ _ _ => removeFirstMatching (isToolSearchOutputOf callId) items
  | .toolSearchOutput (some callId) _ _ _ => removeFirstMatching (isToolSearchCallOf callId) items
  | .customToolCall _ _ callId _ _ => removeFirstMatching (isCustomToolCallOutputOf callId) items
  | .customToolCallOutput callId _ _ => removeFirstMatching (isCustomToolCallOf callId) items
  | .localShellCall _ (some callId) _ _ => removeFirstMatching (isFunctionCallOutputOf callId) items
  | _ => items

end Supercodex.History
