import Supercodex.Composer.TextArea
import Supercodex.Library.Replace

/-!
# The composer (`tui/src/bottom_pane/chat_composer.rs`)

Images and large pastes stand in the text as elements, whose texts are labels. The images are numbered
after the remote ones, and the text of a large paste is kept aside until the text is submitted.
-/

namespace Supercodex.Composer

open Positions Document Text

/-- `AttachedImage`. -/
structure AttachedImage where
  placeholder : Text
  path : Text
deriving DecidableEq

/-- `ChatComposer`, as far as its text goes. -/
structure ChatComposer where
  textarea : TextArea
  isBashMode : Bool
  pendingPastes : List (Text × Text)
  /-- `HashMap<usize, usize>`, whose entries begin with 0. -/
  largePasteCounters : ℕ → ℕ
  attachedImages : List AttachedImage
  remoteImageUrls : List Text
  selectedRemoteImageIndex : Option ℕ

/-- What the composer is set up with. -/
structure Config where
  slashCommandsEnabled : Bool
  imagePasteEnabled : Bool
  /-- `is_known_slash_name`, by the commands that are built in. -/
  isKnownSlashName : Text → Bool
  /-- The path of an image that a pasted text names: `normalize_pasted_path` and `image_dimensions`. -/
  pastedImage : Text → Option Text

/-- `LARGE_PASTE_CHAR_THRESHOLD`. -/
def largePasteCharThreshold : ℕ := 1000

/-- `local_image_label_text`. -/
def localImageLabelText (labelNumber : ℕ) : Text := "[Image #".toList ++ Nat.toDigits 10 labelNumber ++ [']']

/-- The element of a text that goes with a message, `TextElement` of the protocol. -/
structure UserTextElement where
  byteRange : Span
  placeholder : Option Text
deriving DecidableEq

/-- `TextElement::placeholder`. -/
def UserTextElement.placeholderIn (elem : UserTextElement) (text : Text) : Option Text :=
  elem.placeholder.or (get text elem.byteRange)

/-- `element_payloads`. -/
def TextArea.elementPayloads (s : TextArea) : List Text := s.elements.filterMap fun e => get s.text e.range

/-- `text_elements`. -/
def TextArea.textElements (s : TextArea) : List UserTextElement :=
  s.elements.map fun e => ⟨e.range, get s.text e.range⟩

namespace ChatComposer

/-- An empty composer. -/
def new : ChatComposer where
  textarea := .new
  isBashMode := false
  pendingPastes := []
  largePasteCounters := fun _ => 0
  attachedImages := []
  remoteImageUrls := []
  selectedRemoteImageIndex := none

/-! ## Slash commands -/

/-- `parse_slash_name`. -/
def parseSlashName (line : Text) : Option (Text × Text × ℕ) := do
  let stripped ← stripPrefix ['/'] line
  let name := stripped.takeWhile (!isWhitespace ·)
  if name = [] then none
  else
    let restUntrimmed := stripped.dropWhile (!isWhitespace ·)
    let rest := trimStart restUntrimmed
    some (name, rest, len name + (len restUntrimmed - len rest) + 1)

/-- `slash_command_element_range`. -/
def slashCommandElementRange (config : Config) (c : ChatComposer) (firstLine : Text) : Option Span :=
  if c.isBashMode then none
  else do
    let (name, _, _) ← parseSlashName firstLine
    if contains ['/'] name then none
    else
      let elementEnd := 1 + len name
      let hasSpaceAfter := ((splitAt firstLine elementEnd).bind fun (_, tail) => tail.head?).any isWhitespace
      if !hasSpaceAfter then none
      else if config.isKnownSlashName name then some ⟨0, elementEnd⟩
      else none

/-- `sync_slash_command_elements`. -/
def syncSlashCommandElements (config : Config) (c : ChatComposer) : ChatComposer :=
  if !config.slashCommandsEnabled then c
  else
    let text := c.textarea.text
    let firstLine := text.takeWhile (· ≠ '\n')
    let desiredRange := c.slashCommandElementRange config firstLine
    let slashElements := c.textarea.textElements.filter fun elem =>
      ((elem.placeholderIn text).bind (stripPrefix ['/'])).isSome
    let hasDesired := slashElements.any fun elem => desiredRange = some elem.byteRange
    let staleRanges := (slashElements.filter fun elem => desiredRange ≠ some elem.byteRange).map (·.byteRange)
    let removed := staleRanges.foldl (fun s range => (s.removeElementRange range).2) c.textarea
    match desiredRange with
    | some range => { c with textarea := if hasDesired then removed else (removed.addElementRange range).2 }
    | none => { c with textarea := removed }

/-- `sync_popups`, whose other work is about the popups. -/
def syncPopups (config : Config) (c : ChatComposer) : ChatComposer := c.syncSlashCommandElements config

/-! ## Images -/

/-- One image in `relabel_attached_images_and_update_placeholders`. -/
def relabelImage (c : ChatComposer) (idx : ℕ) : Option ChatComposer := do
  let expected := localImageLabelText (c.remoteImageUrls.length + idx + 1)
  let image ← c.attachedImages[idx]?
  let current := image.placeholder
  if current = expected then some c
  else
    let (_, textarea) ← c.textarea.replaceElementPayload current expected
    some { c with
      attachedImages := c.attachedImages.set idx { image with placeholder := expected }
      textarea := textarea }

/-- `relabel_attached_images_and_update_placeholders`. -/
def relabelAttachedImagesAndUpdatePlaceholders (c : ChatComposer) : Option ChatComposer :=
  (List.range c.attachedImages.length).foldlM relabelImage c

/-- `set_remote_image_urls`. -/
def setRemoteImageUrls (config : Config) (c : ChatComposer) (urls : List Text) : Option ChatComposer := do
  let relabelled ← { c with
    remoteImageUrls := urls
    selectedRemoteImageIndex := none }.relabelAttachedImagesAndUpdatePlaceholders
  some (relabelled.syncPopups config)

/-- `attach_image`. -/
def attachImage (c : ChatComposer) (path : Text) : Option ChatComposer := do
  let imageNumber := c.remoteImageUrls.length + c.attachedImages.length + 1
  let placeholder := localImageLabelText imageNumber
  let (_, textarea) ← c.textarea.insertElement placeholder
  some { c with
    textarea := textarea
    attachedImages := c.attachedImages ++ [⟨placeholder, path⟩] }

/-- One removed element in `reconcile_deleted_elements`, and whether an image was removed so far. -/
def dropElement (state : ChatComposer × Bool) (removed : Text) : ChatComposer × Bool :=
  let (c, removedAnyImage) := state
  let c := { c with pendingPastes := c.pendingPastes.filter fun (placeholder, _) => placeholder ≠ removed }
  match c.attachedImages.findIdx? fun image => image.placeholder == removed with
  | some idx => ({ c with attachedImages := c.attachedImages.eraseIdx idx }, true)
  | none => (c, removedAnyImage)

/-- `reconcile_deleted_elements`. -/
def reconcileDeletedElements (c : ChatComposer) (elementsBefore : List Text) : Option ChatComposer :=
  let elementsAfter := c.textarea.elementPayloads
  let (dropped, removedAnyImage) :=
    (elementsBefore.filter (!elementsAfter.contains ·)).foldl dropElement (c, false)
  if removedAnyImage then dropped.relabelAttachedImagesAndUpdatePlaceholders else some dropped

/-! ## Typing and pasting -/

/-- `sync_bash_mode_from_text`. -/
def syncBashModeFromText (c : ChatComposer) : Option ChatComposer :=
  if !c.isBashMode && c.textarea.text.head? = some '!' then do
    let textarea ← c.textarea.replaceRange ⟨0, 1⟩ []
    some { c with textarea := textarea, isBashMode := true }
  else some c

/-- `insert_str`. -/
def insertStr (config : Config) (c : ChatComposer) (text : Text) : Option ChatComposer := do
  let textarea ← c.textarea.insertStr text
  let synced ← { c with textarea := textarea }.syncBashModeFromText
  some (synced.syncPopups config)

/-- The label of the next large paste with a number of characters. -/
def largePastePlaceholder (charCount suffix : ℕ) : Text :=
  let base := "[Pasted Content ".toList ++ Nat.toDigits 10 charCount ++ " chars]".toList
  if suffix = 1 then base else base ++ " #".toList ++ Nat.toDigits 10 suffix

/-- `next_large_paste_placeholder`, with the label. -/
def nextLargePastePlaceholder (c : ChatComposer) (charCount : ℕ) : Text × ChatComposer :=
  let nextSuffix := c.largePasteCounters charCount + 1
  (largePastePlaceholder charCount nextSuffix,
    { c with largePasteCounters := Function.update c.largePasteCounters charCount nextSuffix })

/-- `handle_paste_image_path`: the composer with the image, if the text is the path of one. -/
def handlePasteImagePath (config : Config) (c : ChatComposer) (pasted : Text) :
    Option (Option ChatComposer) :=
  match config.pastedImage pasted with
  | none => some none
  | some path => (c.attachImage path).map some

/-- Line ends as `'\n'`. -/
def normalizeLineEnds (pasted : Text) : Text := replace ['\r'] ['\n'] (replace ['\r', '\n'] ['\n'] pasted)

/-- `handle_paste`. -/
def handlePaste (config : Config) (c : ChatComposer) (pasted : Text) : Option ChatComposer := do
  let pasted := normalizeLineEnds pasted
  let charCount := pasted.length
  let integrated ←
    if largePasteCharThreshold < charCount then do
      let (placeholder, c) := c.nextLargePastePlaceholder charCount
      let (_, textarea) ← c.textarea.insertElement placeholder
      some { c with
        textarea := textarea
        pendingPastes := c.pendingPastes ++ [(placeholder, pasted)] }
    else if 1 < charCount && config.imagePasteEnabled then do
      match ← c.handlePasteImagePath config pasted with
      | some attached => do
        let textarea ← attached.textarea.insertStr [' ']
        some { attached with textarea := textarea }
      | none => c.insertStr config pasted
    else c.insertStr config pasted
  some (integrated.syncPopups config)

/-- The end of `handle_input_basic_with_time`: a key that the text area handles itself. -/
def handleInputBasic (crates : Crates) (c : ChatComposer) (backspace : Bool) (input : Op) :
    Option ChatComposer :=
  let elementsBefore :=
    if c.pendingPastes.isEmpty && c.attachedImages.isEmpty && c.remoteImageUrls.isEmpty then none
    else some c.textarea.elementPayloads
  if c.isBashMode && backspace && c.textarea.cursorPos = 0 then some { c with isBashMode := false }
  else do
    let textarea ← c.textarea.apply crates input
    let synced ← { c with textarea := textarea }.syncBashModeFromText
    match elementsBefore with
    | some elementsBefore => synced.reconcileDeletedElements elementsBefore
    | none => some synced

/-- The end of `handle_non_ascii_char`. -/
def handleNonAsciiChar (crates : Crates) (c : ChatComposer) (input : Op) : Option ChatComposer := do
  let textarea ← c.textarea.apply crates input
  some { c with
    textarea := textarea
    pendingPastes := c.pendingPastes.filter fun (placeholder, _) => contains placeholder textarea.text }

/-- What was typed quickly goes from the text into the buffer of a paste burst. -/
def grabTyped (c : ChatComposer) (startByte : ℕ) : Option ChatComposer := do
  let textarea ← c.textarea.replaceRange ⟨startByte, c.textarea.cursorPos⟩ []
  some { c with textarea := textarea }

/-! ## The text with its pastes -/

/-- `current_text`. -/
def currentText (c : ChatComposer) : Text := if c.isBashMode then '!' :: c.textarea.text else c.textarea.text

/-- `shift_text_element`. -/
def shiftTextElement (elem : UserTextElement) (shift : ℕ) : Option UserTextElement :=
  let start := elem.byteRange.start + shift
  let stop := elem.byteRange.stop + shift
  if stop ≤ start then none else some { elem with byteRange := ⟨start, stop⟩ }

/-- `current_text_elements`. -/
def currentTextElements (c : ChatComposer) : List UserTextElement :=
  c.textarea.textElements.filterMap fun elem => shiftTextElement elem (if c.isBashMode then 1 else 0)

/-- `current_text_with_pending`. -/
def currentTextWithPending (c : ChatComposer) : Text :=
  c.pendingPastes.foldl (fun text (placeholder, actual) =>
    if contains placeholder text then replace placeholder actual text else text) c.currentText

/-- The next text under a label, out of the queue of its texts. -/
def popFront (label : Text) : List (Text × Text) → Option (Text × List (Text × Text))
  | [] => none
  | (placeholder, actual) :: pending =>
    if placeholder = label then some (actual, pending)
    else (popFront label pending).map fun (found, rest) => (found, (placeholder, actual) :: rest)

/-- What `expand_pending_pastes` has rebuilt so far. -/
structure Rebuilt where
  text : Text
  elements : List UserTextElement
  cursor : ℕ
  pending : List (Text × Text)

/-- One element in the walk of `expand_pending_pastes`. -/
def expandElement (text : Text) (state : Rebuilt) (elem : UserTextElement) : Option Rebuilt :=
  let start := min elem.byteRange.start (len text)
  let stop := min elem.byteRange.stop (len text)
  if stop < start then some state
  else do
    let before ← if state.cursor < start then get text ⟨state.cursor, start⟩ else some []
    let elemText ← get text ⟨start, stop⟩
    let placeholder := elem.placeholderIn text
    match placeholder.bind fun label => popFront label state.pending with
    | some (actual, pending) => some ⟨state.text ++ before ++ actual, state.elements, stop, pending⟩
    | none =>
      let newStart := len (state.text ++ before)
      let newStop := newStart + len elemText
      some ⟨state.text ++ before ++ elemText,
        state.elements ++ [⟨⟨newStart, newStop⟩, placeholder.or (some elemText)⟩], stop, state.pending⟩

/-- `expand_pending_pastes`. -/
def expandPendingPastes (text : Text) (elements : List UserTextElement) (pendingPastes : List (Text × Text)) :
    Option (Text × List UserTextElement) :=
  if pendingPastes.isEmpty || elements.isEmpty then some (text, elements)
  else do
    let sorted := elements.insertionSort fun a b => a.byteRange.start ≤ b.byteRange.start
    let walked ← sorted.foldlM (expandElement text) ⟨[], [], 0, pendingPastes⟩
    let trailing ← if walked.cursor < len text then get text ⟨walked.cursor, len text⟩ else some []
    some (walked.text ++ trailing, walked.elements)

end ChatComposer

end Supercodex.Composer
