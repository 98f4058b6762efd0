import Supercodex.Library.Utf8

/-!
# The rollout recorder (`rollout/src/recorder.rs`)

The items of a session are queued and written by one task, a JSON line each, to a file that is only
appended to. The task and the file are modelled together, with what the file system answers in one
attempt to write as data of the command: whether the file opens, how each line write ends, and whether
the last flush succeeds. A line is written by `write_all` and `flush`; a failure of either leaves some
of the first bytes of the line in the file.

The recorder and the reader treat the items that are no session metadata alike, so they are one type
here. The database that mirrors the rollout is not modelled: nothing of it is read back by the task.
-/

namespace Supercodex.Rollout

open Text Utf8

variable {Meta Git Payload : Type}

/-- `SessionMetaLine`. -/
structure SessionMetaLine (Meta Git : Type) where
  sessionMeta : Meta
  git : Option Git
deriving DecidableEq

/-- `RolloutItem`. -/
inductive RolloutItem (Meta Git Payload : Type) where
  | sessionMeta (line : SessionMetaLine Meta Git)
  | recorded (payload : Payload)
deriving DecidableEq

/-- What serialisation does with a `RolloutLine`, and the thread of session metadata. -/
structure Serde (Meta Git Payload : Type) where
  toLine (timestamp : Text) (item : RolloutItem Meta Git Payload) : Option Text
  fromLine (line : Text) : Option (RolloutItem Meta Git Payload)
  threadId : Meta → Text

/-! ## One attempt to write -/

/-- How a line write ends: a failure leaves some of the first bytes of the line. -/
inductive WriteOutcome where
  | written
  | failed (left : ℕ)
deriving DecidableEq

/-- One call of `write_rollout_item`: the formatted time, if it can be formatted, and the outcome. -/
structure LineWrite where
  timestamp : Option Text
  outcome : WriteOutcome
deriving DecidableEq

/-- What one call of `write_pending_once` finds. The writes of the items are by their position among
the pending ones. -/
structure Attempt (Git : Type) where
  opens : Bool
  git : Option Git
  metaWrite : LineWrite
  itemWrites : ℕ → LineWrite
  flushes : Bool

/-- `RolloutWriterState`, as far as it decides what is written. -/
structure RolloutWriterState (Meta Git Payload : Type) where
  /-- Is the file open? -/
  writer : Bool
  /-- Is the file still to be created? -/
  deferredLogFileInfo : Bool
  pendingItems : List (RolloutItem Meta Git Payload)
  sessionMeta : Option Meta
deriving DecidableEq

/-- The task with the file it writes. -/
structure Recorder (Meta Git Payload : Type) where
  state : RolloutWriterState Meta Git Payload
  file : Option Bytes
deriving DecidableEq

namespace RolloutWriterState

/-- `is_deferred`. -/
def isDeferred (state : RolloutWriterState Meta Git Payload) : Bool :=
  !state.writer && state.deferredLogFileInfo

/-- `enter_recovery_mode`. -/
def enterRecoveryMode (state : RolloutWriterState Meta Git Payload) :
    RolloutWriterState Meta Git Payload :=
  { state with writer := false }

end RolloutWriterState

/-! ## Lines -/

variable (serde : Serde Meta Git Payload)

/-- `write_rollout_item`: what the file holds afterwards, and whether the write succeeded. -/
def writeRolloutItem (write : LineWrite) (item : RolloutItem Meta Git Payload) (file : Bytes) :
    Bytes × Bool :=
  match write.timestamp.bind (serde.toLine · item) with
  | none => (file, false)
  | some json =>
    match write.outcome with
    | .written => (file ++ encode (json ++ ['\n']), true)
    | .failed left => (file ++ (encode (json ++ ['\n'])).take left, false)

/-- The loop of `write_pending_items_once`: how many items are written, what the file holds
afterwards, and whether all writes succeeded. -/
def writeItems (writes : ℕ → LineWrite) :
    ℕ → List (RolloutItem Meta Git Payload) → Bytes → ℕ × Bytes × Bool
  | _, [], file => (0, file, true)
  | k, item :: items, file =>
    match writeRolloutItem serde (writes k) item file with
    | (file, false) => (0, file, false)
    | (file, true) =>
      let (written, file, result) := writeItems writes (k + 1) items file
      (written + 1, file, result)

/-! ## Writing what is pending -/

/-- `ensure_writer_open`. -/
def ensureWriterOpen (attempt : Attempt Git) (r : Recorder Meta Git Payload) :
    Recorder Meta Git Payload × Bool :=
  if r.state.writer then (r, true)
  else if attempt.opens then
    (⟨{ r.state with writer := true, deferredLogFileInfo := false }, some (r.file.getD [])⟩, true)
  else (r, false)

/-- `write_session_meta_if_needed`. -/
def writeSessionMetaIfNeeded (attempt : Attempt Git) (r : Recorder Meta Git Payload) :
    Recorder Meta Git Payload × Bool :=
  match r.state.sessionMeta with
  | none => (r, true)
  | some sessionMeta =>
    let (file, result) := writeRolloutItem serde attempt.metaWrite
      (.sessionMeta ⟨sessionMeta, attempt.git⟩) (r.file.getD [])
    if result then (⟨{ r.state with sessionMeta := none }, some file⟩, true)
    else (⟨r.state, some file⟩, false)

/-- `write_pending_items_once`: items leave the queue when they are written. -/
def writePendingItemsOnce (attempt : Attempt Git) (r : Recorder Meta Git Payload) :
    Recorder Meta Git Payload × Bool :=
  let (written, file, result) :=
    writeItems serde attempt.itemWrites 0 r.state.pendingItems (r.file.getD [])
  (⟨{ r.state with pendingItems := r.state.pendingItems.drop written }, some file⟩, result)

/-- `write_pending_once`. -/
def writePendingOnce (attempt : Attempt Git) (r : Recorder Meta Git Payload) :
    Recorder Meta Git Payload × Bool :=
  match ensureWriterOpen attempt r with
  | (r, false) => (r, false)
  | (r, true) =>
    match writeSessionMetaIfNeeded serde attempt r with
    | (r, false) => (r, false)
    | (r, true) =>
      match writePendingItemsOnce serde attempt r with
      | (r, false) => (r, false)
      | (r, true) => (r, attempt.flushes)

/-- `enter_recovery_mode`: the file handle is dropped. -/
def enterRecoveryMode (r : Recorder Meta Git Payload) : Recorder Meta Git Payload :=
  { r with state := r.state.enterRecoveryMode }

/-- `write_pending_with_recovery`. -/
def writePendingWithRecovery (first second : Attempt Git) (r : Recorder Meta Git Payload) :
    Recorder Meta Git Payload × Bool :=
  match writePendingOnce serde first r with
  | (r, true) => (r, true)
  | (r, false) =>
    match writePendingOnce serde second (enterRecoveryMode r) with
    | (r, true) => (r, true)
    | (r, false) => (enterRecoveryMode r, false)

/-- `flush` and `shutdown`: there is nothing to do while the file is deferred and nothing pends. -/
def flush (first second : Attempt Git) (r : Recorder Meta Git Payload) :
    Recorder Meta Git Payload × Bool :=
  if r.state.isDeferred ∧ r.state.pendingItems = [] then (r, true)
  else writePendingWithRecovery serde first second r

/-- `flush_if_materialized`. -/
def flushIfMaterialized (first second : Attempt Git) (r : Recorder Meta Git Payload) :
    Recorder Meta Git Payload :=
  if r.state.isDeferred then r
  else
    match flush serde first second r with
    | (r, true) => r
    | (r, false) => enterRecoveryMode r

/-! ## Commands -/

/-- `RolloutCmd`. -/
inductive RolloutCmd (Meta Git Payload : Type) where
  | addItems (items : List (RolloutItem Meta Git Payload))
  | persist
  | flush
  | shutdown

/-- A command, with what the two attempts to write for it find. -/
structure Handled (Meta Git Payload : Type) where
  cmd : RolloutCmd Meta Git Payload
  first : Attempt Git
  second : Attempt Git

/-- `add_items`. -/
def addItems (items : List (RolloutItem Meta Git Payload)) (r : Recorder Meta Git Payload) :
    Recorder Meta Git Payload :=
  { r with state := { r.state with pendingItems := r.state.pendingItems ++ items } }

/-- One round of `rollout_writer`, with the result that is acknowledged. -/
def handle (h : Handled Meta Git Payload) (r : Recorder Meta Git Payload) :
    Recorder Meta Git Payload × Option Bool :=
  match h.cmd with
  | .addItems items => (flushIfMaterialized serde h.first h.second (addItems items r), none)
  | .persist =>
    let (r, result) := writePendingWithRecovery serde h.first h.second r
    (r, some result)
  | .flush | .shutdown =>
    let (r, result) := flush serde h.first h.second r
    (r, some result)

/-- The recorder of a new session: its file is created when the first write needs it. -/
def Recorder.create (sessionMeta : Meta) : Recorder Meta Git Payload :=
  ⟨⟨false, true, [], some sessionMeta⟩, none⟩

/-- The recorder of a session that is resumed from a file. -/
def Recorder.resume (contents : Bytes) : Recorder Meta Git Payload :=
  ⟨⟨true, false, [], none⟩, some contents⟩

/-! ## Loading -/

/-- What `load_rollout_items` returns. -/
structure Loaded (Meta Git Payload : Type) where
  items : List (RolloutItem Meta Git Payload)
  threadId : Option Text
  parseErrors : ℕ
deriving DecidableEq

/-- Why a rollout cannot be loaded. -/
inductive LoadError where
  | unreadable
  | emptySessionFile
deriving DecidableEq

/-- `usize::MAX`. -/
def usizeMax : ℕ := 2 ^ 64 - 1

/-- The round of `load_rollout_items` for one line. -/
def loadLine (loaded : Loaded Meta Git Payload) (line : Text) : Loaded Meta Git Payload :=
  if trim line = [] then loaded
  else
    match serde.fromLine line with
    | none => { loaded with parseErrors := min (loaded.parseErrors + 1) usizeMax }
    | some (.sessionMeta metaLine) =>
      { loaded with
        items := loaded.items ++ [.sessionMeta metaLine]
        threadId := loaded.threadId.or (some (serde.threadId metaLine.sessionMeta)) }
    | some (.recorded payload) => { loaded with items := loaded.items ++ [.recorded payload] }

/-- `load_rollout_items`. -/
def loadRolloutItems (file : Option Bytes) : Except LoadError (Loaded Meta Git Payload) :=
  match file.bind decode with
  | none => .error .unreadable
  | some text =>
    if trim text = [] then .error .emptySessionFile
    else .ok ((lines text).foldl (loadLine serde) ⟨[], none, 0⟩)

end Supercodex.Rollout
