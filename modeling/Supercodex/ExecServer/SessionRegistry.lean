import Supercodex.ExecServer.LocalProcess

/-!
# Sessions (`exec-server/src/server/session_registry.rs`)

Connections attach to sessions, detach from them, and leave an expiry behind. Each action is one
acquisition of a lock: of the session map, of the attachment of one session, or of the notification
sender of its processes (`LocalProcess::set_notification_sender`). The map stays locked while a
resuming connection takes the other two; a detach takes them without it. What is read from the clock
is part of an action. Connections and entries are known by numbers, where the source has UUIDs and
shared pointers.
-/

namespace Supercodex.ExecServer

/-- `DETACHED_SESSION_TTL`, in milliseconds. -/
def detachedSessionTtl : ℕ := 10000

/-- `SessionEntry`, with its `AttachmentState` and the notification sender of its processes. -/
structure SessionEntry where
  sessionId : Text
  notifications : Option ℕ
  currentConnectionId : Option ℕ
  detachedConnectionId : Option ℕ
  detachedExpiresAt : Option ℕ

namespace SessionEntry

/-- `SessionEntry::new`. -/
def new (sessionId : Text) (notifications connectionId : ℕ) : SessionEntry where
  sessionId := sessionId
  notifications := some notifications
  currentConnectionId := some connectionId
  detachedConnectionId := none
  detachedExpiresAt := none

/-- What stands where no entry was created. -/
def absent : SessionEntry where
  sessionId := []
  notifications := none
  currentConnectionId := none
  detachedConnectionId := none
  detachedExpiresAt := none

variable (entry : SessionEntry)

/-- `SessionEntry::attach`. -/
def attach (connectionId : ℕ) : SessionEntry :=
  { entry with
    currentConnectionId := some connectionId
    detachedConnectionId := none
    detachedExpiresAt := none }

/-- `SessionEntry::detach`, when the connection is attached. -/
def detach (connectionId now : ℕ) : Option SessionEntry :=
  if entry.currentConnectionId ≠ some connectionId then none
  else some { entry with
    currentConnectionId := none
    detachedConnectionId := some connectionId
    detachedExpiresAt := some (now + detachedSessionTtl) }

/-- `SessionEntry::has_active_connection`. -/
def hasActiveConnection : Bool := entry.currentConnectionId.isSome

/-- `SessionEntry::is_expired`. -/
def isExpired (now : ℕ) : Bool := entry.detachedExpiresAt.any fun deadline => deadline ≤ now

/-- `SessionEntry::is_detached_connection_expired`. -/
def isDetachedConnectionExpired (connectionId now : ℕ) : Bool :=
  entry.currentConnectionId.isNone && entry.detachedConnectionId == some connectionId &&
    entry.detachedExpiresAt.any fun deadline => deadline ≤ now

/-- `LocalProcess::set_notification_sender`. -/
def setNotificationSender (notifications : Option ℕ) : SessionEntry :=
  { entry with notifications := notifications }

end SessionEntry

/-- How far a connection has come in `attach` and then in `detach`. From `found` to `senderSet` it
holds the lock of the session map. -/
inductive ConnectionPhase where
  | idle
  | requested
  | found (entry : ℕ)
  | notExpired (entry : ℕ)
  | inactive (entry : ℕ)
  | senderSet (entry : ℕ)
  | attached (entry : ℕ)
  | clearing (entry : ℕ)
  | detached (entry : ℕ)
  | failed (error : RpcError)
deriving DecidableEq

/-- How far `expire_if_detached` has come that the detach of a connection spawned. -/
inductive ExpiryPhase where
  | unspawned
  | sleeping
  | checking (entry : ℕ)
  | returned
deriving DecidableEq

/-- A connection: the arguments of its `attach`, and how far it has come. -/
structure Connection where
  resumeSessionId : Option Text
  notifications : ℕ
  phase : ConnectionPhase
  expiry : ExpiryPhase

/-- Who holds the lock of the session map. -/
inductive LockHolder where
  | attach (connectionId : ℕ)
  | expiry (connectionId : ℕ)
deriving DecidableEq

/-- `SessionRegistry`, with the connections that use it. -/
structure SessionRegistry where
  sessions : AList fun _ : Text => ℕ
  entries : ℕ → SessionEntry
  entryCount : ℕ
  lock : Option LockHolder
  connections : ℕ → Connection

/-- What happens next. -/
inductive SessionAction where
  | callAttach (connectionId : ℕ) (resumeSessionId : Option Text) (notifications : ℕ)
  | lockSessions (connectionId : ℕ) (newSessionId : Text)
  | checkExpired (connectionId now : ℕ)
  | checkActive (connectionId : ℕ)
  | setSender (connectionId : ℕ)
  | attachEntry (connectionId : ℕ)
  | detachEntry (connectionId now : ℕ)
  | clearSender (connectionId : ℕ)
  | lockExpiry (connectionId : ℕ)
  | checkDetached (connectionId now : ℕ)

namespace SessionRegistry

/-- `SessionRegistry::new`. -/
def new : SessionRegistry where
  sessions := ∅
  entries := fun _ => .absent
  entryCount := 0
  lock := none
  connections := fun _ => ⟨none, 0, .idle, .unspawned⟩

variable (s : SessionRegistry)

/-- A connection changes. -/
def setConnection (connectionId : ℕ) (connection : Connection) : SessionRegistry :=
  { s with connections := Function.update s.connections connectionId connection }

/-- A connection has come so far. -/
def setPhase (connectionId : ℕ) (phase : ConnectionPhase) : SessionRegistry :=
  s.setConnection connectionId { s.connections connectionId with phase := phase }

/-- The expiry of a connection has come so far. -/
def setExpiry (connectionId : ℕ) (expiry : ExpiryPhase) : SessionRegistry :=
  s.setConnection connectionId { s.connections connectionId with expiry := expiry }

/-- An entry changes. -/
def setEntry (index : ℕ) (entry : SessionEntry) : SessionRegistry :=
  { s with entries := Function.update s.entries index entry }

/-- The error for a session that is not there. -/
def unknownSession (sessionId : Text) : RpcError :=
  .invalidRequest ("unknown session id ".toList ++ sessionId)

/-- The error for a session that is in use. -/
def alreadyAttached (sessionId : Text) : RpcError :=
  .invalidRequest
    ("session ".toList ++ sessionId ++ " is already attached to another connection".toList)

/-- A new connection calls `attach`. -/
def callAttach (connectionId : ℕ) (resumeSessionId : Option Text) (notifications : ℕ) :
    Option SessionRegistry :=
  if (s.connections connectionId).phase = .idle then
    some (s.setConnection connectionId ⟨resumeSessionId, notifications, .requested, .unspawned⟩)
  else none

/-- `attach` locks the session map: a new session is created at once. -/
def lockSessions (connectionId : ℕ) (newSessionId : Text) : Option SessionRegistry :=
  let connection := s.connections connectionId
  if connection.phase = .requested ∧ s.lock = none then
    match connection.resumeSessionId with
    | some sessionId =>
      match s.sessions.lookup sessionId with
      | none => some (s.setPhase connectionId (.failed (unknownSession sessionId)))
      | some index =>
        some ({ s with lock := some (.attach connectionId) }.setPhase connectionId (.found index))
    | none =>
      let entry := SessionEntry.new newSessionId connection.notifications connectionId
      let index := s.entryCount
      some (({ s with
        sessions := s.sessions.insert newSessionId index
        entryCount := index + 1 }.setEntry index entry).setPhase connectionId (.attached index))
  else none

/-- The expiry check of `attach`, which removes an expired session. -/
def checkExpired (connectionId now : ℕ) : Option SessionRegistry :=
  match (s.connections connectionId).phase with
  | .found index =>
    if (s.entries index).isExpired now then
      let sessionId := (s.connections connectionId).resumeSessionId.getD []
      some ({ s with sessions := s.sessions.erase sessionId, lock := none }.setPhase connectionId
        (.failed (unknownSession sessionId)))
    else some (s.setPhase connectionId (.notExpired index))
  | _ => none

/-- The check of `attach` for another connection. -/
def checkActive (connectionId : ℕ) : Option SessionRegistry :=
  match (s.connections connectionId).phase with
  | .notExpired index =>
    if (s.entries index).hasActiveConnection then
      let sessionId := (s.connections connectionId).resumeSessionId.getD []
      some ({ s with lock := none }.setPhase connectionId (.failed (alreadyAttached sessionId)))
    else some (s.setPhase connectionId (.inactive index))
  | _ => none

/-- `attach` stores the notification sender of the connection. -/
def setSender (connectionId : ℕ) : Option SessionRegistry :=
  match (s.connections connectionId).phase with
  | .inactive index =>
    let entry := (s.entries index).setNotificationSender (s.connections connectionId).notifications
    some ((s.setEntry index entry).setPhase connectionId (.senderSet index))
  | _ => none

/-- `attach` records the connection and unlocks the session map. -/
def attachEntry (connectionId : ℕ) : Option SessionRegistry :=
  match (s.connections connectionId).phase with
  | .senderSet index =>
    some (({ s with lock := none }.setEntry index ((s.entries index).attach connectionId)).setPhase
      connectionId (.attached index))
  | _ => none

/-- The entry that the `SessionHandle` of a connection refers to. -/
def handle (connectionId : ℕ) : Option ℕ :=
  match (s.connections connectionId).phase with
  | .attached index => some index
  | .clearing index => some index
  | .detached index => some index
  | _ => none

/-- The first lock of `SessionHandle::detach`. -/
def detachEntry (connectionId now : ℕ) : Option SessionRegistry := do
  let index ← s.handle connectionId
  match (s.entries index).detach connectionId now with
  | none => some s
  | some entry => some ((s.setEntry index entry).setPhase connectionId (.clearing index))

/-- The second lock of `SessionHandle::detach`, after which the expiry is spawned. -/
def clearSender (connectionId : ℕ) : Option SessionRegistry :=
  match (s.connections connectionId).phase with
  | .clearing index =>
    let cleared := s.setEntry index ((s.entries index).setNotificationSender none)
    some (cleared.setConnection connectionId
      { s.connections connectionId with phase := .detached index, expiry := .sleeping })
  | _ => none

/-- `expire_if_detached` wakes up and locks the session map. -/
def lockExpiry (connectionId : ℕ) : Option SessionRegistry := do
  let index ← s.handle connectionId
  if (s.connections connectionId).expiry = .sleeping ∧ s.lock = none then
    match s.sessions.lookup (s.entries index).sessionId with
    | none => some (s.setExpiry connectionId .returned)
    | some found =>
      some ({ s with lock := some (.expiry connectionId) }.setExpiry connectionId (.checking found))
  else none

/-- The check of `expire_if_detached`, which removes the session. -/
def checkDetached (connectionId now : ℕ) : Option SessionRegistry := do
  let index ← s.handle connectionId
  match (s.connections connectionId).expiry with
  | .checking found =>
    let sessions :=
      if (s.entries found).isDetachedConnectionExpired connectionId now then
        s.sessions.erase (s.entries index).sessionId
      else s.sessions
    some ({ s with sessions := sessions, lock := none }.setExpiry connectionId .returned)
  | _ => none

/-- The state after an action, if it can happen. -/
def step : SessionAction → Option SessionRegistry
  | .callAttach connectionId resume notifications => s.callAttach connectionId resume notifications
  | .lockSessions connectionId newSessionId => s.lockSessions connectionId newSessionId
  | .checkExpired connectionId now => s.checkExpired connectionId now
  | .checkActive connectionId => s.checkActive connectionId
  | .setSender connectionId => s.setSender connectionId
  | .attachEntry connectionId => s.attachEntry connectionId
  | .detachEntry connectionId now => s.detachEntry connectionId now
  | .clearSender connectionId => s.clearSender connectionId
  | .lockExpiry connectionId => s.lockExpiry connectionId
  | .checkDetached connectionId now => s.checkDetached connectionId now

end SessionRegistry

end Supercodex.ExecServer
