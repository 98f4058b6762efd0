import Supercodex.Library.Text

/-!
# Remote-control clients (`app-server/src/transport/remote_control/client_tracker.rs`)

`ClientTracker` keeps one connection for each pair of client and stream. A connection has a task that
forwards its outbound messages; the task runs in a join set and returns the key of its connection when
it ends. The reader of the websocket owns the tracker, so each message, each joined task, each idle
sweep and the shutdown is handled as one step.

Channels are kept as what was sent over them. The pong status of a client and the pongs sent to
unknown clients go over channels that the tracker does not read, and are left out.
-/

namespace Supercodex.RemoteControl

/-- The key of a connection: the client and the stream. -/
abbrev ClientKey := Text × Text

/-- `JSONRPCMessage`, of which only the method of a request is read. -/
inductive JsonRpcMessage where
  | request (method : Text) (body : Text)
  | other (body : Text)
deriving DecidableEq

/-- `ClientEvent`. -/
inductive ClientEvent where
  | clientMessage (message : JsonRpcMessage)
  | ack
  | ping
  | clientClosed
deriving DecidableEq

/-- `ClientEnvelope`, without the cursor. -/
structure ClientEnvelope where
  clientId : Text
  event : ClientEvent
  streamId : Option Text
  seqId : Option ℕ
deriving DecidableEq

/-- `TransportEvent`, without its channels. -/
inductive TransportEvent where
  | connectionOpened (connectionId : ℕ)
  | connectionClosed (connectionId : ℕ)
  | incomingMessage (connectionId : ℕ) (message : JsonRpcMessage)
deriving DecidableEq

/-- The connection that the event is about. -/
def TransportEvent.connectionId : TransportEvent → ℕ
  | connectionOpened id | connectionClosed id | incomingMessage id _ => id

/-- `ClientState`. The disconnect token is named by the connection id. -/
structure ClientState where
  connectionId : ℕ
  lastActivityAt : ℕ
  lastInboundSeqId : Option ℕ
deriving DecidableEq

/-- A task of the join set. It returns its key only; the connection id tells tasks apart. -/
structure ClientTask where
  connectionId : ℕ
  key : ClientKey
deriving DecidableEq

/-- `ClientTracker`, with the counter of `next_connection_id`. -/
structure ClientTracker where
  clients : ClientKey → Option ClientState
  legacyStreamIds : Text → Option Text
  joinSet : List ClientTask
  /-- The disconnect tokens that were cancelled. -/
  cancelled : List ℕ
  /-- What was sent over `transport_event_tx`, and whether its receiver is still there. -/
  sent : List TransportEvent
  transportOpen : Bool
  nextConnectionId : ℕ

/-- `REMOTE_CONTROL_CLIENT_IDLE_TIMEOUT`, in milliseconds. -/
def remoteControlClientIdleTimeout : ℕ := 10 * 60 * 1000

/-- `remote_control_client_is_alive`; times are in milliseconds. -/
def ClientState.isAlive (client : ClientState) (now : ℕ) : Bool :=
  now - client.lastActivityAt < remoteControlClientIdleTimeout

/-- `remote_control_message_starts_connection`. -/
def JsonRpcMessage.startsConnection : JsonRpcMessage → Bool
  | request method _ => method = "initialize".toList
  | other _ => false

/-- Does the envelope carry an `initialize` request? -/
def ClientEnvelope.isInitialize (envelope : ClientEnvelope) : Bool :=
  match envelope.event with
  | .clientMessage message => message.startsConnection
  | _ => false

namespace ClientTracker

/-- `ClientTracker::new`, at some value of the counter. -/
def new (nextConnectionId : ℕ) : ClientTracker where
  clients _ := none
  legacyStreamIds _ := none
  joinSet := []
  cancelled := []
  sent := []
  transportOpen := true
  nextConnectionId := nextConnectionId

/-- `send_transport_event`; the flag is false for `Err(Stopped)`. -/
def sendTransportEvent (event : TransportEvent) (s : ClientTracker) : ClientTracker × Bool :=
  if s.transportOpen then ({ s with sent := s.sent ++ [event] }, true) else (s, false)

/-- The tracker after `close_client` has taken the connection out and cancelled its token. -/
def removeClient (key : ClientKey) (connectionId : ℕ) (s : ClientTracker) : ClientTracker :=
  { s with
    clients := Function.update s.clients key none
    legacyStreamIds :=
      if s.legacyStreamIds key.1 = some key.2 then Function.update s.legacyStreamIds key.1 none
      else s.legacyStreamIds
    cancelled := s.cancelled ++ [connectionId] }

/-- `close_client`. -/
def closeClient (key : ClientKey) (s : ClientTracker) : ClientTracker × Bool :=
  match s.clients key with
  | none => (s, true)
  | some client =>
    (s.removeClient key client.connectionId).sendTransportEvent
      (.connectionClosed client.connectionId)

/-- `next_connection_id` (`fetch_add` on an `AtomicU64`). -/
def takeConnectionId (s : ClientTracker) : ClientTracker :=
  { s with nextConnectionId := (s.nextConnectionId + 1) % 2 ^ 64 }

/-- The stream of an envelope; `fresh` is what `StreamId::new_random` returns. An `initialize` without
a stream id takes the legacy stream id of its client out of the table. -/
def resolveStream (envelope : ClientEnvelope) (fresh : Text) (s : ClientTracker) :
    Text × ClientTracker :=
  match envelope.streamId with
  | some streamId => (streamId, s)
  | none =>
    let legacy := s.legacyStreamIds envelope.clientId
    if envelope.isInitialize then
      (legacy.getD fresh,
        { s with legacyStreamIds := Function.update s.legacyStreamIds envelope.clientId none })
    else (legacy.getD (if envelope.event = .ping then fresh else []), s)

/-- The tracker with a new state for a connection. -/
def setClient (key : ClientKey) (client : ClientState) (s : ClientTracker) : ClientTracker :=
  { s with clients := Function.update s.clients key (some client) }

/-- A message of a known client: it counts as activity and is forwarded. -/
def forwardMessage (key : ClientKey) (client : ClientState) (seqId : Option ℕ)
    (message : JsonRpcMessage) (now : ℕ) (s : ClientTracker) : ClientTracker × Bool :=
  (s.setClient key { client with
    lastActivityAt := now
    lastInboundSeqId := seqId.or client.lastInboundSeqId }).sendTransportEvent
      (.incomingMessage client.connectionId message)

/-- A new connection with its task, and the message that opened it. -/
def openConnection (key : ClientKey) (isLegacyStreamId : Bool) (seqId : Option ℕ)
    (message : JsonRpcMessage) (now : ℕ) (s : ClientTracker) : ClientTracker × Bool :=
  let connectionId := s.nextConnectionId
  match s.takeConnectionId.sendTransportEvent (.connectionOpened connectionId) with
  | (s, false) => (s, false)
  | (s, true) =>
    let s : ClientTracker := { s with
      joinSet := s.joinSet ++ [⟨connectionId, key⟩]
      legacyStreamIds :=
        if isLegacyStreamId then Function.update s.legacyStreamIds key.1 (some key.2)
        else s.legacyStreamIds }
    (s.setClient key ⟨connectionId, now, if isLegacyStreamId then none else seqId⟩).sendTransportEvent
      (.incomingMessage connectionId message)

/-- Was the message seen before, by its sequence id? -/
def isDuplicate (key : ClientKey) (seqId : Option ℕ) (s : ClientTracker) : Bool :=
  match seqId, (s.clients key).bind (·.lastInboundSeqId) with
  | some seqId, some lastSeqId => seqId ≤ lastSeqId
  | _, _ => false

/-- The branch of `handle_message` for a `ClientMessage`. -/
def handleClientMessage (key : ClientKey) (isLegacyStreamId isInitialize : Bool)
    (seqId : Option ℕ) (message : JsonRpcMessage) (now : ℕ) (s : ClientTracker) :
    ClientTracker × Bool :=
  if s.isDuplicate key seqId && !isInitialize then (s, true)
  else
    match if isInitialize && (s.clients key).isSome then s.closeClient key else (s, true) with
    | (s, false) => (s, false)
    | (s, true) =>
      match s.clients key with
      | some client => s.forwardMessage key client seqId message now
      | none =>
        if isInitialize then s.openConnection key isLegacyStreamId seqId message now else (s, true)

/-- A ping of a known client counts as activity. -/
def handlePing (key : ClientKey) (now : ℕ) (s : ClientTracker) : ClientTracker :=
  match s.clients key with
  | some client => s.setClient key { client with lastActivityAt := now }
  | none => s

/-- `handle_message`. -/
def handleMessage (envelope : ClientEnvelope) (fresh : Text) (now : ℕ) (s : ClientTracker) :
    ClientTracker × Bool :=
  let (streamId, s) := s.resolveStream envelope fresh
  if streamId = [] then (s, true)
  else
    let key := (envelope.clientId, streamId)
    match envelope.event with
    | .clientMessage message =>
      s.handleClientMessage key envelope.streamId.isNone envelope.isInitialize envelope.seqId
        message now
    | .ack => (s, true)
    | .ping => (s.handlePing key now, true)
    | .clientClosed => s.closeClient key

/-- The loop of `close_expired_clients` over the expired keys. -/
def closeClients : List ClientKey → ClientTracker → ClientTracker × Bool
  | [], s => (s, true)
  | key :: keys, s =>
    match s.closeClient key with
    | (s, false) => (s, false)
    | (s, true) => closeClients keys s

/-- `shutdown`, with the keys in the order in which the map gives them. -/
def shutdown (keys : List ClientKey) (s : ClientTracker) : ClientTracker :=
  let s : ClientTracker := { s with cancelled := s.cancelled ++ s.joinSet.map (·.connectionId) }
  let s := keys.foldl (fun s key => (s.closeClient key).1) s
  { s with joinSet := [] }

/-- What the tracker is asked to handle. -/
inductive Label where
  | message (envelope : ClientEnvelope) (fresh : Text) (now : ℕ)
  | joined (task : ClientTask)
  | joinFailed (task : ClientTask)
  | idleSweep (now : ℕ)
  | shutdown
  /-- The receiver of the transport events goes away. -/
  | transportClosed
  /-- Another transport takes a connection id. -/
  | otherConnection
deriving DecidableEq

/-- One step. A task may end at any time and be joined at any later time; the hash map gives its keys
in any order. -/
inductive Step : ClientTracker → Label → ClientTracker → Prop where
  | message {s : ClientTracker} (envelope : ClientEnvelope) (fresh : Text) (now : ℕ) :
      Step s (.message envelope fresh now) (s.handleMessage envelope fresh now).1
  | joined {s : ClientTracker} {task : ClientTask} (h : task ∈ s.joinSet) :
      Step s (.joined task)
        ({ s with joinSet := s.joinSet.erase task }.closeClient task.key).1
  | joinFailed {s : ClientTracker} {task : ClientTask} (h : task ∈ s.joinSet) :
      Step s (.joinFailed task) { s with joinSet := s.joinSet.erase task }
  | idleSweep {s : ClientTracker} {now : ℕ} {expired : List ClientKey} (hnodup : expired.Nodup)
      (hexpired : ∀ key, key ∈ expired ↔
        ∃ client, s.clients key = some client ∧ client.isAlive now = false) :
      Step s (.idleSweep now) (s.closeClients expired).1
  | shutdown {s : ClientTracker} {keys : List ClientKey} (hnodup : keys.Nodup)
      (hkeys : ∀ key, key ∈ keys ↔ ∃ client, s.clients key = some client) :
      Step s .shutdown (s.shutdown keys)
  | transportClosed {s : ClientTracker} :
      Step s .transportClosed { s with transportOpen := false }
  | otherConnection {s : ClientTracker} : Step s .otherConnection s.takeConnectionId

end ClientTracker

end Supercodex.RemoteControl
