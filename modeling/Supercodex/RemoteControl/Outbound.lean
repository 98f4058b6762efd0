import Supercodex.RemoteControl.ClientTracker
import Mathlib.Data.List.AList

/-!
# Outbound delivery (`app-server/src/transport/remote_control/websocket.rs`)

The writer of a connection numbers the events of each stream, keeps them in a buffer until the client
has acknowledged them, and sends them. A new connection begins with a replay of the buffer. There is
one writer at a time, the state behind its lock is changed by the writer and by the reader's acks, and
sending may fail at any point. The hash maps are association lists with distinct keys.

The serialisation of an envelope is the parameter `serialize`.
-/

namespace Supercodex.RemoteControl

/-- `CHANNEL_CAPACITY`. -/
def channelCapacity : ℕ := 128

/-- `u64::MAX`. -/
def u64Max : ℕ := 2 ^ 64 - 1

/-- `QueuedServerEnvelope`; the event is kept as its text. -/
structure QueuedServerEnvelope where
  event : Text
  clientId : Text
  streamId : Text
deriving DecidableEq

/-- `ServerEnvelope`. -/
structure ServerEnvelope where
  event : Text
  clientId : Text
  seqId : ℕ
  streamId : Text
deriving DecidableEq

/-- The stream of an envelope. -/
def ServerEnvelope.key (envelope : ServerEnvelope) : ClientKey :=
  (envelope.clientId, envelope.streamId)

/-! ## The buffer -/

/-- `BoundedOutboundBuffer`. -/
structure BoundedOutboundBuffer where
  bufferByStream : AList fun _ : ClientKey => List ServerEnvelope
  used : ℕ

namespace BoundedOutboundBuffer

/-- `BoundedOutboundBuffer::new`. -/
def new : BoundedOutboundBuffer := ⟨∅, 0⟩

/-- The buffered events of a stream. -/
def ofStream (b : BoundedOutboundBuffer) (key : ClientKey) : List ServerEnvelope :=
  (b.bufferByStream.lookup key).getD []

/-- `BoundedOutboundBuffer::insert`. -/
def insert (b : BoundedOutboundBuffer) (envelope : ServerEnvelope) : BoundedOutboundBuffer where
  bufferByStream :=
    b.bufferByStream.insert envelope.key (b.ofStream envelope.key ++ [envelope])
  used := b.used + 1

/-- The loop of `ack`: pop from the front while it is acknowledged. `none` is the underflow of
`used`. -/
def popAcked (ackedSeqId : ℕ) : List ServerEnvelope → ℕ → Option (List ServerEnvelope × ℕ)
  | [], used => some ([], used)
  | envelope :: rest, used =>
    if envelope.seqId ≤ ackedSeqId then
      if used = 0 then none else popAcked ackedSeqId rest (used - 1)
    else some (envelope :: rest, used)

/-- `BoundedOutboundBuffer::ack`. -/
def ack (b : BoundedOutboundBuffer) (key : ClientKey) (ackedSeqId : ℕ) :
    Option BoundedOutboundBuffer :=
  match b.bufferByStream.lookup key with
  | none => some b
  | some buffer =>
    (popAcked ackedSeqId buffer b.used).map fun (rest, used) =>
      if rest = [] then ⟨b.bufferByStream.erase key, used⟩
      else ⟨b.bufferByStream.insert key rest, used⟩

end BoundedOutboundBuffer

/-! ## The writer and the reader -/

/-- `WebsocketState`, without the subscribe cursor. -/
structure WebsocketState where
  outboundBuffer : BoundedOutboundBuffer
  nextSeqIdByStream : ClientKey → Option ℕ

/-- Where the writer is. -/
inductive WriterPhase where
  | disconnected
  /-- Replaying the buffer: what was passed, and what is still to come. -/
  | replaying (passed rest : List ServerEnvelope)
  | ready
  | sending (envelope : ServerEnvelope)
deriving DecidableEq

/-- What happened to the buffer: an event was put into it, or an ack was handled. -/
inductive HistoryEntry where
  | dequeued (envelope : ServerEnvelope)
  | acked (key : ClientKey) (seqId : ℕ)
deriving DecidableEq

/-- The state, the writer of the current connection, and the history. -/
structure OutboundSession where
  state : WebsocketState
  phase : WriterPhase
  history : List HistoryEntry

/-- The session before the first connection. -/
def OutboundSession.new : OutboundSession := ⟨⟨.new, fun _ => none⟩, .disconnected, []⟩

section
variable (serialize : ServerEnvelope → Option Text)

/-- The locked part of the writer's loop: number the event and keep it. An event that cannot be
serialised is dropped, but its stream has an entry in the table of sequence ids then. -/
def WebsocketState.enqueue (state : WebsocketState) (queued : QueuedServerEnvelope) :
    WebsocketState × Option ServerEnvelope :=
  let key := (queued.clientId, queued.streamId)
  let seqId := (state.nextSeqIdByStream key).getD 1
  let envelope : ServerEnvelope := ⟨queued.event, queued.clientId, seqId, queued.streamId⟩
  match serialize envelope with
  | none =>
    ({ state with nextSeqIdByStream := Function.update state.nextSeqIdByStream key (some seqId) },
      none)
  | some _ =>
    (⟨state.outboundBuffer.insert envelope,
      Function.update state.nextSeqIdByStream key (some (min (seqId + 1) u64Max))⟩, some envelope)

/-- What the writer and the reader do. -/
inductive OutboundLabel where
  | connect
  | replayNext
  | replayDone
  | dequeue (queued : QueuedServerEnvelope)
  | sent
  | ack (key : ClientKey) (seqId : ℕ)
  /-- Sending fails, or the connection is shut down. -/
  | disconnect
deriving DecidableEq

/-- One step of a session. -/
inductive OutboundStep : OutboundSession → OutboundLabel → OutboundSession → Prop where
  /-- `server_envelopes()`: the streams in any order, the events of each in their order. -/
  | connect {s : OutboundSession} {streams : List (Sigma fun _ : ClientKey => List ServerEnvelope)}
      (hphase : s.phase = .disconnected)
      (hstreams : streams.Perm s.state.outboundBuffer.bufferByStream.entries) :
      OutboundStep s .connect { s with phase := .replaying [] (streams.flatMap (·.2)) }
  | replayNext {s : OutboundSession} {passed rest : List ServerEnvelope} {envelope : ServerEnvelope}
      (hphase : s.phase = .replaying passed (envelope :: rest)) :
      OutboundStep s .replayNext { s with phase := .replaying (passed ++ [envelope]) rest }
  | replayDone {s : OutboundSession} {passed : List ServerEnvelope}
      (hphase : s.phase = .replaying passed []) :
      OutboundStep s .replayDone { s with phase := .ready }
  | dequeue {s : OutboundSession} {queued : QueuedServerEnvelope} {state : WebsocketState}
      {envelope : ServerEnvelope} (hphase : s.phase = .ready)
      (hcapacity : s.state.outboundBuffer.used < channelCapacity)
      (henqueue : s.state.enqueue serialize queued = (state, some envelope)) :
      OutboundStep s (.dequeue queued)
        ⟨state, .sending envelope, s.history ++ [.dequeued envelope]⟩
  | dequeueDropped {s : OutboundSession} {queued : QueuedServerEnvelope} {state : WebsocketState}
      (hphase : s.phase = .ready)
      (hcapacity : s.state.outboundBuffer.used < channelCapacity)
      (henqueue : s.state.enqueue serialize queued = (state, none)) :
      OutboundStep s (.dequeue queued) { s with state := state }
  | sent {s : OutboundSession} {envelope : ServerEnvelope} (hphase : s.phase = .sending envelope) :
      OutboundStep s .sent { s with phase := .ready }
  | ack {s : OutboundSession} {key : ClientKey} {seqId : ℕ} {buffer : BoundedOutboundBuffer}
      (hack : s.state.outboundBuffer.ack key seqId = some buffer) :
      OutboundStep s (.ack key seqId)
        { s with
          state := { s.state with outboundBuffer := buffer }
          history := s.history ++ [.acked key seqId] }
  | disconnect {s : OutboundSession} :
      OutboundStep s .disconnect { s with phase := .disconnected }

end

end Supercodex.RemoteControl
