import Mathlib.Data.List.AList
import Mathlib.Algebra.Order.Ring.Nat

/-!
# Process events (`exec-server/src/process.rs`)

The events of one process and the log that keeps the latest of them for new subscribers.
-/

namespace Supercodex.ExecServer

/-- `ExecOutputStream`. -/
inductive ExecOutputStream where
  | stdout
  | stderr
  | pty
deriving DecidableEq

/-- `ProcessOutputChunk`. -/
structure ProcessOutputChunk where
  seq : ℕ
  stream : ExecOutputStream
  chunk : List UInt8
deriving DecidableEq

/-- `ExecProcessEvent`. -/
inductive ExecProcessEvent where
  | output (chunk : ProcessOutputChunk)
  | exited (seq : ℕ) (exitCode : ℤ)
  | closed (seq : ℕ)
  | failed (message : List UInt8)
deriving DecidableEq

namespace ExecProcessEvent

/-- `ExecProcessEvent::seq`: a failure is made up by the client and has no number. -/
def seq : ExecProcessEvent → Option ℕ
  | output chunk => some chunk.seq
  | exited seq _ => some seq
  | closed seq => some seq
  | failed _ => none

/-- `ExecProcessEvent::retained_len`. -/
def retainedLen : ExecProcessEvent → ℕ
  | output chunk => chunk.chunk.length
  | failed message => message.length
  | exited _ _ => 0
  | closed _ => 0

/-- `matches!(event, ExecProcessEvent::Closed { .. })`. -/
def isClosed : ExecProcessEvent → Bool
  | closed _ => true
  | _ => false

end ExecProcessEvent

/-- `ExecProcessEventLog`, with all that was sent on its live channel. -/
structure ExecProcessEventLog where
  history : List ExecProcessEvent
  retainedBytes : ℕ
  live : List ExecProcessEvent
  eventCapacity : ℕ
  byteCapacity : ℕ

namespace ExecProcessEventLog

/-- `ExecProcessEventLog::new`. -/
def new (eventCapacity byteCapacity : ℕ) : ExecProcessEventLog where
  history := []
  retainedBytes := 0
  live := []
  eventCapacity := eventCapacity
  byteCapacity := byteCapacity

/-- The loop of `publish` that evicts the oldest events while one of the bounds is passed. -/
def evict (eventCapacity byteCapacity : ℕ) :
    List ExecProcessEvent → ℕ → List ExecProcessEvent × ℕ
  | [], retained => ([], retained)
  | evicted :: events, retained =>
    if (evicted :: events).length > eventCapacity ∨ retained > byteCapacity then
      evict eventCapacity byteCapacity events (retained - evicted.retainedLen)
    else (evicted :: events, retained)

/-- `ExecProcessEventLog::publish`. -/
def publish (log : ExecProcessEventLog) (event : ExecProcessEvent) : ExecProcessEventLog :=
  let kept := evict log.eventCapacity log.byteCapacity (log.history ++ [event])
    (log.retainedBytes + event.retainedLen)
  { log with history := kept.1, retainedBytes := kept.2, live := log.live ++ [event] }

@[simp]
lemma publish_live (log : ExecProcessEventLog) (event : ExecProcessEvent) :
    (log.publish event).live = log.live ++ [event] := rfl

lemma foldl_publish_live (log : ExecProcessEventLog) (events : List ExecProcessEvent) :
    (events.foldl publish log).live = log.live ++ events := by
  induction events generalizing log with
  | nil => simp
  | cons event events ih => rw [List.foldl_cons, ih, publish_live, List.append_assoc]; rfl

/-- The capacity of the live channel, a power of two. -/
def liveCapacity (log : ExecProcessEventLog) : ℕ := log.eventCapacity.nextPowerOfTwo

end ExecProcessEventLog

/-! ## Receivers -/

/-- `ExecProcessEventReceiver`, with the number of events that its end of the live channel is past. -/
structure ExecProcessEventReceiver where
  replay : List ExecProcessEvent
  next : ℕ

/-- `broadcast::error::RecvError::Lagged`, the error of a channel that stays open. -/
inductive RecvError where
  | lagged (skipped : ℕ)
deriving DecidableEq

/-- `ExecProcessEventLog::subscribe`. -/
def ExecProcessEventLog.subscribe (log : ExecProcessEventLog) : ExecProcessEventReceiver where
  replay := log.history
  next := log.live.length

/-- `ExecProcessEventReceiver::recv`, if it does not have to wait. -/
def ExecProcessEventReceiver.recv (receiver : ExecProcessEventReceiver) (log : ExecProcessEventLog) :
    Option (Except RecvError ExecProcessEvent × ExecProcessEventReceiver) :=
  match receiver.replay with
  | event :: replay => some (.ok event, { receiver with replay := replay })
  | [] =>
    let oldest := log.live.length - log.liveCapacity
    if receiver.next < oldest then
      -- the channel has dropped what this receiver is to read next
      some (.error (.lagged (oldest - receiver.next)), { receiver with next := oldest })
    else
      match log.live[receiver.next]? with
      | some event => some (.ok event, { receiver with next := receiver.next + 1 })
      | none => none

end Supercodex.ExecServer
