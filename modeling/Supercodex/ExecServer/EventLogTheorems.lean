import Supercodex.ExecServer.Process
import Supercodex.Library.Retention

/-!
# Replay of process events (`exec-server/src/process.rs`)

A subscriber is handed the longest suffix of the events published so far that is within both capacities,
and goes on with the live events where that suffix ends.
-/

namespace Supercodex.ExecServer

open Retention

/-- The bytes that some events retain. -/
def retainedLenOf (events : List ExecProcessEvent) : ℕ := (events.map ExecProcessEvent.retainedLen).sum

lemma retainedLenOf_cons (event : ExecProcessEvent) (events : List ExecProcessEvent) :
    retainedLenOf (event :: events) = event.retainedLen + retainedLenOf events := by
  rw [retainedLenOf, List.map_cons, List.sum_cons]
  rfl

lemma retainedLenOf_append (events events' : List ExecProcessEvent) :
    retainedLenOf (events ++ events') = retainedLenOf events + retainedLenOf events' := by
  rw [retainedLenOf, List.map_append, List.sum_append]
  rfl

/-- So many events, of so many bytes, are within the capacities. -/
structure Within (eventCapacity byteCapacity : ℕ) (events : List ExecProcessEvent) : Prop where
  count : events.length ≤ eventCapacity
  bytes : retainedLenOf events ≤ byteCapacity

lemma Within.of_append {eventCapacity byteCapacity : ℕ} {events : List ExecProcessEvent} {event : ExecProcessEvent}
    (h : Within eventCapacity byteCapacity (events ++ [event])) : Within eventCapacity byteCapacity events := by
  have hcount := h.count
  have hbytes := h.bytes
  rw [List.length_append] at hcount
  rw [retainedLenOf_append] at hbytes
  exact ⟨by omega, by omega⟩

namespace ExecProcessEventLog

/-- What is left is the longest suffix within both capacities, and its length is booked. -/
lemma evict_longest (eventCapacity byteCapacity : ℕ) (events : List ExecProcessEvent) :
    LongestSuffix (Within eventCapacity byteCapacity) events
        (evict eventCapacity byteCapacity events (retainedLenOf events)).1 ∧
      (evict eventCapacity byteCapacity events (retainedLenOf events)).2 =
        retainedLenOf (evict eventCapacity byteCapacity events (retainedLenOf events)).1 := by
  induction events with
  | nil => exact ⟨.of_holds ⟨Nat.zero_le _, Nat.zero_le _⟩, rfl⟩
  | cons evicted events ih =>
    rw [evict]
    split_ifs with hover
    · rw [retainedLenOf_cons, Nat.add_sub_cancel_left]
      refine ⟨ih.1.cons fun hwithin => ?_, ih.2⟩
      rcases hover with hover | hover
      · exact absurd hwithin.count (Nat.not_le.mpr hover)
      · exact absurd hwithin.bytes (Nat.not_le.mpr hover)
    · rw [not_or, not_lt, not_lt] at hover
      exact ⟨.of_holds ⟨hover.1, hover.2⟩, rfl⟩

/-- The invariant of the log: its history is the longest suffix of what was sent that is within the
capacities, and its bytes are counted. -/
structure Retains (log : ExecProcessEventLog) : Prop where
  history : LongestSuffix (Within log.eventCapacity log.byteCapacity) log.live log.history
  retainedBytes : log.retainedBytes = retainedLenOf log.history

lemma new_retains (eventCapacity byteCapacity : ℕ) : (new eventCapacity byteCapacity).Retains :=
  ⟨.of_holds ⟨Nat.zero_le _, Nat.zero_le _⟩, rfl⟩

lemma Retains.publish {log : ExecProcessEventLog} (h : log.Retains) (event : ExecProcessEvent) :
    (log.publish event).Retains := by
  have hbytes : log.retainedBytes + event.retainedLen = retainedLenOf (log.history ++ [event]) := by
    rw [h.retainedBytes, retainedLenOf_append, retainedLenOf_cons]
    rfl
  obtain ⟨hkept, hcount⟩ := evict_longest log.eventCapacity log.byteCapacity (log.history ++ [event])
  rw [← hbytes] at hkept hcount
  exact ⟨h.history.append (fun _ => Within.of_append) hkept, hcount⟩

lemma foldl_publish (log : ExecProcessEventLog) (h : log.Retains) (events : List ExecProcessEvent) :
    (events.foldl publish log).Retains ∧ (events.foldl publish log).eventCapacity = log.eventCapacity ∧
      (events.foldl publish log).byteCapacity = log.byteCapacity := by
  induction events generalizing log with
  | nil => exact ⟨h, rfl, rfl⟩
  | cons event events ih => exact ih (log.publish event) (h.publish event)

end ExecProcessEventLog

/-! ## Following a log -/

/-- What happens after a subscription. -/
inductive FollowAction where
  | publish (event : ExecProcessEvent)
  | recv

/-- The event that is published. -/
def FollowAction.published : FollowAction → Option ExecProcessEvent
  | publish event => some event
  | recv => none

/-- A log, a subscriber and all that it has received. -/
structure Following where
  log : ExecProcessEventLog
  receiver : ExecProcessEventReceiver
  received : List (Except RecvError ExecProcessEvent)

namespace Following

/-- The subscriber of a log, before it receives anything. -/
def start (log : ExecProcessEventLog) : Following where
  log := log
  receiver := log.subscribe
  received := []

/-- An event is published, or the subscriber receives, unless it has to wait. -/
def step (s : Following) : FollowAction → Following
  | .publish event => { s with log := s.log.publish event }
  | .recv => match s.receiver.recv s.log with
    | some (result, receiver) =>
      { s with receiver := receiver, received := s.received ++ [result] }
    | none => s

/-- The events that have been received. -/
def events (s : Following) : List ExecProcessEvent := s.received.filterMap Except.toOption

/-- The events that are still to be received. -/
def pending (s : Following) : List ExecProcessEvent := s.receiver.replay ++ s.log.live.drop s.receiver.next

/-- The subscriber has not fallen behind. -/
def InTime (s : Following) : Prop := ∀ result ∈ s.received, ∃ event, result = .ok event

/-- What is still to be received completes what has been to all that was replayed or came later. -/
structure Follows (log : ExecProcessEventLog) (later : List ExecProcessEvent) (s : Following) : Prop where
  live : s.log.live = log.live ++ later
  next_le : s.receiver.next ≤ s.log.live.length
  events : s.InTime → s.events ++ s.pending = log.history ++ later

variable {log : ExecProcessEventLog} {later : List ExecProcessEvent} {s : Following}

lemma start_follows (log : ExecProcessEventLog) : Follows log [] (start log) where
  live := (List.append_nil _).symm
  next_le := le_rfl
  events := by
    intro _
    show [] ++ (log.history ++ log.live.drop log.live.length) = log.history ++ []
    rw [List.drop_length, List.nil_append]

lemma Follows.publish (h : Follows log later s) (event : ExecProcessEvent) :
    Follows log (later ++ [event]) (s.step (.publish event)) where
  live := by
    show s.log.live ++ [event] = _
    rw [h.live, List.append_assoc]
  next_le := by
    show s.receiver.next ≤ (s.log.live ++ [event]).length
    rw [List.length_append]
    exact h.next_le.trans (Nat.le_add_right _ _)
  events := by
    intro hintime
    show s.events ++ (s.receiver.replay ++ (s.log.live ++ [event]).drop s.receiver.next) = _
    rw [List.drop_append_of_le_length h.next_le, ← List.append_assoc s.receiver.replay,
      ← List.append_assoc s.events, ← List.append_assoc log.history]
    exact congrArg (· ++ [event]) (h.events hintime)

lemma recv_cases (h : s.receiver.next ≤ s.log.live.length) :
    (s.receiver.recv s.log = none ∧ s.pending = []) ∨
      s.pending ≠ [] ∧ ∃ result receiver, s.receiver.recv s.log = some (result, receiver) ∧
        receiver.next ≤ s.log.live.length ∧ ∀ event, result = .ok event →
          s.pending = event :: (receiver.replay ++ s.log.live.drop receiver.next) := by
  rw [ExecProcessEventReceiver.recv, pending]
  cases hreplay : s.receiver.replay with
  | cons event replay =>
    refine .inr ⟨List.cons_ne_nil _ _, .ok event, ⟨replay, s.receiver.next⟩, rfl, h, fun event' hevent => ?_⟩
    cases hevent
    rfl
  | nil =>
    dsimp only
    split_ifs with hlagged
    · refine .inr ⟨fun hnil => ?_, _, _, rfl, Nat.sub_le _ _, fun event hevent => ?_⟩
      · have := List.drop_eq_nil_iff.mp hnil
        omega
      · cases hevent
    · rcases Nat.lt_or_eq_of_le h with hlt | heq
      · rw [List.getElem?_eq_getElem hlt]
        rw [List.nil_append, List.drop_eq_getElem_cons hlt]
        refine .inr ⟨List.cons_ne_nil _ _, .ok s.log.live[s.receiver.next], ⟨[], s.receiver.next + 1⟩, rfl, hlt,
          fun event hevent => ?_⟩
        cases hevent
        rfl
      · rw [heq, List.getElem?_eq_none le_rfl, List.drop_length]
        exact .inl ⟨rfl, rfl⟩

lemma Follows.recv (h : Follows log later s) : Follows log later (s.step .recv) := by
  rw [step]
  rcases recv_cases h.next_le with ⟨hnone, -⟩ | ⟨-, result, receiver, hsome, hnext, hpending⟩
  · rw [hnone]
    exact h
  rw [hsome]
  refine ⟨h.live, hnext, fun hintime => ?_⟩
  obtain ⟨event, rfl⟩ := hintime result (List.mem_append_right _ List.mem_cons_self)
  have hbefore := h.events fun result hresult => hintime result (List.mem_append_left _ hresult)
  rw [hpending event rfl] at hbefore
  show (s.received ++ [Except.ok event]).filterMap Except.toOption ++ _ = _
  rw [List.filterMap_append, List.append_assoc]
  exact hbefore

lemma foldl_follows (log : ExecProcessEventLog) (actions : List FollowAction) :
    Follows log (actions.filterMap FollowAction.published) (actions.foldl step (start log)) := by
  induction actions using List.reverseRecOn with
  | nil => exact start_follows log
  | append_singleton actions action ih =>
    rw [List.foldl_append, List.filterMap_append]
    cases action with
    | publish event => exact ih.publish event
    | recv =>
      show Follows log (_ ++ []) _
      rw [List.append_nil]
      exact ih.recv

end Following

open ExecProcessEventLog in
/-- The replay is the longest suffix of the events so far that is within both capacities, and a subscriber
that is in time receives it and all later events, each once and in order. -/
theorem events_follow (eventCapacity byteCapacity : ℕ) (before : List ExecProcessEvent)
    (actions : List FollowAction) :
    let log := before.foldl publish (new eventCapacity byteCapacity)
    let s := actions.foldl Following.step (.start log)
    let later := actions.filterMap FollowAction.published
    LongestSuffix (Within eventCapacity byteCapacity) before log.subscribe.replay ∧
      log.subscribe.replay ++ later <:+ before ++ later ∧
      (s.InTime → s.events ++ s.pending = log.subscribe.replay ++ later) ∧
      (s.receiver.recv s.log = none ↔ s.pending = []) := by
  intro log s later
  obtain ⟨hretains, hevents, hbytes⟩ :=
    foldl_publish (new eventCapacity byteCapacity) (new_retains _ _) before
  have hfollows : Following.Follows log later s := Following.foldl_follows log actions
  have hlive : log.live = before := foldl_publish_live (new eventCapacity byteCapacity) before
  have hhistory := hretains.history
  rw [hevents, hbytes] at hhistory
  have hlongest : LongestSuffix (Within eventCapacity byteCapacity) before log.history := by
    rw [← hlive]
    exact hhistory
  refine ⟨hlongest, ?_, hfollows.events, ?_⟩
  · obtain ⟨evicted, hevicted⟩ := hlongest.suffix
    exact ⟨evicted, by rw [← List.append_assoc]; exact congrArg (· ++ later) hevicted⟩
  · rcases Following.recv_cases hfollows.next_le with ⟨hnone, hnil⟩ | ⟨hne, result, receiver, hsome, -⟩
    · exact ⟨fun _ => hnil, fun _ => hnone⟩
    · rw [hsome]
      exact ⟨fun hnone => (nomatch hnone), fun hnil => absurd hnil hne⟩

end Supercodex.ExecServer
