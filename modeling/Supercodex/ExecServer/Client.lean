import Supercodex.ExecServer.Process
import Mathlib.Data.List.Induction
import Mathlib.Tactic.IntervalCases

/-!
# The client's view of a process (`exec-server/src/client.rs`)

Output, exit and close notifications of one process are sent by different tasks of the server and can
reach the client in any order. The client keeps the early ones back and publishes by number.
-/

namespace Supercodex.ExecServer

/-- `PROCESS_EVENT_CHANNEL_CAPACITY`. -/
def processEventChannelCapacity : ℕ := 256

/-- `PROCESS_EVENT_RETAINED_BYTES`. -/
def processEventRetainedBytes : ℕ := 1024 * 1024

/-- `OrderedSessionEvents`. -/
structure OrderedSessionEvents where
  lastPublishedSeq : ℕ
  pending : AList fun _ : ℕ => ExecProcessEvent

namespace OrderedSessionEvents

/-- The derived `Default`. -/
def default : OrderedSessionEvents := ⟨0, ∅⟩

/-- `pending.entry(seq).or_insert(event)`. -/
def orInsert (ordered : OrderedSessionEvents) (seq : ℕ) (event : ExecProcessEvent) :
    OrderedSessionEvents :=
  if seq ∈ ordered.pending then ordered
  else { ordered with pending := ordered.pending.insert seq event }

lemma length_erase_lt {pending : AList fun _ : ℕ => ExecProcessEvent} {seq : ℕ}
    {event : ExecProcessEvent} (h : pending.lookup seq = some event) :
    (pending.erase seq).entries.length < pending.entries.length := by
  have hmem : seq ∈ pending.keys := AList.lookup_isSome.mp (by rw [h]; rfl)
  have hkeys := List.length_erase_of_mem hmem
  have hpos := List.length_pos_of_mem hmem
  rw [← AList.keys_erase] at hkeys
  simp only [AList.keys, List.keys, List.length_map] at hkeys hpos
  omega

/-- The loop of `publish_ordered_event`: the events that are next in number leave the map. -/
def drain (ordered : OrderedSessionEvents) : List ExecProcessEvent × OrderedSessionEvents :=
  let nextSeq := ordered.lastPublishedSeq + 1
  match _h : ordered.pending.lookup nextSeq with
  | none => ([], ordered)
  | some event =>
    let rest := drain ⟨ordered.lastPublishedSeq + 1, ordered.pending.erase nextSeq⟩
    (event :: rest.1, rest.2)
termination_by ordered.pending.entries.length
decreasing_by exact length_erase_lt _h

end OrderedSessionEvents

/-- `SessionState`, without the wake channel and the stored failure. -/
structure SessionState where
  events : ExecProcessEventLog
  orderedEvents : OrderedSessionEvents

namespace SessionState

/-- `SessionState::new`. -/
def new : SessionState where
  events := ExecProcessEventLog.new processEventChannelCapacity processEventRetainedBytes
  orderedEvents := OrderedSessionEvents.default

/-- `SessionState::publish_ordered_event`. -/
def publishOrderedEvent (state : SessionState) (event : ExecProcessEvent) : SessionState × Bool :=
  match event.seq with
  | none => ({ state with events := state.events.publish event }, false)
  | some seq =>
    if seq ≤ state.orderedEvents.lastPublishedSeq then (state, false)
    else
      let drained := (state.orderedEvents.orInsert seq event).drain
      ({ events := drained.1.foldl ExecProcessEventLog.publish state.events
         orderedEvents := drained.2 },
        drained.1.any ExecProcessEvent.isClosed)

/-- The state after the notifications that have arrived, oldest first. -/
def receive (state : SessionState) (arrivals : List ExecProcessEvent) : SessionState :=
  arrivals.foldl (fun state event => (state.publishOrderedEvent event).1) state

/-- What the calls for these notifications return. -/
def returns (state : SessionState) : List ExecProcessEvent → List Bool
  | [] => []
  | event :: arrivals =>
    (state.publishOrderedEvent event).2 :: returns (state.publishOrderedEvent event).1 arrivals

end SessionState

end Supercodex.ExecServer

/-!
# Notifications are published in the order of their numbers

For every order in which the numbered events of a process reach the client, repetitions included, the
published events are the longest contiguous run of what has arrived.
-/

namespace Supercodex.ExecServer

/-- The events of one process: numbered from 1, and at most one of them closes it. -/
structure SequencedEvents where
  events : List ExecProcessEvent
  numbered : ∀ i (h : i < events.length), (events[i]).seq = some (i + 1)
  closedOnce : events.countP ExecProcessEvent.isClosed ≤ 1

namespace SequencedEvents

variable {all : SequencedEvents}

lemma seq_of_mem {event : ExecProcessEvent} (h : event ∈ all.events) :
    ∃ seq, event.seq = some seq ∧ 1 ≤ seq ∧ all.events[seq - 1]? = some event := by
  obtain ⟨i, hi, rfl⟩ := List.mem_iff_getElem.mp h
  exact ⟨i + 1, all.numbered i hi, by omega, by simp [hi]⟩

lemma nodup (all : SequencedEvents) : all.events.Nodup := by
  rw [List.nodup_iff_injective_getElem]
  intro i j hij
  dsimp only at hij
  have hi := all.numbered i i.isLt
  have hj := all.numbered j j.isLt
  rw [hij, hj] at hi
  apply Fin.ext
  have := Option.some.inj hi
  omega

lemma take_succ {last : ℕ} {event : ExecProcessEvent} (h : all.events[last]? = some event) :
    all.events.take last ++ [event] = all.events.take (last + 1) := by
  rw [List.take_add_one, h]
  rfl

end SequencedEvents

/-! ## The loop -/

namespace OrderedSessionEvents

variable {all : SequencedEvents}

/-- Every event kept back is in its place and still to be published. -/
def Future (all : SequencedEvents) (ordered : OrderedSessionEvents) : Prop :=
  ∀ seq event, ordered.pending.lookup seq = some event →
    ordered.lastPublishedSeq < seq ∧ all.events[seq - 1]? = some event

lemma Future.erase {ordered : OrderedSessionEvents} (h : Future all ordered) :
    Future all ⟨ordered.lastPublishedSeq + 1,
      ordered.pending.erase (ordered.lastPublishedSeq + 1)⟩ := by
  intro seq event hlookup
  dsimp only at hlookup ⊢
  by_cases heq : seq = ordered.lastPublishedSeq + 1
  · rw [heq, AList.lookup_erase] at hlookup
    cases hlookup
  · rw [AList.lookup_erase_ne heq] at hlookup
    obtain ⟨hlt, hat⟩ := h seq event hlookup
    exact ⟨by omega, hat⟩

/-- What the loop does: it publishes the run that starts at the next number, and stops at a gap. -/
structure Drained (all : SequencedEvents) (ordered ordered' : OrderedSessionEvents)
    (ready : List ExecProcessEvent) : Prop where
  grows : ordered.lastPublishedSeq ≤ ordered'.lastPublishedSeq
  ready : all.events.take ordered.lastPublishedSeq ++ ready =
    all.events.take ordered'.lastPublishedSeq
  gap : ordered'.pending.lookup (ordered'.lastPublishedSeq + 1) = none
  left : ∀ seq, ordered'.pending.lookup seq =
    if seq ≤ ordered'.lastPublishedSeq then none else ordered.pending.lookup seq
  taken : ∀ seq, ordered.lastPublishedSeq < seq → seq ≤ ordered'.lastPublishedSeq →
    ∃ event, ordered.pending.lookup seq = some event

section

variable (ordered : OrderedSessionEvents)

lemma drain_spec (h : Future all ordered) :
    Drained all ordered ordered.drain.2 ordered.drain.1 := by
  fun_induction drain ordered with
  | case1 ordered nextSeq hnone =>
    dsimp only
    refine ⟨le_rfl, by simp, hnone, fun seq => ?_, fun seq hlt hle => by omega⟩
    -- nothing was pending at or below the last published number
    split
    · next hle =>
      cases hlookup : ordered.pending.lookup seq with
      | none => rfl
      | some event => exact absurd (h seq event hlookup).1 (by omega)
    · rfl
  | case2 ordered nextSeq event hsome rest ih =>
    have hfuture := h.erase
    obtain ⟨hgrows, hready, hgap, hleft, htaken⟩ := ih hfuture
    dsimp only at hgrows hready hleft htaken ⊢
    have hat : all.events[ordered.lastPublishedSeq]? = some event := (h nextSeq event hsome).2
    refine ⟨by dsimp only [rest]; omega, ?_, hgap, fun seq => ?_, fun seq hlt hle => ?_⟩
    · rw [List.append_cons, SequencedEvents.take_succ hat]
      exact hready
    · rw [hleft seq]
      split
      · rfl
      · next hgt => rw [AList.lookup_erase_ne (by omega)]
    · by_cases heq : seq = nextSeq
      · exact ⟨event, heq ▸ hsome⟩
      have hlt' : ordered.lastPublishedSeq + 1 < seq := by omega
      obtain ⟨event', hevent'⟩ := htaken seq hlt' hle
      rw [AList.lookup_erase_ne heq] at hevent'
      exact ⟨event', hevent'⟩

lemma lookup_orInsert (seq : ℕ) (event : ExecProcessEvent)
    (key : ℕ) : (ordered.orInsert seq event).pending.lookup key =
      if key = seq then some ((ordered.pending.lookup seq).getD event)
      else ordered.pending.lookup key := by
  unfold orInsert
  by_cases hkey : key = seq
  · rw [if_pos hkey, hkey]
    by_cases hmem : seq ∈ ordered.pending
    · rw [if_pos hmem]
      obtain ⟨old, hold⟩ := Option.isSome_iff_exists.mp (AList.lookup_isSome.mpr hmem)
      rw [hold]
      rfl
    · rw [if_neg hmem, AList.lookup_insert, AList.lookup_eq_none.mpr hmem]
      rfl
  · rw [if_neg hkey]
    split
    · rfl
    · exact AList.lookup_insert_ne hkey

@[simp]
lemma orInsert_lastPublishedSeq (seq : ℕ)
    (event : ExecProcessEvent) :
    (ordered.orInsert seq event).lastPublishedSeq = ordered.lastPublishedSeq := by
  unfold orInsert
  split <;> rfl

end

lemma Future.orInsert {ordered : OrderedSessionEvents} (h : Future all ordered) {seq : ℕ}
    {event : ExecProcessEvent} (hlt : ordered.lastPublishedSeq < seq)
    (hat : all.events[seq - 1]? = some event) : Future all (ordered.orInsert seq event) := by
  intro key found hfound
  rw [orInsert_lastPublishedSeq]
  rw [lookup_orInsert] at hfound
  split at hfound
  · next hkey =>
    subst hkey
    cases hold : ordered.pending.lookup key with
    | none =>
      rw [hold] at hfound
      exact ⟨hlt, hat.trans hfound⟩
    | some old =>
      rw [hold] at hfound
      exact ⟨hlt, (h key old hold).2.trans hfound⟩
  · exact h key found hfound

end OrderedSessionEvents

/-! ## One notification -/

namespace SessionState

variable {all : SequencedEvents} {arrivals : List ExecProcessEvent} {state : SessionState}

/-- What holds of the client after some notifications have arrived. -/
structure Delivered (all : SequencedEvents) (arrivals : List ExecProcessEvent)
    (state : SessionState) : Prop where
  published : state.events.live = all.events.take state.orderedEvents.lastPublishedSeq
  received : ∀ seq, 1 ≤ seq → seq ≤ state.orderedEvents.lastPublishedSeq →
    ∃ event ∈ arrivals, event.seq = some seq
  future : state.orderedEvents.Future all
  arrived : ∀ seq event, state.orderedEvents.pending.lookup seq = some event →
    ∃ event ∈ arrivals, event.seq = some seq
  kept : ∀ event ∈ arrivals, ∀ seq, event.seq = some seq →
    seq ≤ state.orderedEvents.lastPublishedSeq ∨
      ∃ found, state.orderedEvents.pending.lookup seq = some found
  gap : state.orderedEvents.pending.lookup (state.orderedEvents.lastPublishedSeq + 1) = none

lemma Delivered.new : Delivered all [] SessionState.new := by
  refine ⟨?_, fun seq h1 h2 => ?_, fun seq event h => ?_, fun seq event h => ?_, by simp, ?_⟩
  · simp [SessionState.new, ExecProcessEventLog.new, OrderedSessionEvents.default]
  · simp only [SessionState.new, OrderedSessionEvents.default] at h2
    omega
  · simp [SessionState.new, OrderedSessionEvents.default] at h
  · simp [SessionState.new, OrderedSessionEvents.default] at h
  · simp [SessionState.new, OrderedSessionEvents.default]

/-- A notification publishes some events, keeps the invariant and returns whether it closed. -/
lemma Delivered.publishOrderedEvent (h : Delivered all arrivals state) {event : ExecProcessEvent}
    (hmem : event ∈ all.events) :
    Delivered all (arrivals ++ [event]) (state.publishOrderedEvent event).1 ∧
      ∃ ready, (state.publishOrderedEvent event).1.events.live = state.events.live ++ ready ∧
        (state.publishOrderedEvent event).2 = ready.any ExecProcessEvent.isClosed := by
  obtain ⟨seq, hseq, hpos, hat⟩ := SequencedEvents.seq_of_mem hmem
  unfold SessionState.publishOrderedEvent
  simp only [hseq]
  split
  · next hle =>
    -- an event that was published before: nothing changes
    refine ⟨⟨h.published, ?_, h.future, ?_, ?_, h.gap⟩, [], by simp, by simp⟩
    · intro key h1 h2
      obtain ⟨found, hfound, hkey⟩ := h.received key h1 h2
      exact ⟨found, List.mem_append_left _ hfound, hkey⟩
    · intro key found hlookup
      obtain ⟨e, he, hkey⟩ := h.arrived key found hlookup
      exact ⟨e, List.mem_append_left _ he, hkey⟩
    · intro found hfound key hkey
      rcases List.mem_append.mp hfound with hold | hnew
      · exact h.kept found hold key hkey
      · rw [List.mem_singleton.mp hnew, hseq] at hkey
        exact .inl (Option.some.inj hkey ▸ hle)
  · next hgt =>
    have hlt : state.orderedEvents.lastPublishedSeq < seq := by omega
    obtain ⟨hgrows, hready, hgap, hleft, htaken⟩ :=
      OrderedSessionEvents.drain_spec _ (h.future.orInsert hlt hat)
    simp only [OrderedSessionEvents.orInsert_lastPublishedSeq] at hgrows hready htaken
    -- what is pending after the insertion has arrived
    have harrived : ∀ key found,
        (state.orderedEvents.orInsert seq event).pending.lookup key = some found →
        ∃ e ∈ arrivals ++ [event], e.seq = some key := by
      intro key found hfound
      rw [OrderedSessionEvents.lookup_orInsert] at hfound
      split at hfound
      · next hkey => exact ⟨event, by simp, hkey ▸ hseq⟩
      · obtain ⟨e, he, hkey⟩ := h.arrived key found hfound
        exact ⟨e, List.mem_append_left _ he, hkey⟩
    refine ⟨⟨?_, ?_, ?_, ?_, ?_, hgap⟩, _, ExecProcessEventLog.foldl_publish_live _ _, rfl⟩
    · rw [ExecProcessEventLog.foldl_publish_live, h.published]
      exact hready
    · intro key h1 h2
      by_cases hold : key ≤ state.orderedEvents.lastPublishedSeq
      · obtain ⟨found, hfound, hkey⟩ := h.received key h1 hold
        exact ⟨found, List.mem_append_left _ hfound, hkey⟩
      · obtain ⟨found, hfound⟩ := htaken key (by omega) h2
        exact harrived key found hfound
    · intro key found hfound
      dsimp only at hfound ⊢
      rw [hleft] at hfound
      split at hfound
      · cases hfound
      · next hkey => exact ⟨by omega, (h.future.orInsert hlt hat key found hfound).2⟩
    · intro key found hfound
      rw [hleft] at hfound
      split at hfound
      · cases hfound
      · exact harrived key found hfound
    · intro found hfound key hkey
      by_cases hle : key ≤ (state.orderedEvents.orInsert seq event).drain.2.lastPublishedSeq
      · exact .inl hle
      right
      rw [hleft, if_neg hle, OrderedSessionEvents.lookup_orInsert]
      split
      · exact ⟨_, rfl⟩
      next hne =>
      rcases List.mem_append.mp hfound with hold | hnew
      · rcases h.kept found hold key hkey with hpub | hpend
        · exact absurd (hpub.trans hgrows) hle
        · exact hpend
      · rw [List.mem_singleton.mp hnew, hseq] at hkey
        exact absurd (Option.some.inj hkey).symm hne

/-! ## All notifications -/

@[simp]
lemma receive_snoc (state : SessionState) (arrivals : List ExecProcessEvent)
    (event : ExecProcessEvent) : state.receive (arrivals ++ [event]) =
      ((state.receive arrivals).publishOrderedEvent event).1 := by
  simp [receive]

lemma returns_snoc (state : SessionState) (arrivals : List ExecProcessEvent)
    (event : ExecProcessEvent) : state.returns (arrivals ++ [event]) =
      state.returns arrivals ++ [((state.receive arrivals).publishOrderedEvent event).2] := by
  induction arrivals generalizing state with
  | nil => rfl
  | cons first arrivals ih => simp [returns, ih, receive]

lemma delivered_receive (arrivals : List ExecProcessEvent)
    (harrivals : ∀ event ∈ arrivals, event ∈ all.events) :
    Delivered all arrivals (new.receive arrivals) := by
  induction arrivals using List.reverseRecOn with
  | nil => exact Delivered.new
  | append_singleton arrivals event ih =>
    have hbefore := ih fun e he => harrivals e (List.mem_append_left _ he)
    rw [receive_snoc]
    exact (hbefore.publishOrderedEvent (harrivals event (by simp))).1

section

variable (h : Delivered all arrivals state)
include h

lemma Delivered.isGreatest :
    IsGreatest {k | ∀ seq, 1 ≤ seq → seq ≤ k → ∃ event ∈ arrivals, event.seq = some seq}
      state.orderedEvents.lastPublishedSeq := by
  refine ⟨h.received, fun k hk => ?_⟩
  by_contra hlt
  obtain ⟨event, hevent, hseq⟩ := hk (state.orderedEvents.lastPublishedSeq + 1) (by omega)
    (by omega)
  rcases h.kept event hevent _ hseq with hle | ⟨found, hfound⟩
  · omega
  · rw [h.gap] at hfound
    cases hfound

lemma Delivered.countP_isClosed_le :
    state.events.live.countP ExecProcessEvent.isClosed ≤ 1 := by
  rw [h.published]
  exact ((List.take_sublist _ _).countP_le).trans all.closedOnce

lemma Delivered.nodup_live : state.events.live.Nodup := by
  rw [h.published]
  exact all.nodup.sublist (List.take_sublist _ _)

end

lemma count_returns (arrivals : List ExecProcessEvent)
    (harrivals : ∀ event ∈ arrivals, event ∈ all.events) :
    (new.returns arrivals).count true =
      (new.receive arrivals).events.live.countP ExecProcessEvent.isClosed := by
  induction arrivals using List.reverseRecOn with
  | nil => rfl
  | append_singleton arrivals event ih =>
    have hall : ∀ e ∈ arrivals, e ∈ all.events := fun e he =>
      harrivals e (List.mem_append_left _ he)
    obtain ⟨hafter, ready, hlive, hreturn⟩ :=
      (delivered_receive arrivals hall).publishOrderedEvent (harrivals event (by simp))
    have hclosed := hafter.countP_isClosed_le
    rw [hlive, List.countP_append] at hclosed
    rw [returns_snoc, List.count_append, ih hall, receive_snoc, hlive, List.countP_append, hreturn]
    congr 1
    cases hany : ready.any ExecProcessEvent.isClosed with
    | true =>
      have hpos : 0 < ready.countP ExecProcessEvent.isClosed := by
        rw [List.countP_pos_iff]
        exact List.any_eq_true.mp hany
      have hone : [true].count true = 1 := rfl
      omega
    | false =>
      rw [List.countP_eq_zero.mpr]
      · rfl
      · intro e he hc
        rw [List.any_eq_false] at hany
        exact hany e he hc

/-- For every order of arrival, with any repetitions: the published events are those numbered 1 to
`k`, each once and in order, where `k` is the length of the longest contiguous run from 1 that has
arrived; a call returns true if and only if it publishes the close event, and so at most once. -/
theorem ordered_delivery (all : SequencedEvents) (arrivals : List ExecProcessEvent)
    (harrivals : ∀ event ∈ arrivals, event ∈ all.events) :
    (∃ k, k ≤ all.events.length ∧
      IsGreatest {k | ∀ seq, 1 ≤ seq → seq ≤ k → ∃ event ∈ arrivals, event.seq = some seq} k ∧
      (new.receive arrivals).events.live = all.events.take k) ∧
    (∀ before event after, arrivals = before ++ event :: after →
      (((new.receive before).publishOrderedEvent event).2 = true ↔
        ∃ closed, closed.isClosed = true ∧ closed ∉ (new.receive before).events.live ∧
          closed ∈ (new.receive (before ++ [event])).events.live)) ∧
    (new.returns arrivals).count true =
      if ∃ closed ∈ (new.receive arrivals).events.live, closed.isClosed = true then 1 else 0 := by
  have hdelivered := delivered_receive arrivals harrivals
  refine ⟨⟨_, ?_, hdelivered.isGreatest, hdelivered.published⟩, ?_, ?_⟩
  · -- the event with the last published number is one of the process
    by_cases hzero : (new.receive arrivals).orderedEvents.lastPublishedSeq = 0
    · omega
    obtain ⟨event, hevent, hseq⟩ := hdelivered.received _ (by omega) le_rfl
    obtain ⟨seq, hseq', -, hat⟩ := SequencedEvents.seq_of_mem (harrivals event hevent)
    have hlt := (List.getElem?_eq_some_iff.mp hat).1
    rw [hseq] at hseq'
    have := Option.some.inj hseq'
    omega
  · intro before event after hsplit
    have hmem : ∀ e ∈ before ++ [event], e ∈ all.events := by
      intro e he
      apply harrivals
      rw [hsplit]
      simp only [List.mem_append, List.mem_cons] at he ⊢
      tauto
    obtain ⟨hafter, ready, hlive, hreturn⟩ := (delivered_receive before fun e he =>
      hmem e (List.mem_append_left _ he)).publishOrderedEvent (hmem event (by simp))
    have hnodup := hafter.nodup_live
    rw [hlive, List.nodup_append] at hnodup
    rw [hreturn, List.any_eq_true, receive_snoc, hlive]
    constructor
    · rintro ⟨closed, hready, hclosed⟩
      exact ⟨closed, hclosed, fun hold => hnodup.2.2 closed hold closed hready rfl,
        List.mem_append_right _ hready⟩
    · rintro ⟨closed, hclosed, hnew, hpub⟩
      exact ⟨closed, (List.mem_append.mp hpub).resolve_left hnew, hclosed⟩
  · rw [count_returns arrivals harrivals]
    have hle := hdelivered.countP_isClosed_le
    split
    · next hex =>
      have hpos := List.countP_pos_iff.mpr hex
      omega
    · next hnone =>
      rw [List.countP_eq_zero]
      exact fun e he hc => hnone ⟨e, he, hc⟩

/-- The events of a process that writes once, exits and is closed. -/
def shortProcess : SequencedEvents where
  events := [.output ⟨1, .stdout, [104, 105]⟩, .exited 2 0, .closed 3]
  numbered := by
    intro i h
    simp only [List.length_cons, List.length_nil] at h
    interval_cases i <;> rfl
  closedOnce := by decide

/-- The close event arrives first and the exit twice. -/
theorem ordered_delivery_closed_first :
    (new.returns [.closed 3, .exited 2 0, .exited 2 0, .output ⟨1, .stdout, [104, 105]⟩]).count true
      = if ∃ closed ∈ (new.receive [.closed 3, .exited 2 0, .exited 2 0,
          .output ⟨1, .stdout, [104, 105]⟩]).events.live, closed.isClosed = true then 1 else 0 :=
  (ordered_delivery shortProcess
    [.closed 3, .exited 2 0, .exited 2 0, .output ⟨1, .stdout, [104, 105]⟩] (by decide)).2.2

end SessionState

end Supercodex.ExecServer
