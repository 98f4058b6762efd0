import Supercodex.Library.EntryCount
import Supercodex.Library.Runs
import Supercodex.RemoteControl.Outbound

/-!
# Outbound delivery: what every session keeps

The buffer of a stream holds the events of the stream that no later ack covers, in their order. The
sequence ids of a stream count from 1 and stay at `u64::MAX` once they have reached it.
-/

namespace Supercodex.RemoteControl

open Supercodex.Runs BoundedOutboundBuffer HistoryEntry

/-! ## The history of a stream -/

/-- The events of a stream that were put into the buffer, oldest first. -/
def dequeuedOf (key : ClientKey) (history : List HistoryEntry) : List ServerEnvelope :=
  history.filterMap fun
    | .dequeued envelope => if envelope.key = key then some envelope else none
    | .acked _ _ => none

/-- Does the entry acknowledge the event? -/
def HistoryEntry.covers (envelope : ServerEnvelope) : HistoryEntry → Bool
  | .acked key seqId => key = envelope.key && envelope.seqId ≤ seqId
  | .dequeued _ => false

/-- Is the event one of the stream, and covered by none of the later entries? -/
def isPending (key : ClientKey) (envelope : ServerEnvelope) (later : List HistoryEntry) : Bool :=
  envelope.key = key && !later.any (HistoryEntry.covers envelope)

/-- The events of a stream that no later ack covers, oldest first. -/
def uncovered (key : ClientKey) : List HistoryEntry → List ServerEnvelope
  | [] => []
  | .dequeued envelope :: later =>
    if isPending key envelope later then envelope :: uncovered key later else uncovered key later
  | .acked _ _ :: later => uncovered key later

/-- The ids of the first `n` events of a stream. -/
def seqIds (n : ℕ) : List ℕ := (List.range n).map fun i => min (i + 1) u64Max

variable {envelope : ServerEnvelope}

section
variable {key : ClientKey} {history : List HistoryEntry}

lemma dequeuedOf_concat_dequeued (envelope : ServerEnvelope) :
    dequeuedOf key (history ++ [.dequeued envelope]) =
      dequeuedOf key history ++ if envelope.key = key then [envelope] else [] := by
  unfold dequeuedOf
  rw [List.filterMap_append]
  by_cases h : envelope.key = key <;> simp [h]

lemma dequeuedOf_concat_acked (key' : ClientKey) (seqId : ℕ) :
    dequeuedOf key (history ++ [.acked key' seqId]) = dequeuedOf key history := by
  simp [dequeuedOf]

lemma isPending_concat_dequeued (first envelope : ServerEnvelope) :
    isPending key first (history ++ [.dequeued envelope]) = isPending key first history := by
  simp [isPending, covers]

lemma isPending_concat_acked (first : ServerEnvelope) (key' : ClientKey) (seqId : ℕ) :
    isPending key first (history ++ [.acked key' seqId]) =
      (isPending key first history && (decide (key' ≠ key) || decide (seqId < first.seqId))) := by
  by_cases hfirst : first.key = key
  · by_cases hkey : key' = key
    · by_cases hseq : first.seqId ≤ seqId
      · simp [isPending, covers, hfirst, hkey, hseq, Nat.not_lt.mpr hseq]
      · simp [isPending, covers, hfirst, hkey, hseq, Nat.lt_of_not_le hseq]
    · simp [isPending, covers, hfirst, hkey]
  · simp [isPending, hfirst]

lemma uncovered_concat_dequeued (envelope : ServerEnvelope) :
    uncovered key (history ++ [.dequeued envelope]) =
      uncovered key history ++ if envelope.key = key then [envelope] else [] := by
  induction history with
  | nil => by_cases h : envelope.key = key <;> simp [uncovered, isPending, h]
  | cons entry history ih =>
    cases entry with
    | acked _ _ => exact ih
    | dequeued first =>
      simp only [List.cons_append, uncovered, isPending_concat_dequeued, ih]
      cases isPending key first history <;> rfl

lemma uncovered_concat_acked (key' : ClientKey) (seqId : ℕ) :
    uncovered key (history ++ [.acked key' seqId]) =
      (uncovered key history).filter fun envelope =>
        decide (key' ≠ key) || decide (seqId < envelope.seqId) := by
  induction history with
  | nil => rfl
  | cons entry history ih =>
    cases entry with
    | acked _ _ => exact ih
    | dequeued first =>
      simp only [List.cons_append, uncovered, isPending_concat_acked, ih]
      cases isPending key first history with
      | false => simp
      | true => simp [List.filter_cons]

lemma uncovered_sublist : (uncovered key history).Sublist (dequeuedOf key history) := by
  induction history with
  | nil => exact .slnil
  | cons entry history ih =>
    cases entry with
    | acked _ _ => simpa [uncovered, dequeuedOf] using ih
    | dequeued first =>
      by_cases hfirst : first.key = key
      · have hdequeued : dequeuedOf key (.dequeued first :: history) =
            first :: dequeuedOf key history := by simp [dequeuedOf, hfirst]
        rw [hdequeued, uncovered]
        split
        · exact ih.cons_cons first
        · exact ih.cons first
      · have hdequeued : dequeuedOf key (.dequeued first :: history) = dequeuedOf key history := by
          simp [dequeuedOf, hfirst]
        rw [hdequeued, uncovered, if_neg (by simp [isPending, hfirst])]
        exact ih

lemma key_of_mem_dequeuedOf (h : envelope ∈ dequeuedOf key history) :
    envelope.key = key := by
  obtain ⟨entry, -, hentry⟩ := List.mem_filterMap.mp h
  cases entry with
  | acked _ _ => cases hentry
  | dequeued other =>
    by_cases hother : other.key = key
    · simp only [hother, if_true, Option.some.injEq] at hentry
      rw [← hentry, hother]
    · simp [hother] at hentry

lemma key_of_mem_uncovered (h : envelope ∈ uncovered key history) :
    envelope.key = key :=
  key_of_mem_dequeuedOf (uncovered_sublist.subset h)

end

/-! ## Sequence ids -/

lemma seqIds_succ (n : ℕ) : seqIds (n + 1) = seqIds n ++ [min (n + 1) u64Max] := by
  simp [seqIds, List.range_succ]

/-- Ids grow, until they stay at the largest one. -/
def Grows (a b : ℕ) : Prop := a < b ∨ a = u64Max ∧ b = u64Max

lemma pairwise_seqIds (n : ℕ) : (seqIds n).Pairwise Grows := by
  unfold seqIds
  rw [List.pairwise_map]
  refine List.pairwise_lt_range.imp fun {i j} hij => ?_
  show min (i + 1) u64Max < min (j + 1) u64Max ∨ _ ∧ _
  omega

lemma dropWhile_eq_filter {l : List ServerEnvelope} (ackedSeqId : ℕ)
    (h : l.Pairwise fun a b => a.seqId ≤ b.seqId) :
    l.dropWhile (fun envelope => decide (envelope.seqId ≤ ackedSeqId)) =
      l.filter fun envelope => decide (ackedSeqId < envelope.seqId) := by
  induction l with
  | nil => rfl
  | cons envelope rest ih =>
    have hpair := List.pairwise_cons.mp h
    by_cases hacked : envelope.seqId ≤ ackedSeqId
    · rw [List.dropWhile_cons_of_pos (by simpa using hacked), ih hpair.2,
        List.filter_cons_of_neg (by simpa using hacked)]
    rw [List.dropWhile_cons_of_neg (by simpa using hacked), eq_comm, List.filter_eq_self]
    intro other hother
    rcases List.mem_cons.mp hother with rfl | hother
    · exact decide_eq_true (Nat.lt_of_not_le hacked)
    · have hle := hpair.1 other hother
      exact decide_eq_true (by omega)

/-! ## The buffer -/

/-- The number of buffered events. -/
def BoundedOutboundBuffer.total (b : BoundedOutboundBuffer) : ℕ :=
  (b.bufferByStream.entries.map (·.2.length)).sum

section
variable {b b' : BoundedOutboundBuffer} {key : ClientKey}

lemma sum_kerase (key : ClientKey) (l : List (Sigma fun _ : ClientKey => List ServerEnvelope)) :
    ((l.kerase key).map (·.2.length)).sum + ((l.dlookup key).getD []).length =
      (l.map (·.2.length)).sum := by
  induction l with
  | nil => rfl
  | cons entry l ih =>
    obtain ⟨key', envelopes⟩ := entry
    by_cases hkey : key = key'
    · subst hkey
      simp [Nat.add_comm]
    · rw [List.kerase_cons_ne hkey, List.dlookup_cons_ne _ _ hkey, List.map_cons, List.map_cons,
        List.sum_cons, List.sum_cons]
      omega

lemma length_ofStream_le_total : (b.ofStream key).length ≤ b.total := by
  have hsum := sum_kerase key b.bufferByStream.entries
  unfold ofStream AList.lookup total
  omega

lemma total_insert (envelope : ServerEnvelope) : (b.insert envelope).total = b.total + 1 := by
  have hsum := sum_kerase envelope.key b.bufferByStream.entries
  have hlength : (b.ofStream envelope.key ++ [envelope]).length =
      ((b.bufferByStream.entries.dlookup envelope.key).getD []).length + 1 := List.length_append
  show (((b.bufferByStream.insert envelope.key _).entries).map _).sum = _
  rw [AList.entries_insert, List.map_cons, List.sum_cons, hlength]
  unfold total
  omega

lemma ofStream_insert (envelope : ServerEnvelope) :
    (b.insert envelope).ofStream key =
      b.ofStream key ++ if envelope.key = key then [envelope] else [] := by
  show ((b.bufferByStream.insert envelope.key _).lookup key).getD [] = _
  by_cases hkey : envelope.key = key
  · rw [← hkey, AList.lookup_insert, if_pos rfl]
    rfl
  · rw [AList.lookup_insert_ne (Ne.symm hkey), if_neg hkey, List.append_nil]
    rfl

lemma popAcked_eq_some (ackedSeqId : ℕ) (l : List ServerEnvelope) (used : ℕ)
    (h : l.length ≤ used) :
    ∃ used', popAcked ackedSeqId l used =
        some (l.dropWhile (fun envelope => decide (envelope.seqId ≤ ackedSeqId)), used') ∧
      used' + l.length =
        used + (l.dropWhile fun envelope => decide (envelope.seqId ≤ ackedSeqId)).length := by
  induction l generalizing used with
  | nil => exact ⟨used, rfl, rfl⟩
  | cons envelope rest ih =>
    rw [List.length_cons] at h
    rw [popAcked]
    by_cases hacked : envelope.seqId ≤ ackedSeqId
    · obtain ⟨used', hpop, hused⟩ := ih (used - 1) (by omega)
      refine ⟨used', ?_, ?_⟩
      · rw [if_pos hacked, if_neg (by omega), hpop,
          List.dropWhile_cons_of_pos (by simpa using hacked)]
      · rw [List.dropWhile_cons_of_pos (by simpa using hacked), List.length_cons]
        omega
    · rw [if_neg hacked, List.dropWhile_cons_of_neg (by simpa using hacked)]
      exact ⟨used, rfl, rfl⟩

/-- What an ack does to a buffer whose counter is right: it never underflows, it drops the
acknowledged events from the front of the stream, and the counter stays right. -/
lemma ack_eq_some (key : ClientKey) (ackedSeqId : ℕ) (hused : b.used = b.total) :
    ∃ b', b.ack key ackedSeqId = some b' ∧ b'.used = b'.total ∧
      ∀ key', b'.ofStream key' =
        if key' = key then
          (b.ofStream key).dropWhile (fun envelope => decide (envelope.seqId ≤ ackedSeqId))
        else b.ofStream key' := by
  unfold BoundedOutboundBuffer.ack
  cases hlookup : b.bufferByStream.lookup key with
  | none =>
    refine ⟨b, rfl, hused, fun key' => ?_⟩
    split
    · rename_i hkey
      have hempty : b.ofStream key = [] := by
        rw [ofStream, hlookup]
        rfl
      rw [hkey, hempty]
      rfl
    · rfl
  | some buffer =>
    have hstream : b.ofStream key = buffer := by
      rw [ofStream, hlookup]
      rfl
    have hle : buffer.length ≤ b.used := by
      rw [hused, ← hstream]
      exact length_ofStream_le_total
    have hsum := sum_kerase key b.bufferByStream.entries
    rw [show b.bufferByStream.entries.dlookup key = some buffer from hlookup,
      Option.getD_some] at hsum
    obtain ⟨used', hpop, hcount⟩ := popAcked_eq_some ackedSeqId buffer b.used hle
    rw [hstream]
    generalize buffer.dropWhile (fun envelope => decide (envelope.seqId ≤ ackedSeqId)) = rest
      at hpop hcount ⊢
    dsimp only
    rw [hpop, Option.map_some]
    refine ⟨_, rfl, ?_⟩
    unfold total at hused
    by_cases hrest : rest = []
    · -- the last event was popped, so the stream is taken out
      rw [if_pos hrest]
      refine ⟨?_, fun key' => ?_⟩
      · show used' = ((b.bufferByStream.entries.kerase key).map (·.2.length)).sum
        rw [hrest, List.length_nil] at hcount
        omega
      · show ((b.bufferByStream.erase key).lookup key').getD [] = _
        rw [EntryCount.lookup_erase_eq]
        split
        · rw [hrest]
          rfl
        · rfl
    · rw [if_neg hrest]
      refine ⟨?_, fun key' => ?_⟩
      · show used' = ((b.bufferByStream.insert key rest).entries.map (·.2.length)).sum
        rw [AList.entries_insert, List.map_cons, List.sum_cons]
        show used' = rest.length + _
        omega
      · show ((b.bufferByStream.insert key rest).lookup key').getD [] = _
        rw [EntryCount.lookup_insert_eq]
        split <;> rfl

lemma filter_flatMap_entries (l : List (Sigma fun _ : ClientKey => List ServerEnvelope))
    (hnodup : l.NodupKeys) (hkeys : ∀ entry ∈ l, ∀ envelope ∈ entry.2, envelope.key = entry.1) :
    (l.flatMap (·.2)).filter (fun envelope => decide (envelope.key = key)) =
      (l.dlookup key).getD [] := by
  induction l with
  | nil => rfl
  | cons entry l ih =>
    obtain ⟨key', envelopes⟩ := entry
    have hhead : ∀ envelope ∈ envelopes, envelope.key = key' :=
      hkeys ⟨key', envelopes⟩ List.mem_cons_self
    have hrest := ih (List.nodupKeys_cons.mp hnodup).2
      fun entry hentry => hkeys entry (List.mem_cons_of_mem _ hentry)
    rw [List.flatMap_cons, List.filter_append, hrest]
    by_cases hkey : key = key'
    · subst hkey
      have hnone : l.dlookup key = none :=
        List.dlookup_eq_none.mpr (List.nodupKeys_cons.mp hnodup).1
      have hself : envelopes.filter (fun envelope => decide (envelope.key = key)) = envelopes :=
        List.filter_eq_self.mpr fun envelope henvelope => decide_eq_true (hhead envelope henvelope)
      rw [hself, hnone, List.dlookup_cons_eq]
      exact List.append_nil _
    · have hnil : envelopes.filter (fun envelope => decide (envelope.key = key)) = [] :=
        List.filter_eq_nil_iff.mpr fun envelope henvelope => by
          rw [hhead envelope henvelope]
          simpa using Ne.symm hkey
      rw [hnil, List.dlookup_cons_ne _ _ hkey]
      rfl

end

/-! ## The invariant -/

section
variable (serialize : ServerEnvelope → Option Text)

/-- Every stream of the list has growing ids. -/
def InSeqOrder (envelopes : List ServerEnvelope) : Prop :=
  ∀ key, (envelopes.filter fun envelope => decide (envelope.key = key)).Pairwise
    fun a b => Grows a.seqId b.seqId

/-- What a session keeps. -/
structure Delivers (s : OutboundSession) : Prop where
  ids : ∀ key, (dequeuedOf key s.history).map (·.seqId) =
    seqIds (dequeuedOf key s.history).length
  next : ∀ key, (s.state.nextSeqIdByStream key).getD 1 =
    min ((dequeuedOf key s.history).length + 1) u64Max
  serialises : ∀ key, ∀ envelope ∈ dequeuedOf key s.history, (serialize envelope).isSome = true
  buffer : ∀ key, s.state.outboundBuffer.ofStream key = uncovered key s.history
  used : s.state.outboundBuffer.used = s.state.outboundBuffer.total
  replay : ∀ passed rest, s.phase = .replaying passed rest → InSeqOrder (passed ++ rest)

end

section
variable {serialize : ServerEnvelope → Option Text} {s s' : OutboundSession} {key : ClientKey}

lemma delivers_new : Delivers serialize .new where
  ids _ := rfl
  next _ := rfl
  serialises := by simp [OutboundSession.new, dequeuedOf]
  buffer _ := rfl
  used := rfl
  replay := by simp [OutboundSession.new]

lemma Delivers.pairwise_uncovered (h : Delivers serialize s) (key : ClientKey) :
    (uncovered key s.history).Pairwise fun a b => Grows a.seqId b.seqId := by
  have hids := pairwise_seqIds (dequeuedOf key s.history).length
  rw [← h.ids key, List.pairwise_map] at hids
  exact hids.sublist uncovered_sublist

lemma Delivers.of_phase (h : Delivers serialize s) (phase : WriterPhase)
    (hreplay : ∀ passed rest, phase = .replaying passed rest → InSeqOrder (passed ++ rest)) :
    Delivers serialize { s with phase := phase } :=
  ⟨h.ids, h.next, h.serialises, h.buffer, h.used, hreplay⟩

lemma Delivers.filter_replay (h : Delivers serialize s)
    {streams : List (Sigma fun _ : ClientKey => List ServerEnvelope)}
    (hstreams : streams.Perm s.state.outboundBuffer.bufferByStream.entries) (key : ClientKey) :
    (streams.flatMap (·.2)).filter (fun envelope => decide (envelope.key = key)) =
      s.state.outboundBuffer.ofStream key := by
  have hnodup : streams.NodupKeys :=
    (List.perm_nodupKeys hstreams).mpr s.state.outboundBuffer.bufferByStream.nodupKeys
  rw [filter_flatMap_entries streams hnodup, List.perm_dlookup key hnodup hstreams]
  · rfl
  · intro entry hentry envelope henvelope
    -- an entry of the buffer holds the uncovered events of its stream
    have hlookup : s.state.outboundBuffer.bufferByStream.lookup entry.1 = some entry.2 :=
      AList.mem_lookup_iff.mpr (hstreams.mem_iff.mp hentry)
    have hbuffer := h.buffer entry.1
    rw [ofStream, hlookup, Option.getD_some] at hbuffer
    rw [hbuffer] at henvelope
    exact key_of_mem_uncovered henvelope

variable {queued : QueuedServerEnvelope}

/-- What is sent has the next number of its stream and is buffered. -/
lemma enqueue_eq_some {state state' : WebsocketState}
    (h : state.enqueue serialize queued = (state', some envelope)) :
    envelope = ⟨queued.event, queued.clientId, (state.nextSeqIdByStream envelope.key).getD 1,
        queued.streamId⟩ ∧
      (serialize envelope).isSome = true ∧
      state'.outboundBuffer = state.outboundBuffer.insert envelope ∧
      state'.nextSeqIdByStream = Function.update state.nextSeqIdByStream envelope.key
        (some (min (envelope.seqId + 1) u64Max)) := by
  unfold WebsocketState.enqueue at h
  dsimp only at h
  split at h
  · cases h
  · rename_i payload hpayload
    cases h
    exact ⟨rfl, by rw [hpayload]; rfl, rfl, rfl⟩

lemma enqueue_eq_none {state state' : WebsocketState}
    (h : state.enqueue serialize queued = (state', none)) (key : ClientKey) :
    state'.outboundBuffer = state.outboundBuffer ∧
      (state'.nextSeqIdByStream key).getD 1 = (state.nextSeqIdByStream key).getD 1 ∧
      ∃ envelope, serialize envelope = none := by
  unfold WebsocketState.enqueue at h
  dsimp only at h
  split at h
  · rename_i hnone
    cases h
    refine ⟨rfl, ?_, _, hnone⟩
    dsimp only
    by_cases hkey : key = (queued.clientId, queued.streamId)
    · rw [hkey, Function.update_self]
      rfl
    · rw [Function.update_of_ne hkey]
  · cases h

lemma Delivers.dequeue (h : Delivers serialize s)
    {state : WebsocketState}
    (henqueue : s.state.enqueue serialize queued = (state, some envelope)) :
    Delivers serialize ⟨state, .sending envelope, s.history ++ [.dequeued envelope]⟩ := by
  obtain ⟨henvelope, hserialize, hbuffer, hnext⟩ := enqueue_eq_some henqueue
  have hseqId : envelope.seqId = min ((dequeuedOf envelope.key s.history).length + 1) u64Max := by
    rw [← h.next envelope.key]
    nth_rewrite 1 [henvelope]
    rfl
  refine ⟨fun key => ?_, fun key => ?_, fun key other hother => ?_, fun key => ?_, ?_, by simp⟩
  · dsimp only
    rw [dequeuedOf_concat_dequeued]
    by_cases hkey : envelope.key = key
    · rw [if_pos hkey, List.map_append, h.ids key, List.length_append, List.length_singleton,
        seqIds_succ, List.map_singleton, hseqId, hkey]
    · rw [if_neg hkey, List.append_nil]
      exact h.ids key
  · dsimp only
    rw [hnext, dequeuedOf_concat_dequeued]
    by_cases hkey : envelope.key = key
    · rw [if_pos hkey, ← hkey, Function.update_self, Option.getD_some, hseqId, List.length_append,
        List.length_singleton]
      omega
    · rw [if_neg hkey, Function.update_of_ne (Ne.symm hkey), List.append_nil]
      exact h.next key
  · rw [dequeuedOf_concat_dequeued, List.mem_append] at hother
    rcases hother with hother | hother
    · exact h.serialises key other hother
    split at hother
    · rw [List.mem_singleton.mp hother]
      exact hserialize
    · cases hother
  · dsimp only
    rw [hbuffer, ofStream_insert, uncovered_concat_dequeued, h.buffer key]
  · dsimp only
    rw [hbuffer, total_insert, ← h.used]
    rfl

lemma Delivers.ack (h : Delivers serialize s) {seqId : ℕ} {buffer : BoundedOutboundBuffer}
    (hack : s.state.outboundBuffer.ack key seqId = some buffer) :
    Delivers serialize
      { s with
        state := { s.state with outboundBuffer := buffer }
        history := s.history ++ [.acked key seqId] } := by
  obtain ⟨buffer', hack', hused, hstream⟩ := ack_eq_some key seqId h.used
  rw [hack] at hack'
  cases hack'
  refine ⟨fun key' => ?_, fun key' => ?_, fun key' other hother => ?_, fun key' => ?_, hused,
    h.replay⟩
  · dsimp only
    rw [dequeuedOf_concat_acked]
    exact h.ids key'
  · dsimp only
    rw [dequeuedOf_concat_acked]
    exact h.next key'
  · rw [dequeuedOf_concat_acked] at hother
    exact h.serialises key' other hother
  · dsimp only
    rw [hstream, uncovered_concat_acked]
    split
    · rename_i hkey
      have hsorted : (uncovered key s.history).Pairwise fun a b => a.seqId ≤ b.seqId :=
        (h.pairwise_uncovered key).imp fun {a b} hgrows => by
          unfold Grows at hgrows
          omega
      rw [h.buffer key, dropWhile_eq_filter seqId hsorted, hkey]
      simp
    · rename_i hkey
      rw [h.buffer key', eq_comm, List.filter_eq_self]
      intro envelope _
      simp [Ne.symm hkey]

lemma Delivers.step {label : OutboundLabel} (h : Delivers serialize s)
    (hstep : OutboundStep serialize s label s') : Delivers serialize s' := by
  cases hstep with
  | connect _ hstreams =>
    refine h.of_phase _ fun passed rest hphase key => ?_
    cases hphase
    rw [List.nil_append, h.filter_replay hstreams key, h.buffer key]
    exact h.pairwise_uncovered key
  | replayNext hphase =>
    refine h.of_phase _ fun passed rest hphase' key => ?_
    cases hphase'
    have hreplay := h.replay _ _ hphase key
    rwa [List.append_cons] at hreplay
  | replayDone _ => exact h.of_phase _ (by simp)
  | dequeue _ _ henqueue => exact h.dequeue henqueue
  | dequeueDropped _ _ henqueue =>
    refine ⟨h.ids, fun key => ?_, h.serialises, fun key => ?_, ?_, h.replay⟩
    · exact (enqueue_eq_none henqueue key).2.1.trans (h.next key)
    · dsimp only
      rw [(enqueue_eq_none henqueue key).1]
      exact h.buffer key
    · dsimp only
      rw [(enqueue_eq_none henqueue ([], [])).1]
      exact h.used
  | sent _ => exact h.of_phase _ (by simp)
  | ack hack => exact h.ack hack
  | disconnect => exact h.of_phase _ (by simp)

/-! ## Runs -/

variable {ts : List (Transition OutboundSession OutboundLabel)}

lemma delivers_run (hrun : Run (OutboundStep serialize) .new ts s) :
    Delivers serialize s ∧ ∀ t ∈ ts, Delivers serialize t.before ∧
      OutboundStep serialize t.before t.label t.after :=
  hrun.invariant (fun _ _ => True) (fun _ _ => trivial) delivers_new
    fun _ _ _ h _ hstep => h.step hstep

/-- Over every run: the ids of a stream count from 1 and stay at `u64::MAX` once there; the buffer of a
stream holds the events that no later ack covers, in order; the counter of the buffer is the number of
its events and never underflows; every event that is dequeued is kept; and a replay begins with the
whole buffer, each stream in the order of its ids. -/
theorem outbound_delivery (hserialize : ∀ envelope, (serialize envelope).isSome = true)
    (hrun : Run (OutboundStep serialize) .new ts s) :
    (∀ key, (dequeuedOf key s.history).map (·.seqId) =
      seqIds (dequeuedOf key s.history).length) ∧
    (∀ key, s.state.outboundBuffer.ofStream key = uncovered key s.history) ∧
    (s.state.outboundBuffer.used = s.state.outboundBuffer.total ∧
      ∀ key seqId, (s.state.outboundBuffer.ack key seqId).isSome = true) ∧
    (∀ passed rest, s.phase = .replaying passed rest → InSeqOrder (passed ++ rest)) ∧
    ∀ t ∈ ts,
      (∀ queued, t.label = .dequeue queued → ∃ envelope,
        t.after.history = t.before.history ++ [.dequeued envelope] ∧
        envelope.event = queued.event ∧ envelope.key = (queued.clientId, queued.streamId)) ∧
      (t.label = .connect → ∃ rest, t.after.phase = .replaying [] rest ∧ InSeqOrder rest ∧
        (∀ envelope ∈ rest, (serialize envelope).isSome = true) ∧
        ∀ key, rest.filter (fun envelope => decide (envelope.key = key)) =
          t.before.state.outboundBuffer.ofStream key) := by
  obtain ⟨h, hsteps⟩ := delivers_run hrun
  refine ⟨h.ids, h.buffer, ⟨h.used, fun key seqId => ?_⟩, h.replay, fun t ht => ?_⟩
  · obtain ⟨buffer, hack, -⟩ := ack_eq_some key seqId h.used
    rw [hack]
    rfl
  · obtain ⟨hbefore, hstep⟩ := hsteps t ht
    obtain ⟨before, label, after⟩ := t
    refine ⟨fun queued hlabel => ?_, fun hlabel => ?_⟩
    · dsimp only at hlabel hstep ⊢
      subst hlabel
      cases hstep with
      | dequeue _ _ henqueue =>
        obtain ⟨henvelope, -⟩ := enqueue_eq_some henqueue
        exact ⟨_, rfl, congrArg ServerEnvelope.event henvelope, congrArg ServerEnvelope.key henvelope⟩
      | dequeueDropped _ _ henqueue =>
        obtain ⟨-, -, envelope, hnone⟩ := enqueue_eq_none henqueue ([], [])
        have hsome := hserialize envelope
        rw [hnone] at hsome
        cases hsome
    · dsimp only at hlabel hstep hbefore ⊢
      subst hlabel
      cases hstep with
      | connect _ hstreams =>
        refine ⟨_, rfl, fun key => ?_, fun _ _ => hserialize _, hbefore.filter_replay hstreams⟩
        rw [hbefore.filter_replay hstreams key, hbefore.buffer key]
        exact hbefore.pairwise_uncovered key

end

/-! ## Ids at the end of their range -/

/-- An envelope as JSON, for texts without characters that need escaping. -/
def jsonEnvelope (envelope : ServerEnvelope) : Option Text :=
  some (['\x7b'] ++ envelope.event ++ ",\"client_id\":\"".toList ++ envelope.clientId ++
    "\",\"seq_id\":".toList ++ Nat.toDigits 10 envelope.seqId ++ ",\"stream_id\":\"".toList ++
    envelope.streamId ++ ['"', '\x7d'])

/-- An event for the stream `s` of the client `c`. -/
def queuedPong : QueuedServerEnvelope := ⟨"\"type\":\"pong\"".toList, ['c'], ['s']⟩

lemma ack_insert_new (envelope : ServerEnvelope) :
    (new.insert envelope).ack envelope.key envelope.seqId = some .new := by
  have hlookup : (new.insert envelope).bufferByStream.lookup envelope.key =
      some [envelope] := AList.lookup_insert _
  have hpop : popAcked envelope.seqId [envelope] 1 = some ([], 0) := by
    simp [popAcked]
  have herase : (new.insert envelope).bufferByStream.erase envelope.key = ∅ :=
    AList.ext (List.kerase_cons_eq rfl)
  unfold BoundedOutboundBuffer.ack
  rw [hlookup]
  show (popAcked envelope.seqId [envelope] 1).map _ = _
  rw [hpop, Option.map_some, herase]
  rfl

lemma exists_run_of_length (n : ℕ) :
    ∃ ts s, Run (OutboundStep jsonEnvelope) .new ts s ∧ s.phase = .ready ∧
      s.state.outboundBuffer = .new ∧ (dequeuedOf (['c'], ['s']) s.history).length = n := by
  induction n with
  | zero =>
    have hconnect : OutboundStep jsonEnvelope .new .connect ⟨OutboundSession.new.state,
        .replaying [] [], []⟩ := @OutboundStep.connect jsonEnvelope .new [] rfl (List.Perm.refl _)
    have hdone : OutboundStep jsonEnvelope ⟨OutboundSession.new.state, .replaying [] [], []⟩
        .replayDone _ := .replayDone rfl
    exact ⟨_, _, (Run.nil.snoc hconnect).snoc hdone, rfl, rfl, rfl⟩
  | succ n ih =>
    obtain ⟨ts, s, hrun, hphase, hbuffer, hlength⟩ := ih
    obtain ⟨state, envelope, henqueue⟩ : ∃ state envelope,
        s.state.enqueue jsonEnvelope queuedPong = (state, some envelope) := ⟨_, _, rfl⟩
    obtain ⟨henvelope, -, hinsert, -⟩ := enqueue_eq_some henqueue
    have hkey : envelope.key = (['c'], ['s']) := congrArg ServerEnvelope.key henvelope
    rw [hbuffer] at hinsert
    have hdequeue := OutboundStep.dequeue hphase (by rw [hbuffer]; decide) henqueue
    have hack : state.outboundBuffer.ack envelope.key envelope.seqId = some .new := by
      rw [hinsert]
      exact ack_insert_new envelope
    refine ⟨_, _, ((hrun.snoc hdequeue).snoc (.sent rfl)).snoc (.ack hack), rfl, rfl, ?_⟩
    show (dequeuedOf _ ((s.history ++ [.dequeued envelope]) ++ [.acked _ _])).length = n + 1
    rw [dequeuedOf_concat_acked, dequeuedOf_concat_dequeued, if_pos hkey, List.length_append, hlength]
    rfl

lemma not_pairwise_lt_seqIds {n : ℕ} (h : u64Max < n) : ¬ (seqIds n).Pairwise (· < ·) := by
  intro hpair
  unfold seqIds at hpair
  rw [List.pairwise_map, List.pairwise_iff_getElem] at hpair
  have hpos : 0 < u64Max := by decide
  have hlt := hpair (u64Max - 1) u64Max (by rw [List.length_range]; omega)
    (by rw [List.length_range]; omega) (by omega)
  rw [List.getElem_range, List.getElem_range] at hlt
  omega

/-- An event for another stream of the client. -/
def otherPong : QueuedServerEnvelope := { queuedPong with streamId := ['t'] }

/-- Two streams on a connection, with an ack of the first event of one of them, and the replay to the next
connection. -/
theorem outbound_delivery_reconnect :
    ∃ ts s rest, Run (OutboundStep jsonEnvelope) .new ts s ∧ s.phase = .replaying [] rest ∧
      (dequeuedOf (['c'], ['s']) s.history).map (·.seqId) = seqIds 3 ∧
      (dequeuedOf (['c'], ['t']) s.history).map (·.seqId) = seqIds 1 ∧
      rest.filter (fun envelope => decide (envelope.key = (['c'], ['s']))) = uncovered (['c'], ['s']) s.history ∧
      (uncovered (['c'], ['s']) s.history).map (·.seqId) = [2, 3] := by
  have hnew : Run (OutboundStep jsonEnvelope) .new [] .new := .nil
  have hready := (hnew.snoc (.connect rfl (List.Perm.refl _))).snoc (.replayDone rfl)
  have hfirst := hready.snoc (show OutboundStep _ _ (.dequeue queuedPong) _ from .dequeue rfl (by decide) rfl)
  have hother := (hfirst.snoc (.sent rfl)).snoc
    (show OutboundStep _ _ (.dequeue otherPong) _ from .dequeue rfl (by decide) rfl)
  have hsecond := (hother.snoc (.sent rfl)).snoc
    (show OutboundStep _ _ (.dequeue queuedPong) _ from .dequeue rfl (by decide) rfl)
  have hacked := hsecond.snoc (show OutboundStep _ _ (.ack (['c'], ['s']) 1) _ from .ack rfl)
  have hthird := (hacked.snoc (.sent rfl)).snoc
    (show OutboundStep _ _ (.dequeue queuedPong) _ from .dequeue rfl (by decide) rfl)
  have hrun := (hthird.snoc .disconnect).snoc (.connect rfl (List.Perm.refl _))
  obtain ⟨hids, hbuffer, -, -, hsteps⟩ := outbound_delivery (fun _ => rfl) hrun
  obtain ⟨rest, hphase, -, -, hstreams⟩ := (hsteps _ (List.mem_append_right _ List.mem_cons_self)).2 rfl
  refine ⟨_, _, rest, hrun, hphase, ?_, ?_, (hstreams _).trans (hbuffer _), by decide +kernel⟩
  · rw [hids]
    exact congrArg seqIds (by decide +kernel)
  · rw [hids]
    exact congrArg seqIds (by decide +kernel)

/-- After `u64::MAX` events the ids of a stream no longer increase. -/
theorem seqIds_stop_increasing :
    ∃ ts s, Run (OutboundStep jsonEnvelope) .new ts s ∧
      ¬ (dequeuedOf (['c'], ['s']) s.history).Pairwise fun a b => a.seqId < b.seqId := by
  obtain ⟨ts, s, hrun, -, -, hlength⟩ := exists_run_of_length (u64Max + 1)
  refine ⟨ts, s, hrun, fun hpair => ?_⟩
  have hids := (delivers_run hrun).1.ids (['c'], ['s'])
  rw [hlength] at hids
  rw [← List.pairwise_map (f := fun envelope : ServerEnvelope => envelope.seqId) (R := (· < ·)),
    hids] at hpair
  exact not_pairwise_lt_seqIds (Nat.lt_succ_self _) hpair

end Supercodex.RemoteControl
