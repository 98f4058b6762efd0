import Supercodex.RemoteControl.ClientTrackerTheorems

/-!
# Remote-control clients: what is forwarded on a connection

The messages of a connection are those that were forwarded for its key since the key was last opened.
Their sequence ids increase. A client without stream ids may number its messages anew after its
`initialize`, so there the id of the `initialize` does not count.
-/

namespace Supercodex.RemoteControl.ClientTracker

open Supercodex.Runs

variable {s s' : ClientTracker} {key : ClientKey} {envelope : ClientEnvelope} {fresh : Text} {now : ℕ}

/-! ## The messages of a connection -/

/-- The key that a message is about. -/
def messageKey (s : ClientTracker) (envelope : ClientEnvelope) (fresh : Text) : ClientKey :=
  (envelope.clientId, (s.resolveStream envelope fresh).1)

/-- The events that a step sent. -/
def newEvents (t : Transition ClientTracker Label) : List TransportEvent :=
  t.after.sent.drop t.before.sent.length

/-- What an event adds to the messages of a connection; each comes with the id it was sent under. -/
def afterEvent (envelope : ClientEnvelope) (entries : List (ℕ × ClientEnvelope)) :
    TransportEvent → List (ℕ × ClientEnvelope)
  | .connectionOpened _ => []
  | .connectionClosed _ => entries
  | .incomingMessage connectionId _ => entries ++ [(connectionId, envelope)]

/-- What a step adds to the messages of the connection of a key. -/
def afterStep (key : ClientKey) (entries : List (ℕ × ClientEnvelope))
    (t : Transition ClientTracker Label) : List (ℕ × ClientEnvelope) :=
  match t.label with
  | .message envelope fresh _ =>
    if t.before.messageKey envelope fresh = key then
      (newEvents t).foldl (afterEvent envelope) entries
    else entries
  | _ => entries

/-- The messages forwarded for a key since it was last opened. -/
def forwardedSince (key : ClientKey) (ts : List (Transition ClientTracker Label)) :
    List (ℕ × ClientEnvelope) := ts.foldl (afterStep key) []

/-- The sequence ids of the messages; that of an `initialize` without a stream id does not count. -/
def numbered : List (ℕ × ClientEnvelope) → List ℕ
  | [] => []
  | first :: rest =>
    (if first.2.streamId.isSome then first.2.seqId.toList else []) ++ rest.filterMap (·.2.seqId)

lemma numbered_append {entries : List (ℕ × ClientEnvelope)} (h : entries ≠ [])
    (entry : ℕ × ClientEnvelope) :
    numbered (entries ++ [entry]) = numbered entries ++ entry.2.seqId.toList := by
  cases entries with
  | nil => exact absurd rfl h
  | cons first rest =>
    show _ ++ (rest ++ [entry]).filterMap _ = (_ ++ rest.filterMap _) ++ _
    have hlast : [entry].filterMap (·.2.seqId) = entry.2.seqId.toList := by
      cases hid : entry.2.seqId <;> simp [hid]
    rw [List.filterMap_append, List.append_assoc, hlast]

lemma pairwise_append_of_getLast? {ids : List ℕ} (h : ids.Pairwise (· < ·)) {n : ℕ}
    (hlast : ∀ last, ids.getLast? = some last → last < n) : (ids ++ [n]).Pairwise (· < ·) := by
  rcases List.eq_nil_or_concat ids with rfl | ⟨initial, last, rfl⟩
  · exact List.pairwise_singleton _ _
  rw [List.concat_eq_append] at h hlast ⊢
  have hlt : last < n := hlast last List.getLast?_concat
  rw [List.pairwise_append] at h ⊢
  refine ⟨List.pairwise_append.mpr h, List.pairwise_singleton _ _, ?_⟩
  intro id hid id' hid'
  rw [List.mem_singleton.mp hid']
  rcases List.mem_append.mp hid with hid | hid
  · exact (h.2.2 id hid last (List.mem_singleton_self _)).trans hlt
  · rw [List.mem_singleton.mp hid]
    exact hlt

/-! ## What a message does -/

section

variable (event : TransportEvent)

lemma sendTransportEvent_of_open (h : s.transportOpen = true) :
    s.sendTransportEvent event = ({ s with sent := s.sent ++ [event] }, true) := if_pos h

lemma sendTransportEvent_of_closed (h : s.transportOpen = false) :
    s.sendTransportEvent event = (s, false) := by
  unfold sendTransportEvent
  rw [h]
  rfl

lemma sendTransportEvent_transportOpen :
    (s.sendTransportEvent event).1.transportOpen = s.transportOpen := by
  unfold sendTransportEvent
  split <;> rfl

end

/-- The connections of a tracker are those of another one, as far as ids are concerned. -/
def SameConnections (s s' : ClientTracker) : Prop :=
  ∀ key client', s'.clients key = some client' → ∃ client, s.clients key = some client ∧
    client'.connectionId = client.connectionId ∧
      client'.lastInboundSeqId = client.lastInboundSeqId

lemma sameConnections_of_eq (h : s'.clients = s.clients) : SameConnections s s' := by
  intro key client hclient
  rw [h] at hclient
  exact ⟨client, hclient, rfl, rfl⟩

/-- The key is closed if it was open, and opened anew; the message that did it is the first one. -/
structure Opens (s : ClientTracker) (envelope : ClientEnvelope) (key : ClientKey) (now : ℕ)
    (s' : ClientTracker) : Prop where
  sent : ∃ closing message, (∀ event ∈ closing, ∃ id, event = TransportEvent.connectionClosed id) ∧
    s'.sent = s.sent ++ (closing ++ [.connectionOpened s.nextConnectionId,
      .incomingMessage s.nextConnectionId message])
  clients : s'.clients = Function.update s.clients key (some
    ⟨s.nextConnectionId, now, if envelope.streamId.isNone then none else envelope.seqId⟩)

/-- What the handling of a message comes to, while the receiver of the events is there. -/
inductive Handled (s : ClientTracker) (envelope : ClientEnvelope) (key : ClientKey) (now : ℕ)
    (s' : ClientTracker) : Prop where
  | quiet (hsent : s'.sent = s.sent) (hclients : SameConnections s s')
  | closed (id : ℕ) (hsent : s'.sent = s.sent ++ [.connectionClosed id])
      (hclients : s'.clients = Function.update s.clients key none)
  | forwarded (client : ClientState) (message : JsonRpcMessage)
      (hclient : s.clients key = some client) (hnew : s.isDuplicate key envelope.seqId = false)
      (hsent : s'.sent = s.sent ++ [.incomingMessage client.connectionId message])
      (hclients : s'.clients = Function.update s.clients key (some { client with
        lastActivityAt := now
        lastInboundSeqId := envelope.seqId.or client.lastInboundSeqId }))
  | opened (h : Opens s envelope key now s')

section
variable {isLegacyStreamId isInitialize : Bool} {message : JsonRpcMessage}

section

variable (h : s.transportOpen = true)
include h

/-- An initialize opens a connection and is forwarded on it. -/
lemma openConnection_of_open (key : ClientKey) (isLegacyStreamId : Bool)
    (seqId : Option ℕ) (message : JsonRpcMessage) (now : ℕ) :
    (s.openConnection key isLegacyStreamId seqId message now).1.sent =
        s.sent ++ [.connectionOpened s.nextConnectionId,
          .incomingMessage s.nextConnectionId message] ∧
      (s.openConnection key isLegacyStreamId seqId message now).1.clients =
        Function.update s.clients key (some
          ⟨s.nextConnectionId, now, if isLegacyStreamId then none else seqId⟩) := by
  have hopen : s.takeConnectionId.transportOpen = true := h
  unfold openConnection
  dsimp only
  rw [sendTransportEvent_of_open _ hopen]
  dsimp only
  rw [sendTransportEvent_of_open]
  · exact ⟨List.append_assoc _ _ _, rfl⟩
  · exact h

lemma closeClient_of_open {client : ClientState}
    (hclient : s.clients key = some client) :
    s.closeClient key = ({ s.removeClient key client.connectionId with
      sent := s.sent ++ [.connectionClosed client.connectionId] }, true) := by
  unfold closeClient
  rw [hclient]
  exact sendTransportEvent_of_open _ h

/-- An `initialize` opens its key. -/
lemma opens_handleClientMessage (hlegacy : isLegacyStreamId = envelope.streamId.isNone) :
    Opens s envelope key now (s.handleClientMessage key isLegacyStreamId true envelope.seqId message
      now).1 := by
  unfold handleClientMessage
  rw [Bool.not_true, Bool.and_false, if_neg Bool.false_ne_true]
  cases hclient : s.clients key with
  | none =>
    rw [Option.isSome_none, Bool.and_false, if_neg Bool.false_ne_true]
    dsimp only
    rw [hclient]
    rw [if_pos rfl]
    obtain ⟨hsent, hclients⟩ :=
      openConnection_of_open h key isLegacyStreamId envelope.seqId message now
    refine ⟨⟨[], message, by simp, hsent⟩, ?_⟩
    rw [hclients, hlegacy]
  | some client =>
    rw [Option.isSome_some, Bool.and_true, if_pos rfl, closeClient_of_open h hclient]
    dsimp only
    -- The old connection is closed first, so the key is free when it is opened again.
    have hfree : (s.removeClient key client.connectionId).clients key = none := by
      show Function.update s.clients key none key = none
      rw [Function.update_self]
    rw [hfree]
    rw [if_pos rfl]
    obtain ⟨hsent, hclients⟩ := openConnection_of_open
      (s := { s.removeClient key client.connectionId with
        sent := s.sent ++ [.connectionClosed client.connectionId] })
      h key isLegacyStreamId envelope.seqId message now
    refine ⟨⟨[.connectionClosed client.connectionId], message, ?_, ?_⟩, ?_⟩
    · intro event hevent
      exact ⟨_, List.mem_singleton.mp hevent⟩
    · rw [hsent, ← List.append_assoc]
      rfl
    · rw [hclients, hlegacy]
      exact Function.update_idem _ _ _

lemma handled_handleClientMessage (hlegacy : isLegacyStreamId = envelope.streamId.isNone) :
    Handled s envelope key now (s.handleClientMessage key isLegacyStreamId isInitialize
      envelope.seqId message now).1 := by
  cases hinit : isInitialize with
  | true => exact .opened (opens_handleClientMessage h hlegacy)
  | false =>
    unfold handleClientMessage
    split
    · exact .quiet rfl (sameConnections_of_eq rfl)
    rename_i hfirst
    rw [Bool.not_false, Bool.and_true] at hfirst
    rw [Bool.false_and, if_neg Bool.false_ne_true]
    dsimp only
    cases hclient : s.clients key with
    | none => exact .quiet rfl (sameConnections_of_eq rfl)
    | some client =>
      dsimp only
      unfold forwardMessage
      rw [sendTransportEvent_of_open]
      · exact .forwarded client message hclient (eq_false_of_ne_true hfirst) rfl rfl
      · exact h

end

end

lemma Opens.of_resolved (resolved : ClientTracker) (hclients : resolved.clients = s.clients)
    (hsent : resolved.sent = s.sent) (hnext : resolved.nextConnectionId = s.nextConnectionId)
    (h : Opens resolved envelope key now s') : Opens s envelope key now s' := by
  obtain ⟨⟨closing, message, hclosing, hsent'⟩, hclients'⟩ := h
  refine ⟨⟨closing, message, hclosing, ?_⟩, ?_⟩
  · rw [hsent', hsent, hnext]
  · rw [hclients', hclients, hnext]

lemma Handled.of_resolved (resolved : ClientTracker) (hclients : resolved.clients = s.clients)
    (hsent : resolved.sent = s.sent) (hnext : resolved.nextConnectionId = s.nextConnectionId)
    (h : Handled resolved envelope key now s') : Handled s envelope key now s' := by
  cases h with
  | quiet hsent' hclients' =>
    refine .quiet (hsent'.trans hsent) ?_
    intro key client hclient
    rw [← hclients]
    exact hclients' key client hclient
  | closed id hsent' hclients' => exact .closed id (by rw [hsent', hsent]) (by rw [hclients', hclients])
  | forwarded client message hclient hnew hsent' hclients' =>
    refine .forwarded client message (by rw [← hclients, hclient]) ?_ (by rw [hsent', hsent])
      (by rw [hclients', hclients])
    unfold isDuplicate at hnew ⊢
    rwa [hclients] at hnew
  | opened hopens => exact .opened (hopens.of_resolved resolved hclients hsent hnext)

lemma handled_handleMessage (h : s.transportOpen = true) (envelope : ClientEnvelope) (fresh : Text)
    (now : ℕ) :
    Handled s envelope (s.messageKey envelope fresh) now (s.handleMessage envelope fresh now).1 := by
  refine Handled.of_resolved (s.resolveStream envelope fresh).2 resolveStream_clients
    resolveStream_sent resolveStream_nextConnectionId ?_
  have hopen : (s.resolveStream envelope fresh).2.transportOpen = true := by
    rw [resolveStream_transportOpen, h]
  unfold handleMessage messageKey
  dsimp only
  split
  · exact .quiet rfl (sameConnections_of_eq rfl)
  split
  · exact handled_handleClientMessage hopen rfl
  · exact .quiet rfl (sameConnections_of_eq rfl)
  · unfold handlePing
    split
    · rename_i client hclient
      refine .quiet rfl ?_
      intro key' client' hclient'
      by_cases hkey : key' = (envelope.clientId, (s.resolveStream envelope fresh).1)
      · subst hkey
        rw [setClient_clients, Function.update_self, Option.some.injEq] at hclient'
        rw [← hclient']
        exact ⟨client, hclient, rfl, rfl⟩
      · rw [setClient_clients, Function.update_of_ne hkey] at hclient'
        exact ⟨client', hclient', rfl, rfl⟩
    · exact .quiet rfl (sameConnections_of_eq rfl)
  · cases hclient : (s.resolveStream envelope fresh).2.clients
        (envelope.clientId, (s.resolveStream envelope fresh).1) with
    | none =>
      unfold closeClient
      rw [hclient]
      exact .quiet rfl (sameConnections_of_eq rfl)
    | some client =>
      rw [closeClient_of_open hopen hclient]
      exact .closed client.connectionId rfl rfl

/-! ## After the receiver of the events has gone -/

/-- The receiver of the events is gone and nothing is sent. -/
def Silent (s s' : ClientTracker) : Prop := s'.sent = s.sent ∧ s'.transportOpen = false

section

variable (h : s.transportOpen = false)
include h

lemma silent_sendTransportEvent (event : TransportEvent) :
    Silent s (s.sendTransportEvent event).1 := by
  rw [sendTransportEvent_of_closed event h]
  exact ⟨rfl, h⟩

lemma silent_closeClient : Silent s (s.closeClient key).1 := by
  unfold closeClient
  split
  · exact ⟨rfl, h⟩
  · exact silent_sendTransportEvent (s := s.removeClient key _) h _

lemma silent_handleClientMessage (isLegacyStreamId isInitialize : Bool) (seqId : Option ℕ)
    (message : JsonRpcMessage) :
    Silent s (s.handleClientMessage key isLegacyStreamId isInitialize seqId message now).1 := by
  have hclose : Silent s (s.closeClient key).1 := silent_closeClient h
  unfold handleClientMessage
  split
  · exact ⟨rfl, h⟩
  have hfirst : Silent s
      (if isInitialize && (s.clients key).isSome then s.closeClient key else (s, true)).1 := by
    split
    · exact hclose
    · exact ⟨rfl, h⟩
  split
  · rename_i heq
    rw [heq] at hfirst
    exact hfirst
  · rename_i s₁ heq
    rw [heq] at hfirst
    obtain ⟨hsent, hopen⟩ := hfirst
    split
    · obtain ⟨hsent', hopen'⟩ := silent_sendTransportEvent (s := s₁.setClient key _) hopen _
      exact ⟨hsent'.trans hsent, hopen'⟩
    split
    · unfold openConnection
      dsimp only
      have hopen₁ : s₁.takeConnectionId.transportOpen = false := hopen
      rw [sendTransportEvent_of_closed _ hopen₁]
      exact ⟨hsent, hopen⟩
    · exact ⟨hsent, hopen⟩

lemma silent_handleMessage (envelope : ClientEnvelope) (fresh : Text)
    (now : ℕ) :
    Silent s (s.handleMessage envelope fresh now).1 := by
  have hopen : (s.resolveStream envelope fresh).2.transportOpen = false := by
    rw [resolveStream_transportOpen, h]
  have htrans : ∀ {s'}, Silent (s.resolveStream envelope fresh).2 s' → Silent s s' :=
    fun hsilent => ⟨hsilent.1.trans resolveStream_sent, hsilent.2⟩
  unfold handleMessage
  dsimp only
  split
  · exact ⟨resolveStream_sent, hopen⟩
  split
  · exact htrans (silent_handleClientMessage hopen _ _ _ _)
  · exact ⟨resolveStream_sent, hopen⟩
  · unfold handlePing
    split <;> exact ⟨resolveStream_sent, hopen⟩
  · exact htrans (silent_closeClient hopen)

end

/-! ## Steps without messages -/

/-- Connections may go away, and only closings are sent. -/
structure OnlyCloses (s s' : ClientTracker) : Prop where
  clients : ∀ key client, s'.clients key = some client → s.clients key = some client
  transportOpen : s'.transportOpen = true → s.transportOpen = true
  sent : ∃ events, s'.sent = s.sent ++ events ∧ ∀ event ∈ events, ∃ id, event = .connectionClosed id

lemma OnlyCloses.trans {s'' : ClientTracker} (h : OnlyCloses s s') (h' : OnlyCloses s' s'') :
    OnlyCloses s s'' := by
  obtain ⟨events, hsent, hevents⟩ := h.sent
  obtain ⟨events', hsent', hevents'⟩ := h'.sent
  refine ⟨?_, ?_, events ++ events', by rw [hsent', hsent, List.append_assoc], ?_⟩
  · intro key client hclient
    exact h.clients key client (h'.clients key client hclient)
  · intro hopen
    exact h.transportOpen (h'.transportOpen hopen)
  · intro event hevent
    rcases List.mem_append.mp hevent with hevent | hevent
    · exact hevents event hevent
    · exact hevents' event hevent

lemma onlyCloses_of_eq (hclients : s'.clients = s.clients) (hsent : s'.sent = s.sent)
    (hopen : s'.transportOpen = true → s.transportOpen = true) : OnlyCloses s s' := by
  refine ⟨?_, hopen, [], by rw [hsent, List.append_nil], by simp⟩
  intro key client hclient
  rwa [hclients] at hclient

lemma onlyCloses_closeClient (s : ClientTracker) (key : ClientKey) :
    OnlyCloses s (s.closeClient key).1 := by
  refine ⟨?_, ?_, ?_⟩
  · intro key' client hclient
    rw [closeClient_clients] at hclient
    by_cases hkey : key' = key
    · rw [hkey, Function.update_self] at hclient
      cases hclient
    · rwa [Function.update_of_ne hkey] at hclient
  · unfold closeClient
    split
    · exact id
    · rw [sendTransportEvent_transportOpen]
      exact id
  · unfold closeClient
    split
    · exact ⟨[], (List.append_nil _).symm, by simp⟩
    rename_i client _
    rcases sendTransportEvent_sent (s := s.removeClient key client.connectionId)
      (.connectionClosed client.connectionId) with hsent | hsent
    · refine ⟨_, hsent, ?_⟩
      intro event hevent
      exact ⟨_, List.mem_singleton.mp hevent⟩
    · exact ⟨[], by rw [hsent, List.append_nil]; rfl, by simp⟩

lemma onlyCloses_closeClients (s : ClientTracker) (keys : List ClientKey) :
    OnlyCloses s (s.closeClients keys).1 := by
  induction keys generalizing s with
  | nil => exact onlyCloses_of_eq rfl rfl id
  | cons key keys ih =>
    have hclose := onlyCloses_closeClient s key
    unfold closeClients
    split
    · rename_i heq
      rw [heq] at hclose
      exact hclose
    · rename_i s₁ heq
      rw [heq] at hclose
      exact hclose.trans (ih s₁)

lemma onlyCloses_shutdown (s : ClientTracker) (keys : List ClientKey) :
    OnlyCloses s (s.shutdown keys) := by
  have hstart : OnlyCloses s { s with cancelled := s.cancelled ++ s.joinSet.map (·.connectionId) } :=
    onlyCloses_of_eq rfl rfl id
  have hfold := foldl_closeClient (R := OnlyCloses) (fun _ => onlyCloses_of_eq rfl rfl id) .trans
    onlyCloses_closeClient keys { s with cancelled := s.cancelled ++ s.joinSet.map (·.connectionId) }
  exact (hstart.trans hfold).trans (onlyCloses_of_eq rfl rfl id)

lemma onlyCloses_of_step {label : Label} (hstep : Step s label s')
    (hlabel : ∀ envelope fresh now, label ≠ .message envelope fresh now) : OnlyCloses s s' := by
  cases hstep with
  | message envelope fresh now => exact absurd rfl (hlabel envelope fresh now)
  | @joined task _ =>
    have herase : OnlyCloses s { s with joinSet := s.joinSet.erase task } :=
      onlyCloses_of_eq rfl rfl id
    exact herase.trans (onlyCloses_closeClient _ _)
  | joinFailed _ => exact onlyCloses_of_eq rfl rfl id
  | idleSweep _ _ => exact onlyCloses_closeClients s _
  | shutdown _ _ => exact onlyCloses_shutdown s _
  | transportClosed => exact onlyCloses_of_eq rfl rfl nofun
  | otherConnection => exact onlyCloses_of_eq rfl rfl id

/-! ## The ids of a connection -/

/-- The messages of the connection of a key are in order, and an open connection knows the last id. -/
structure Sequenced (key : ClientKey) (entries : List (ℕ × ClientEnvelope)) (s : ClientTracker) :
    Prop where
  ordered : (numbered entries).Pairwise (· < ·)
  sameId : ∀ entry ∈ entries, ∀ entry' ∈ entries, entry.1 = entry'.1
  client : s.transportOpen = true → ∀ client, s.clients key = some client →
    client.lastInboundSeqId = (numbered entries).getLast? ∧ entries ≠ [] ∧
      ∀ entry ∈ entries, entry.1 = client.connectionId

variable {entries : List (ℕ × ClientEnvelope)} {t : Transition ClientTracker Label}

lemma newEvents_eq {events : List TransportEvent}
    (h : t.after.sent = t.before.sent ++ events) : newEvents t = events := by
  unfold newEvents
  rw [h, List.drop_left]

lemma newEvents_eq_nil (h : t.after.sent = t.before.sent) :
    newEvents t = [] := newEvents_eq (h.trans (List.append_nil _).symm)

lemma Sequenced.of_clients (h : Sequenced key entries s)
    (hopen : s'.transportOpen = true → s.transportOpen = true)
    (hclients : ∀ client', s'.clients key = some client' → ∃ client, s.clients key = some client ∧
      client'.connectionId = client.connectionId ∧
        client'.lastInboundSeqId = client.lastInboundSeqId) : Sequenced key entries s' := by
  refine ⟨h.ordered, h.sameId, ?_⟩
  intro htrue client' hclient'
  obtain ⟨client, hclient, hid, hlast⟩ := hclients client' hclient'
  obtain ⟨hold, hne, hids⟩ := h.client (hopen htrue) client hclient
  refine ⟨hlast.trans hold, hne, ?_⟩
  intro entry hentry
  rw [hid]
  exact hids entry hentry

lemma Handled.other {other : ClientKey} (h : Handled s envelope other now s') (hne : key ≠ other) :
    ∀ client', s'.clients key = some client' → ∃ client, s.clients key = some client ∧
      client'.connectionId = client.connectionId ∧
        client'.lastInboundSeqId = client.lastInboundSeqId := by
  intro client' hclient'
  cases h with
  | quiet _ hclients => exact hclients key client' hclient'
  | closed _ _ hclients | forwarded _ _ _ _ _ hclients =>
    rw [hclients, Function.update_of_ne hne] at hclient'
    exact ⟨client', hclient', rfl, rfl⟩
  | opened hopens =>
    rw [hopens.clients, Function.update_of_ne hne] at hclient'
    exact ⟨client', hclient', rfl, rfl⟩

/-- A forwarded message has a larger id than the last one. -/
lemma Sequenced.forwarded (h : Sequenced key entries s) (hopen : s.transportOpen = true)
    {client : ClientState} (hclient : s.clients key = some client)
    (hnew : s.isDuplicate key envelope.seqId = false)
    (hclients : s'.clients = Function.update s.clients key (some { client with
      lastActivityAt := now
      lastInboundSeqId := envelope.seqId.or client.lastInboundSeqId })) :
    Sequenced key (entries ++ [(client.connectionId, envelope)]) s' := by
  obtain ⟨hlast, hne, hids⟩ := h.client hopen client hclient
  have hnumbered := numbered_append hne (client.connectionId, envelope)
  have hallIds : ∀ entry ∈ entries ++ [(client.connectionId, envelope)],
      entry.1 = client.connectionId := by
    intro entry hentry
    rcases List.mem_append.mp hentry with hentry | hentry
    · exact hids entry hentry
    · rw [List.mem_singleton.mp hentry]
  unfold isDuplicate at hnew
  rw [hclient, Option.bind_some, hlast] at hnew
  refine ⟨?_, ?_, ?_⟩
  · rw [hnumbered]
    cases hseq : envelope.seqId with
    | none =>
      rw [Option.toList_none, List.append_nil]
      exact h.ordered
    | some n =>
      refine pairwise_append_of_getLast? h.ordered ?_
      intro last hgetLast
      rw [hseq, hgetLast] at hnew
      have hle : ¬n ≤ last := of_decide_eq_false hnew
      omega
  · intro entry hentry entry' hentry'
    rw [hallIds entry hentry, hallIds entry' hentry']
  · intro _ client' hclient'
    rw [hclients, Function.update_self, Option.some.injEq] at hclient'
    subst hclient'
    refine ⟨?_, List.append_ne_nil_of_right_ne_nil _ (List.cons_ne_nil _ _), hallIds⟩
    rw [hnumbered]
    cases hseq : envelope.seqId with
    | none =>
      rw [Option.toList_none, List.append_nil]
      exact hlast
    | some n =>
      rw [Option.toList_some, List.getLast?_concat]
      rfl

/-- An `initialize` begins a sequence. -/
lemma sequenced_opened {n : ℕ} (hclients : s'.clients = Function.update s.clients key (some
      ⟨n, now, if envelope.streamId.isNone then none else envelope.seqId⟩)) :
    Sequenced key [(n, envelope)] s' := by
  have hnumbered : numbered [(n, envelope)] =
      (if envelope.streamId.isNone then none else envelope.seqId).toList := by
    show (if envelope.streamId.isSome then envelope.seqId.toList else []) ++ [] = _
    rw [List.append_nil]
    cases envelope.streamId <;> rfl
  refine ⟨?_, ?_, ?_⟩
  · rw [hnumbered]
    cases (if envelope.streamId.isNone then none else envelope.seqId) with
    | none => exact List.Pairwise.nil
    | some id => exact List.pairwise_singleton _ _
  · intro entry hentry entry' hentry'
    rw [List.mem_singleton.mp hentry, List.mem_singleton.mp hentry']
  · intro _ client hclient
    rw [hclients, Function.update_self, Option.some.injEq] at hclient
    subst hclient
    refine ⟨?_, List.cons_ne_nil _ _, ?_⟩
    · rw [hnumbered]
      cases (if envelope.streamId.isNone then none else envelope.seqId) <;> rfl
    · intro entry hentry
      rw [List.mem_singleton.mp hentry]

lemma foldl_afterEvent_closing {closing : List TransportEvent}
    (h : ∀ event ∈ closing, ∃ id, event = .connectionClosed id) :
    closing.foldl (afterEvent envelope) entries = entries := by
  induction closing with
  | nil => rfl
  | cons event closing ih =>
    obtain ⟨id, rfl⟩ := h event List.mem_cons_self
    exact ih fun event hevent => h event (List.mem_cons_of_mem _ hevent)

lemma Opens.foldl_afterEvent {label : Label} (h : Opens s envelope key now s') :
    (newEvents ⟨s, label, s'⟩).foldl (afterEvent envelope) entries =
      [(s.nextConnectionId, envelope)] := by
  obtain ⟨closing, message, hclosing, hsent⟩ := h.sent
  rw [newEvents_eq hsent, List.foldl_append, foldl_afterEvent_closing hclosing]
  rfl

lemma Sequenced.step (h : Sequenced key entries t.before)
    (hstep : Step t.before t.label t.after) : Sequenced key (afterStep key entries t) t.after := by
  obtain ⟨s, label, s'⟩ := t
  dsimp only at h hstep
  by_cases hlabel : ∃ envelope fresh now, label = .message envelope fresh now
  · obtain ⟨envelope, fresh, now, rfl⟩ := hlabel
    cases hstep
    show Sequenced key (if s.messageKey envelope fresh = key then _ else entries) _
    cases hopen : s.transportOpen with
    | false =>
      obtain ⟨hsent, hclosed⟩ := silent_handleMessage hopen envelope fresh now
      rw [newEvents_eq_nil hsent, List.foldl_nil, ite_self]
      refine ⟨h.ordered, h.sameId, ?_⟩
      intro htrue
      rw [hclosed] at htrue
      cases htrue
    | true =>
      have hhandled := handled_handleMessage hopen envelope fresh now
      by_cases hkey : s.messageKey envelope fresh = key
      · subst hkey
        rw [if_pos rfl]
        cases hhandled with
        | quiet hsent hclients =>
          rw [newEvents_eq_nil hsent]
          exact h.of_clients (fun _ => hopen) (hclients _)
        | closed id hsent hclients =>
          rw [newEvents_eq hsent]
          refine h.of_clients (fun _ => hopen) ?_
          intro client' hclient'
          rw [hclients, Function.update_self] at hclient'
          cases hclient'
        | forwarded client message hclient hnew hsent hclients =>
          rw [newEvents_eq hsent]
          exact h.forwarded hopen hclient hnew hclients
        | opened hopens =>
          rw [hopens.foldl_afterEvent]
          exact sequenced_opened hopens.clients
      · rw [if_neg hkey]
        exact h.of_clients (fun _ => hopen) (hhandled.other (Ne.symm hkey))
  · have hcloses := onlyCloses_of_step hstep fun envelope fresh now heq =>
      hlabel ⟨envelope, fresh, now, heq⟩
    have hsame : afterStep key entries ⟨s, label, s'⟩ = entries := by
      cases label with
      | message envelope fresh now => exact absurd ⟨envelope, fresh, now, rfl⟩ hlabel
      | _ => rfl
    rw [hsame]
    refine h.of_clients hcloses.transportOpen ?_
    intro client' hclient'
    exact ⟨client', hcloses.clients key client' hclient', rfl, rfl⟩

/-! ## Runs -/

/-- An `initialize` with a stream opens a new connection: what was forwarded for the key before is not
part of it, and the ids to come are compared with the id of the `initialize` at most. -/
def BeginsAnew (t : Transition ClientTracker Label) : Prop :=
  ∀ envelope fresh now, t.label = .message envelope fresh now → envelope.isInitialize = true →
    (t.before.resolveStream envelope fresh).1 ≠ [] → t.before.transportOpen = true →
      t.after.clients (t.before.messageKey envelope fresh) =
          some ⟨t.before.nextConnectionId, now,
            if envelope.streamId.isNone then none else envelope.seqId⟩ ∧
        ∀ entries, afterStep (t.before.messageKey envelope fresh) entries t =
          [(t.before.nextConnectionId, envelope)]

/-- Only messages are forwarded. -/
def ForwardsMessages (t : Transition ClientTracker Label) : Prop :=
  ∀ id message, .incomingMessage id message ∈ newEvents t →
    ∃ envelope fresh now, t.label = .message envelope fresh now

lemma beginsAnew_of_step (hstep : Step t.before t.label t.after) : BeginsAnew t := by
  obtain ⟨s, label, s'⟩ := t
  intro envelope fresh now hlabel hinit hstream hopen
  dsimp only at *
  subst hlabel
  cases hstep
  have hopens : Opens s envelope (s.messageKey envelope fresh) now
      (s.handleMessage envelope fresh now).1 := by
    refine Opens.of_resolved (s.resolveStream envelope fresh).2 resolveStream_clients
      resolveStream_sent resolveStream_nextConnectionId ?_
    have hresolved : (s.resolveStream envelope fresh).2.transportOpen = true := by
      rw [resolveStream_transportOpen, hopen]
    unfold handleMessage messageKey
    dsimp only
    rw [if_neg hstream, hinit]
    have hmessage : ∃ message, envelope.event = .clientMessage message := by
      unfold ClientEnvelope.isInitialize at hinit
      split at hinit
      · rename_i message hevent
        exact ⟨message, hevent⟩
      · cases hinit
    obtain ⟨message, hevent⟩ := hmessage
    rw [hevent]
    exact opens_handleClientMessage hresolved rfl
  refine ⟨?_, ?_⟩
  · rw [hopens.clients, Function.update_self]
  · intro entries
    show (if s.messageKey envelope fresh = s.messageKey envelope fresh then _ else entries) = _
    rw [if_pos rfl]
    exact hopens.foldl_afterEvent

lemma forwardsMessages_of_step (hstep : Step t.before t.label t.after) : ForwardsMessages t := by
  intro id message hmem
  by_contra hlabel
  obtain ⟨events, hsent, hevents⟩ := (onlyCloses_of_step hstep fun envelope fresh now heq =>
    hlabel ⟨envelope, fresh, now, heq⟩).sent
  rw [newEvents_eq hsent] at hmem
  obtain ⟨id', hid'⟩ := hevents _ hmem
  cases hid'

/-- On every connection the sequence ids of the forwarded messages increase; an `initialize` without a
stream id is not counted among them. An `initialize` begins a new sequence. -/
theorem forwarded_ids_increase {n : ℕ} {ts : List (Transition ClientTracker Label)}
    (run : Run Step (new n) ts s) :
    (∀ key, (numbered (forwardedSince key ts)).Pairwise (· < ·) ∧
      ∀ entry ∈ forwardedSince key ts, ∀ entry' ∈ forwardedSince key ts, entry.1 = entry'.1) ∧
      ∀ t ∈ ts, BeginsAnew t ∧ ForwardsMessages t := by
  have hsequenced : ∀ key, Sequenced key (forwardedSince key ts) s := by
    intro key
    induction run with
    | nil =>
      refine ⟨List.Pairwise.nil, ?_, ?_⟩
      · intro entry hentry
        cases hentry
      · intro _ client hclient
        cases hclient
    | @snoc ts s s' label run taken ih =>
      unfold forwardedSince at ih ⊢
      rw [List.foldl_append]
      exact ih.step (t := ⟨s, label, s'⟩) taken
  have hsteps := run.invariant (fun _ _ => True) (fun _ _ => trivial) trivial
    fun _ _ _ _ _ _ => trivial
  refine ⟨fun key => ⟨(hsequenced key).ordered, (hsequenced key).sameId⟩, fun t ht => ?_⟩
  exact ⟨beginsAnew_of_step (hsteps.2 t ht).2, forwardsMessages_of_step (hsteps.2 t ht).2⟩

/-! ### Two clients -/

/-- An `initialize` of the client `c`. -/
def numberedInitialize (streamId : Option Text) (seqId : ℕ) : ClientEnvelope :=
  ⟨['c'], .clientMessage (.request "initialize".toList []), streamId, some seqId⟩

/-- The notification `initialized` of the client `c`. -/
def numberedNotification (streamId : Option Text) (seqId : ℕ) : ClientEnvelope :=
  ⟨['c'], .clientMessage (.other "initialized".toList), streamId, some seqId⟩

/-- A message that arrives twice is forwarded once. -/
theorem forwarded_ids_increase_repeated :
    ∃ ts s, Run Step (new 0) ts s ∧
      numbered (forwardedSince (['c'], ['s']) ts) = [1, 2] ∧
      (numbered (forwardedSince (['c'], ['s']) ts)).Pairwise (· < ·) := by
  have hopen := (Run.nil : Run Step (new 0) _ _).snoc (.message (numberedInitialize (some ['s']) 1) [] 0)
  have hfirst := hopen.snoc (.message (numberedNotification (some ['s']) 2) [] 1)
  have hrun := hfirst.snoc (.message (numberedNotification (some ['s']) 2) [] 2)
  refine ⟨_, _, hrun, ?_, ((forwarded_ids_increase hrun).1 _).1⟩
  decide +kernel

/-- A client without stream ids: its `initialize` and the next message have the same sequence id, and
both are forwarded on its connection. -/
theorem legacy_initialize_id_repeated :
    ∃ ts s, Run Step (new 0) ts s ∧
      (forwardedSince (['c'], ['r']) ts).map (fun entry => (entry.1, entry.2.seqId)) =
        [(0, some 0), (0, some 0)] ∧
      ¬((forwardedSince (['c'], ['r']) ts).filterMap (·.2.seqId)).Pairwise (· < ·) := by
  have hopen := (Run.nil : Run Step (new 0) _ _).snoc (.message (numberedInitialize none 0) ['r'] 0)
  have hrun := hopen.snoc (.message (numberedNotification none 0) [] 1)
  refine ⟨_, _, hrun, ?_, ?_⟩
  · decide +kernel
  · decide +kernel

end Supercodex.RemoteControl.ClientTracker
