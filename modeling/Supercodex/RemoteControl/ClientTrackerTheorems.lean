import Supercodex.Library.Runs
import Supercodex.RemoteControl.ClientTracker
import Mathlib.Data.List.Count

/-!
# Remote-control clients: the life of a connection

No connection is closed twice, and a step closes the connections it is about. The exception is a joined
task: the tracker closes whatever connection has the task's key, which may be a later one than the
task's own.
-/

namespace Supercodex.RemoteControl.ClientTracker

open Supercodex.Runs ClientTracker

/-- What holds of the events that were sent and of the connections that are open. -/
structure Lifecycle (s : ClientTracker) : Prop where
  /-- Every id in use was handed out. -/
  used : ∀ event ∈ s.sent, event.connectionId < s.nextConnectionId
  opened : ∀ key client, s.clients key = some client →
    .connectionOpened client.connectionId ∈ s.sent
  notClosed : ∀ key client, s.clients key = some client →
    .connectionClosed client.connectionId ∉ s.sent
  injective : ∀ key key' client client', s.clients key = some client →
    s.clients key' = some client' → client.connectionId = client'.connectionId → key = key'
  openedOnce : ∀ id, s.sent.count (.connectionOpened id) ≤ 1
  closedOnce : ∀ id, s.sent.count (.connectionClosed id) ≤ 1

/-- Is closing the connection up to this step? A joined task closes its own connection, a sweep closes
connections that have expired, and a message closes the connection of its key, by `ClientClosed` or by
`initialize`. -/
def Justified (s : ClientTracker) (label : Label) (id : ℕ) : Prop :=
  match label with
  | .joined task => task.connectionId = id
  | .idleSweep now =>
    ∃ key client, s.clients key = some client ∧ client.connectionId = id ∧
      client.isAlive now = false
  | .message envelope fresh _ =>
    ∃ client, s.clients (envelope.clientId, (s.resolveStream envelope fresh).1) = some client ∧
      client.connectionId = id ∧ (envelope.event = .clientClosed ∨ envelope.isInitialize = true)
  | .shutdown => True
  | .joinFailed _ | .transportClosed | .otherConnection => False

/-- Does the message take a connection id? An `initialize` on a stream does, unless the connection that has the key
cannot be closed. -/
def TakesConnectionId (s : ClientTracker) (envelope : ClientEnvelope) (fresh : Text) : Prop :=
  envelope.isInitialize = true ∧ (s.resolveStream envelope fresh).1 ≠ [] ∧
    (s.transportOpen = true ∨ s.clients (envelope.clientId, (s.resolveStream envelope fresh).1) = none)

/-- The condition: a task is joined while no other connection has its key, and the counter of
connection ids does not wrap around where an id is taken. -/
def InOrder (s : ClientTracker) (label : Label) : Prop :=
  match label with
  | .joined task => ∀ client, s.clients task.key = some client →
      client.connectionId = task.connectionId
  | .message envelope fresh _ => s.TakesConnectionId envelope fresh → s.nextConnectionId + 1 < 2 ^ 64
  | .otherConnection => s.nextConnectionId + 1 < 2 ^ 64
  | _ => True

/-- The step sends events, and closes only connections with the property. -/
def Closes (s s' : ClientTracker) (P : ℕ → Prop) : Prop :=
  ∃ events, s'.sent = s.sent ++ events ∧ ∀ id, .connectionClosed id ∈ events → P id

variable {s s' s'' : ClientTracker} {key : ClientKey} {P Q : ℕ → Prop}

lemma Closes.of_sent_eq (h : s'.sent = s.sent) : Closes s s' P :=
  ⟨[], by rw [h, List.append_nil], by simp⟩

lemma Closes.mono (h : Closes s s' P) (hPQ : ∀ id, P id → Q id) : Closes s s' Q := by
  obtain ⟨events, hsent, hP⟩ := h
  exact ⟨events, hsent, fun id hid => hPQ id (hP id hid)⟩

lemma Closes.trans (h : Closes s s' P) (h' : Closes s' s'' P) : Closes s s'' P := by
  obtain ⟨events, hsent, hP⟩ := h
  obtain ⟨events', hsent', hP'⟩ := h'
  refine ⟨events ++ events', by rw [hsent', hsent, List.append_assoc], fun id hid => ?_⟩
  rcases List.mem_append.mp hid with hid | hid
  · exact hP id hid
  · exact hP' id hid

/-! ## Sending -/

section

variable (event : TransportEvent)

@[simp] lemma sendTransportEvent_clients :
    (s.sendTransportEvent event).1.clients = s.clients := by
  unfold sendTransportEvent
  split <;> rfl

@[simp] lemma sendTransportEvent_nextConnectionId :
    (s.sendTransportEvent event).1.nextConnectionId = s.nextConnectionId := by
  unfold sendTransportEvent
  split <;> rfl

lemma sendTransportEvent_sent :
    (s.sendTransportEvent event).1.sent = s.sent ++ [event] ∨
      (s.sendTransportEvent event).1.sent = s.sent := by
  unfold sendTransportEvent
  split
  · exact Or.inl rfl
  · exact Or.inr rfl

end

lemma closes_sendTransportEvent {event : TransportEvent}
    (h : ∀ id, event = .connectionClosed id → P id) :
    Closes s (s.sendTransportEvent event).1 P := by
  rcases sendTransportEvent_sent (s := s) event with hsent | hsent
  · refine ⟨[event], hsent, fun id hid => h id ?_⟩
    exact (List.mem_singleton.mp hid).symm
  · exact .of_sent_eq hsent

/-! ## What keeps the life of connections -/

lemma Lifecycle.of_subset (h : Lifecycle s) (hsent : s'.sent = s.sent)
    (hnext : s'.nextConnectionId = s.nextConnectionId)
    (hclients : ∀ key client', s'.clients key = some client' →
      ∃ client, s.clients key = some client ∧ client.connectionId = client'.connectionId) :
    Lifecycle s' where
  used := by rw [hsent, hnext]; exact h.used
  opened key client' hclient' := by
    obtain ⟨client, hclient, hid⟩ := hclients key client' hclient'
    rw [hsent, ← hid]
    exact h.opened key client hclient
  notClosed key client' hclient' := by
    obtain ⟨client, hclient, hid⟩ := hclients key client' hclient'
    rw [hsent, ← hid]
    exact h.notClosed key client hclient
  injective key₁ key₂ client₁' client₂' h₁ h₂ heq := by
    obtain ⟨client₁, hclient₁, hid₁⟩ := hclients key₁ client₁' h₁
    obtain ⟨client₂, hclient₂, hid₂⟩ := hclients key₂ client₂' h₂
    exact h.injective key₁ key₂ client₁ client₂ hclient₁ hclient₂ (by rw [hid₁, hid₂, heq])
  openedOnce := by rw [hsent]; exact h.openedOnce
  closedOnce := by rw [hsent]; exact h.closedOnce

lemma Lifecycle.lt_nextConnectionId (h : Lifecycle s) {client : ClientState}
    (hclient : s.clients key = some client) : client.connectionId < s.nextConnectionId :=
  h.used _ (h.opened key client hclient)

/-- An event of a connection that has an id is sent; it closes no connection that is open or closed already. -/
lemma Lifecycle.send (h : Lifecycle s) {event : TransportEvent} (hid : event.connectionId < s.nextConnectionId)
    (hopened : ∀ id, event ≠ .connectionOpened id)
    (hclosed : ∀ id, event = .connectionClosed id → .connectionClosed id ∉ s.sent ∧
      ∀ key client, s.clients key = some client → client.connectionId ≠ id) :
    Lifecycle (s.sendTransportEvent event).1 := by
  rcases sendTransportEvent_sent (s := s) event with hsent | hsent
  · exact
      { used := by
          rw [hsent, sendTransportEvent_nextConnectionId]
          exact List.forall_mem_append.mpr ⟨h.used, List.forall_mem_singleton.mpr hid⟩
        opened := by
          rw [hsent, sendTransportEvent_clients]
          exact fun key client hclient => List.mem_append_left _ (h.opened key client hclient)
        notClosed := by
          intro key client hclient
          rw [sendTransportEvent_clients] at hclient
          rw [hsent, List.mem_append, List.mem_singleton, not_or]
          exact ⟨h.notClosed key client hclient, fun heq => (hclosed _ heq.symm).2 key client hclient rfl⟩
        injective := by simpa using h.injective
        openedOnce := by simpa [hsent, hopened] using h.openedOnce
        closedOnce := by
          intro id
          rw [hsent, List.count_append, List.count_singleton']
          split
          · rw [List.count_eq_zero.mpr (hclosed id ‹_›).1]
          · exact h.closedOnce id }
  · exact h.of_subset hsent (by simp) fun key client hclient => ⟨client, by simpa using hclient, rfl⟩

/-! ## Closing -/

@[simp] lemma closeClient_clients :
    (s.closeClient key).1.clients = Function.update s.clients key none := by
  unfold closeClient
  split
  · rename_i hclient
    rw [← hclient, Function.update_eq_self]
  · rw [sendTransportEvent_clients]
    rfl

lemma closeClient_nextConnectionId :
    (s.closeClient key).1.nextConnectionId = s.nextConnectionId := by
  unfold closeClient
  split
  · rfl
  · rw [sendTransportEvent_nextConnectionId]
    rfl

lemma closes_closeClient :
    Closes s (s.closeClient key).1
      fun id => ∃ client, s.clients key = some client ∧ client.connectionId = id := by
  unfold closeClient
  cases hclient : s.clients key with
  | none => exact .of_sent_eq rfl
  | some client =>
    refine closes_sendTransportEvent fun id hid => ⟨client, rfl, ?_⟩
    cases hid
    rfl

lemma Lifecycle.closeClient (h : Lifecycle s) : Lifecycle (s.closeClient key).1 := by
  unfold ClientTracker.closeClient
  cases hclient : s.clients key with
  | none => exact h
  | some client =>
    -- the connection is taken out first, so it is not open when its closing is sent
    have hremoved : ∀ key' client', (s.removeClient key client.connectionId).clients key' =
        some client' → key' ≠ key ∧ s.clients key' = some client' := by
      intro key' client' hclient'
      by_cases hkey : key' = key
      · simp [removeClient, hkey] at hclient'
      · exact ⟨hkey, by simpa [removeClient, Function.update_of_ne hkey] using hclient'⟩
    have hrest : Lifecycle (s.removeClient key client.connectionId) :=
      h.of_subset rfl rfl fun key' client' hclient' =>
        ⟨client', (hremoved key' client' hclient').2, rfl⟩
    refine hrest.send (h.lt_nextConnectionId hclient) nofun ?_
    rintro _ ⟨⟩
    refine ⟨h.notClosed key client hclient, fun key' client' hclient' hid => ?_⟩
    obtain ⟨hkey, hold⟩ := hremoved key' client' hclient'
    exact hkey (h.injective key' key client' client hold hclient hid)

lemma Lifecycle.closeClients (h : Lifecycle s) (keys : List ClientKey) :
    Lifecycle (s.closeClients keys).1 := by
  induction keys generalizing s with
  | nil => exact h
  | cons key keys ih =>
    unfold closeClients
    have hclose : Lifecycle (s.closeClient key).1 := h.closeClient
    split
    · rename_i heq
      rwa [heq] at hclose
    · rename_i heq
      rw [heq] at hclose
      exact ih hclose

lemma closes_closeClients {keys : List ClientKey} (hnodup : keys.Nodup) :
    Closes s (s.closeClients keys).1
      fun id => ∃ key ∈ keys, ∃ client, s.clients key = some client ∧ client.connectionId = id := by
  induction keys generalizing s with
  | nil => exact .of_sent_eq rfl
  | cons key keys ih =>
    have hnodup' := List.nodup_cons.mp hnodup
    have hclose : Closes s (s.closeClient key).1 fun id =>
        ∃ key' ∈ key :: keys, ∃ client, s.clients key' = some client ∧ client.connectionId = id :=
      closes_closeClient.mono fun id h => ⟨key, List.mem_cons_self, h⟩
    have hclients : (s.closeClient key).1.clients = Function.update s.clients key none :=
      closeClient_clients
    unfold closeClients
    split
    · rename_i heq
      rwa [heq] at hclose
    rename_i s₁ heq
    rw [heq] at hclose hclients
    refine hclose.trans ((ih hnodup'.2).mono fun id h => ?_)
    obtain ⟨key', hkey', client, hclient, hid⟩ := h
    -- the other keys keep their connections
    have hne : key' ≠ key := fun heq => hnodup'.1 (heq ▸ hkey')
    rw [hclients, Function.update_of_ne hne] at hclient
    exact ⟨key', List.mem_cons_of_mem _ hkey', client, hclient, hid⟩

/-- What closing a client does is what closing several does. -/
lemma foldl_closeClient {R : ClientTracker → ClientTracker → Prop} (hrefl : ∀ s, R s s)
    (htrans : ∀ {s s' s''}, R s s' → R s' s'' → R s s'') (hclose : ∀ s key, R s (s.closeClient key).1)
    (keys : List ClientKey) (s : ClientTracker) : R s (keys.foldl (fun s key => (s.closeClient key).1) s) := by
  induction keys generalizing s with
  | nil => exact hrefl s
  | cons key keys ih => exact htrans (hclose s key) (ih _)

lemma Lifecycle.shutdown (h : Lifecycle s) (keys : List ClientKey) :
    Lifecycle (s.shutdown keys) := by
  have hstart : Lifecycle { s with cancelled := s.cancelled ++ s.joinSet.map (·.connectionId) } :=
    h.of_subset rfl rfl fun key client hclient => ⟨client, hclient, rfl⟩
  have hfold := foldl_closeClient (R := fun s s' => Lifecycle s → Lifecycle s') (fun _ => id)
    (fun h h' => h' ∘ h) (fun _ _ h => h.closeClient) keys _ hstart
  exact hfold.of_subset rfl rfl fun key client hclient => ⟨client, hclient, rfl⟩

lemma closes_shutdown (keys : List ClientKey) : Closes s (s.shutdown keys) fun _ => True := by
  have hfold := foldl_closeClient (R := fun s s' => Closes s s' fun _ => True) (fun _ => .of_sent_eq rfl) .trans
    (fun _ _ => closes_closeClient.mono fun _ _ => trivial) keys
      { s with cancelled := s.cancelled ++ s.joinSet.map (·.connectionId) }
  exact hfold

/-! ## Opening -/

lemma Lifecycle.takeConnectionId (h : Lifecycle s) (hwrap : s.nextConnectionId + 1 < 2 ^ 64) :
    Lifecycle s.takeConnectionId where
  used event hevent := by
    have hlt := h.used event hevent
    show event.connectionId < (s.nextConnectionId + 1) % 2 ^ 64
    rw [Nat.mod_eq_of_lt hwrap]
    omega
  opened := h.opened
  notClosed := h.notClosed
  injective := h.injective
  openedOnce := h.openedOnce
  closedOnce := h.closedOnce

lemma Lifecycle.not_mem_sent (h : Lifecycle s) {event : TransportEvent}
    (hid : event.connectionId = s.nextConnectionId) : event ∉ s.sent := by
  intro hevent
  have := h.used event hevent
  omega

/-- A connection with a fresh id under a key that is free. -/
lemma Lifecycle.open (h : Lifecycle s) {client : ClientState}
    (hid : client.connectionId = s.nextConnectionId)
    (hsent : s'.sent = s.sent ++ [.connectionOpened s.nextConnectionId])
    (hnext : s'.nextConnectionId = s.nextConnectionId + 1)
    (hclients : s'.clients = Function.update s.clients key (some client)) : Lifecycle s' where
  used := by
    intro event hevent
    rw [hsent, List.mem_append, List.mem_singleton] at hevent
    rw [hnext]
    rcases hevent with hevent | rfl
    · have := h.used event hevent
      omega
    · exact Nat.lt_succ_self _
  opened := by
    intro key' client' hclient'
    rw [hclients] at hclient'
    rw [hsent, List.mem_append, List.mem_singleton]
    by_cases hkey : key' = key
    · rw [hkey, Function.update_self] at hclient'
      cases hclient'
      exact Or.inr (by rw [hid])
    · rw [Function.update_of_ne hkey] at hclient'
      exact Or.inl (h.opened key' client' hclient')
  notClosed := by
    intro key' client' hclient'
    rw [hclients] at hclient'
    rw [hsent, List.mem_append, List.mem_singleton]
    rintro (hmem | heq)
    · by_cases hkey : key' = key
      · rw [hkey, Function.update_self] at hclient'
        cases hclient'
        have hfresh : TransportEvent.connectionClosed client.connectionId ∉ s.sent :=
          h.not_mem_sent hid
        exact hfresh hmem
      · rw [Function.update_of_ne hkey] at hclient'
        exact h.notClosed key' client' hclient' hmem
    · cases heq
  injective := by
    intro key₁ key₂ client₁ client₂ h₁ h₂ heq
    rw [hclients] at h₁ h₂
    by_cases hkey₁ : key₁ = key <;> by_cases hkey₂ : key₂ = key
    · rw [hkey₁, hkey₂]
    · rw [hkey₁, Function.update_self] at h₁
      rw [Function.update_of_ne hkey₂] at h₂
      cases h₁
      have := h.lt_nextConnectionId h₂
      omega
    · rw [Function.update_of_ne hkey₁] at h₁
      rw [hkey₂, Function.update_self] at h₂
      cases h₂
      have := h.lt_nextConnectionId h₁
      omega
    · rw [Function.update_of_ne hkey₁] at h₁
      rw [Function.update_of_ne hkey₂] at h₂
      exact h.injective key₁ key₂ client₁ client₂ h₁ h₂ heq
  openedOnce := by
    intro id
    rw [hsent, List.count_append]
    by_cases heq : id = s.nextConnectionId
    · rw [heq, List.count_eq_zero.mpr (h.not_mem_sent rfl)]
      simp
    · have := h.openedOnce id
      simp [Ne.symm heq, this]
  closedOnce := by
    intro id
    rw [hsent, List.count_append]
    simpa using h.closedOnce id

section
variable {isLegacyStreamId isInitialize : Bool} {seqId : Option ℕ} {message : JsonRpcMessage}
  {now : ℕ}

lemma Lifecycle.openConnection (h : Lifecycle s) (hwrap : s.nextConnectionId + 1 < 2 ^ 64) :
    Lifecycle (s.openConnection key isLegacyStreamId seqId message now).1 := by
  have hnext : (s.nextConnectionId + 1) % 2 ^ 64 = s.nextConnectionId + 1 := Nat.mod_eq_of_lt hwrap
  unfold ClientTracker.openConnection
  dsimp only
  cases hopen : s.transportOpen with
  | false =>
    have hsend : s.takeConnectionId.sendTransportEvent (.connectionOpened s.nextConnectionId) =
        (s.takeConnectionId, false) := if_neg (by simp [ClientTracker.takeConnectionId, hopen])
    rw [hsend]
    exact h.takeConnectionId hwrap
  | true =>
    have hsend : s.takeConnectionId.sendTransportEvent (.connectionOpened s.nextConnectionId) =
        ({ s.takeConnectionId with sent := s.sent ++ [.connectionOpened s.nextConnectionId] }, true) :=
      if_pos hopen
    rw [hsend]
    refine Lifecycle.send (h.open rfl rfl hnext rfl) ?_ nofun nofun
    show s.nextConnectionId < (s.nextConnectionId + 1) % 2 ^ 64
    omega

lemma closes_openConnection :
    Closes s (s.openConnection key isLegacyStreamId seqId message now).1 P := by
  have hsend : Closes s.takeConnectionId
      (s.takeConnectionId.sendTransportEvent (.connectionOpened s.nextConnectionId)).1 P :=
    closes_sendTransportEvent fun id hid => by cases hid
  have htake : Closes s s.takeConnectionId P := .of_sent_eq rfl
  unfold openConnection
  dsimp only
  split
  · rename_i heq
    rw [heq] at hsend
    exact htake.trans hsend
  · rename_i s₁ heq
    rw [heq] at hsend
    refine (htake.trans hsend).trans (.trans ?_ (closes_sendTransportEvent fun id hid => by cases hid))
    exact .of_sent_eq rfl

/-! ## Messages -/

lemma setClient_clients (client : ClientState) :
    (s.setClient key client).clients = Function.update s.clients key (some client) := rfl

lemma Lifecycle.setClient (h : Lifecycle s) {client client' : ClientState}
    (hclient : s.clients key = some client) (hid : client.connectionId = client'.connectionId) :
    Lifecycle (s.setClient key client') := by
  refine h.of_subset rfl rfl fun key' client'' hclient'' => ?_
  rw [setClient_clients] at hclient''
  by_cases hkey : key' = key
  · rw [hkey, Function.update_self] at hclient''
    cases hclient''
    exact ⟨client, hkey ▸ hclient, hid⟩
  · rw [Function.update_of_ne hkey] at hclient''
    exact ⟨client'', hclient'', rfl⟩

lemma transportOpen_of_closeClient (h : (s.closeClient key).2 = true) :
    s.transportOpen = true ∨ s.clients key = none := by
  unfold closeClient at h
  split at h
  · exact .inr ‹_›
  left
  unfold sendTransportEvent at h
  split at h
  · rename_i hopen
    exact hopen
  · cases h

lemma Lifecycle.handleClientMessage (h : Lifecycle s)
    (hwrap : isInitialize = true → s.transportOpen = true ∨ s.clients key = none →
      s.nextConnectionId + 1 < 2 ^ 64) :
    Lifecycle (s.handleClientMessage key isLegacyStreamId isInitialize seqId message now).1 := by
  unfold ClientTracker.handleClientMessage
  split
  · exact h
  -- an `initialize` closes the connection that has the key
  have hclose : Lifecycle
        (if isInitialize && (s.clients key).isSome then s.closeClient key else (s, true)).1 ∧
      (if isInitialize && (s.clients key).isSome then s.closeClient key
        else (s, true)).1.nextConnectionId = s.nextConnectionId ∧
      ((if isInitialize && (s.clients key).isSome then s.closeClient key else (s, true)).2 = true →
        isInitialize = true → s.transportOpen = true ∨ s.clients key = none) := by
    split
    · exact ⟨h.closeClient, closeClient_nextConnectionId, fun hclosed _ => transportOpen_of_closeClient hclosed⟩
    · rename_i hnew
      refine ⟨h, rfl, fun _ hinit => .inr ?_⟩
      simpa [hinit] using hnew
  split
  · rename_i heq
    rw [heq] at hclose
    exact hclose.1
  · rename_i s₁ heq
    rw [heq] at hclose
    split
    · rename_i client hclient
      unfold forwardMessage
      refine Lifecycle.send (hclose.1.setClient hclient ?_) ?_ nofun nofun
      · rfl
      · exact hclose.1.lt_nextConnectionId hclient
    · split
      · rename_i hinit
        refine hclose.1.openConnection ?_
        rw [hclose.2.1]
        exact hwrap hinit (hclose.2.2 rfl hinit)
      · exact hclose.1

lemma closes_handleClientMessage :
    Closes s (s.handleClientMessage key isLegacyStreamId isInitialize seqId message now).1
      fun id => isInitialize = true ∧ ∃ client, s.clients key = some client ∧
        client.connectionId = id := by
  unfold handleClientMessage
  split
  · exact .of_sent_eq rfl
  have hclose : Closes s
      (if isInitialize && (s.clients key).isSome then s.closeClient key else (s, true)).1
      fun id => isInitialize = true ∧ ∃ client, s.clients key = some client ∧
        client.connectionId = id := by
    split
    · rename_i hinit
      rw [Bool.and_eq_true] at hinit
      exact closes_closeClient.mono fun id h => ⟨hinit.1, h⟩
    · exact .of_sent_eq rfl
  split
  · rename_i heq
    rw [heq] at hclose
    exact hclose
  · rename_i s₁ heq
    rw [heq] at hclose
    refine hclose.trans ?_
    split
    · refine .trans ?_ (closes_sendTransportEvent fun id hid => by cases hid)
      exact .of_sent_eq rfl
    · split
      · exact closes_openConnection
      · exact .of_sent_eq rfl

end

section
variable {envelope : ClientEnvelope} {fresh : Text} {now : ℕ}

/-- Only the legacy stream ids may change. -/
lemma resolveStream_eq : ∃ ids, (s.resolveStream envelope fresh).2 = { s with legacyStreamIds := ids } := by
  unfold resolveStream
  split
  · exact ⟨_, rfl⟩
  · dsimp only
    split <;> exact ⟨_, rfl⟩

lemma resolveStream_clients : (s.resolveStream envelope fresh).2.clients = s.clients := by
  obtain ⟨ids, h⟩ := resolveStream_eq (s := s)
  rw [h]

lemma resolveStream_sent : (s.resolveStream envelope fresh).2.sent = s.sent := by
  obtain ⟨ids, h⟩ := resolveStream_eq (s := s)
  rw [h]

lemma resolveStream_nextConnectionId :
    (s.resolveStream envelope fresh).2.nextConnectionId = s.nextConnectionId := by
  obtain ⟨ids, h⟩ := resolveStream_eq (s := s)
  rw [h]

lemma resolveStream_transportOpen : (s.resolveStream envelope fresh).2.transportOpen = s.transportOpen := by
  obtain ⟨ids, h⟩ := resolveStream_eq (s := s)
  rw [h]

lemma Lifecycle.handleMessage (h : Lifecycle s)
    (hwrap : s.TakesConnectionId envelope fresh → s.nextConnectionId + 1 < 2 ^ 64) :
    Lifecycle (s.handleMessage envelope fresh now).1 := by
  have hresolved : Lifecycle (s.resolveStream envelope fresh).2 :=
    h.of_subset resolveStream_sent resolveStream_nextConnectionId fun key client hclient =>
      ⟨client, by rwa [resolveStream_clients] at hclient, rfl⟩
  unfold ClientTracker.handleMessage
  dsimp only
  split
  · exact hresolved
  rename_i hstream
  split
  · refine hresolved.handleClientMessage fun hinit hfree => ?_
    rw [resolveStream_transportOpen, resolveStream_clients] at hfree
    rw [resolveStream_nextConnectionId]
    exact hwrap ⟨hinit, hstream, hfree⟩
  · exact hresolved
  · unfold handlePing
    split
    · rename_i client hclient
      exact hresolved.setClient hclient rfl
    · exact hresolved
  · exact hresolved.closeClient

lemma closes_handleMessage :
    Closes s (s.handleMessage envelope fresh now).1 (Justified s (.message envelope fresh now)) := by
  have hresolved : Closes s (s.resolveStream envelope fresh).2
      (Justified s (.message envelope fresh now)) := .of_sent_eq resolveStream_sent
  unfold handleMessage
  dsimp only
  split
  · exact hresolved
  split
  · refine hresolved.trans (closes_handleClientMessage.mono fun id h => ?_)
    obtain ⟨hinit, client, hclient, hid⟩ := h
    rw [resolveStream_clients] at hclient
    exact ⟨client, hclient, hid, Or.inr hinit⟩
  · exact hresolved
  · refine hresolved.trans (.of_sent_eq ?_)
    unfold handlePing
    split <;> rfl
  · rename_i hevent
    refine hresolved.trans (closes_closeClient.mono fun id h => ?_)
    obtain ⟨client, hclient, hid⟩ := h
    rw [resolveStream_clients] at hclient
    exact ⟨client, hclient, hid, Or.inl hevent⟩

end

/-! ## Runs -/

lemma lifecycle_new (nextConnectionId : ℕ) : Lifecycle (new nextConnectionId) := by
  constructor <;> simp [new]

lemma Lifecycle.step {label : Label} (h : Lifecycle s) (hok : InOrder s label)
    (hstep : Step s label s') : Lifecycle s' := by
  cases hstep with
  | message envelope fresh now => exact h.handleMessage hok
  | joined _ =>
    exact Lifecycle.closeClient (h.of_subset rfl rfl fun key client hclient => ⟨client, hclient, rfl⟩)
  | joinFailed _ => exact h.of_subset rfl rfl fun key client hclient => ⟨client, hclient, rfl⟩
  | idleSweep _ _ => exact h.closeClients _
  | shutdown _ _ => exact h.shutdown _
  | transportClosed => exact h.of_subset rfl rfl fun key client hclient => ⟨client, hclient, rfl⟩
  | otherConnection => exact h.takeConnectionId hok

lemma closes_step {label : Label} (hok : InOrder s label) (hstep : Step s label s') :
    Closes s s' (Justified s label) := by
  cases hstep with
  | message envelope fresh now => exact closes_handleMessage
  | joined _ =>
    refine closes_closeClient.mono fun id h => ?_
    obtain ⟨client, hclient, hid⟩ := h
    exact (hok client hclient).symm.trans hid
  | joinFailed _ => exact .of_sent_eq rfl
  | idleSweep hnodup hexpired =>
    refine (closes_closeClients hnodup).mono fun id h => ?_
    obtain ⟨key, hkey, client, hclient, hid⟩ := h
    obtain ⟨client', hclient', halive⟩ := (hexpired key).mp hkey
    rw [hclient] at hclient'
    cases hclient'
    exact ⟨key, client, hclient, hid, halive⟩
  | shutdown _ _ => exact closes_shutdown _
  | transportClosed | otherConnection => exact .of_sent_eq rfl

/-- In every run in which a task is joined only while no other connection has its key, each connection
is opened once and closed at most once, and every step closes only connections that it is about. -/
theorem connection_lifecycle {n : ℕ} {ts : List (Transition ClientTracker Label)}
    (hrun : Run Step (new n) ts s) (hok : ∀ t ∈ ts, InOrder t.before t.label) :
    (∀ id, s.sent.count (.connectionOpened id) ≤ 1 ∧ s.sent.count (.connectionClosed id) ≤ 1) ∧
      ∀ t ∈ ts, Closes t.before t.after (Justified t.before t.label) := by
  obtain ⟨hlife, hsteps⟩ := hrun.invariant InOrder hok (lifecycle_new n)
    fun _ _ _ h hok hstep => h.step hok hstep
  refine ⟨fun id => ⟨hlife.openedOnce id, hlife.closedOnce id⟩, fun t ht => ?_⟩
  exact closes_step (hok t ht) (hsteps t ht).2

/-- An `initialize` of the client `c` on the stream `s`. -/
def initializeEnvelope : ClientEnvelope :=
  ⟨['c'], .clientMessage (.request "initialize".toList []), some ['s'], none⟩

/-- The tracker after one `initialize`. -/
def initialized : ClientTracker := ((new 0).handleMessage initializeEnvelope [] 0).1

/-- The tracker after a second `initialize` on the same key. -/
def reinitialized : ClientTracker := (initialized.handleMessage initializeEnvelope [] 1).1

/-- The task of the first connection. -/
def firstTask : ClientTask := ⟨0, (['c'], ['s'])⟩

/-- The tracker after the client has closed the second connection. -/
def closedAgain : ClientTracker := (reinitialized.handleMessage ⟨['c'], .clientClosed, some ['s'], none⟩ [] 2).1

/-- The connection of a key is opened anew and closed before the tasks of both connections are joined: the run is in
order. -/
theorem connection_lifecycle_reinitialized :
    ∃ ts s, Run Step (new 0) ts s ∧ .connectionClosed 0 ∈ s.sent ∧ .connectionClosed 1 ∈ s.sent ∧
      (∀ id, s.sent.count (.connectionOpened id) ≤ 1 ∧ s.sent.count (.connectionClosed id) ≤ 1) ∧
      ∀ t ∈ ts, Closes t.before t.after (Justified t.before t.label) := by
  have hnew : RunWhere Step InOrder (new 0) [] (new 0) := .nil
  have hopened := hnew.next (.message initializeEnvelope [] 0) (fun _ => by decide +kernel)
    (.message _ _ _)
  have hreopened := hopened.next (.message initializeEnvelope [] 1)
    (fun _ => by decide +kernel) (.message _ _ _)
  have hclosed := hreopened.next (.message ⟨['c'], .clientClosed, some ['s'], none⟩ [] 2)
    (fun _ => by decide +kernel) (.message _ _ _)
  have hnone : closedAgain.clients firstTask.key = none := by decide +kernel
  have hfirst := hclosed.next (.joined firstTask) (by intro client h; cases hnone.symm.trans h)
    (.joined (by decide +kernel))
  have hnone' : (closeClient firstTask.key
      { closedAgain with joinSet := closedAgain.joinSet.erase firstTask }).1.clients firstTask.key = none := by
    decide +kernel
  have hrun := hfirst.next (.joined ⟨1, firstTask.key⟩) (by intro client h; cases hnone'.symm.trans h)
    (.joined (by decide +kernel))
  exact ⟨_, _, hrun.1, by decide +kernel, by decide +kernel, connection_lifecycle hrun.1 hrun.2⟩

/-- The task of the first connection is joined after the second `initialize`, which has cancelled its
token, and the tracker closes the second connection. -/
theorem late_task_closes_later_connection :
    ∃ ts s, Run Step (new 0) ts s ∧ ∃ t ∈ ts, t.label = .joined firstTask ∧
      0 ∈ t.before.cancelled ∧ t.after.sent = t.before.sent ++ [.connectionClosed 1] ∧
      ¬ Closes t.before t.after (Justified t.before t.label) := by
  have hopen : Step (new 0) (.message initializeEnvelope [] 0) initialized := .message _ _ _
  have hreopen : Step initialized (.message initializeEnvelope [] 1) reinitialized := .message _ _ _
  have hjoin : Step reinitialized (.joined firstTask) _ := .joined (by decide +kernel)
  have hrun := ((Run.nil.snoc hopen).snoc hreopen).snoc hjoin
  have hsent : ({ reinitialized with
      joinSet := reinitialized.joinSet.erase firstTask }.closeClient firstTask.key).1.sent =
        reinitialized.sent ++ [.connectionClosed 1] := by decide +kernel
  refine ⟨_, _, hrun, _, List.mem_append_right _ (List.mem_singleton_self _), rfl,
    by decide +kernel, hsent, ?_⟩
  rintro ⟨events, hevents, hjustified⟩
  rw [hsent, List.append_cancel_left_eq] at hevents
  have hone := hjustified 1 (by rw [← hevents]; exact List.mem_singleton_self _)
  cases hone

end Supercodex.RemoteControl.ClientTracker
