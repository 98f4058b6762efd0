import Supercodex.Library.Effects
import Supercodex.ExecServer.SessionRegistry
import Supercodex.Library.Runs

/-!
# Attached sessions and their notification sender

A session has at most one attached connection, because a connection that finds it free holds the lock
of the session map until it is recorded. A detach does not take that lock: between its two steps
another connection may store its own sender, which the second step then clears.
-/

namespace Supercodex.ExecServer

open Runs ConnectionPhase SessionEntry

namespace ConnectionPhase

/-- The entry that a connection works on in `attach` or `detach`. -/
def entry : ConnectionPhase → Option ℕ
  | found index => some index
  | notExpired index => some index
  | inactive index => some index
  | senderSet index => some index
  | attached index => some index
  | clearing index => some index
  | detached index => some index
  | _ => none

/-- Does the connection hold the lock of the session map? -/
def locked : ConnectionPhase → Bool
  | found _ => true
  | notExpired _ => true
  | inactive _ => true
  | senderSet _ => true
  | _ => false

end ConnectionPhase

namespace SessionRegistry

variable {s s' : SessionRegistry} {connectionId : ℕ}

/-- How far a connection has come. -/
abbrev phase (s : SessionRegistry) (connectionId : ℕ) : ConnectionPhase :=
  (s.connections connectionId).phase

/-- Is somebody in a part of its work that holds the lock of the session map? -/
def Holds (s : SessionRegistry) : LockHolder → Prop
  | .attach c => (s.phase c).locked = true
  | .expiry c => ∃ e, (s.connections c).expiry = .checking e

/-- What holds of the connections and the entries in every run. -/
structure Inv (s : SessionRegistry) : Prop where
  locked : ∀ holder, s.Holds holder → s.lock = some holder
  attached : ∀ c e, s.phase c = .attached e → (s.entries e).currentConnectionId = some c
  current : ∀ e c, (s.entries e).currentConnectionId = some c → s.phase c = .attached e
  free : ∀ c e, s.phase c = .inactive e ∨ s.phase c = .senderSet e →
    (s.entries e).currentConnectionId = none
  detached : ∀ e c, (s.entries e).detachedConnectionId = some c →
    s.phase c = .clearing e ∨ s.phase c = .detached e
  unused : ∀ e, s.entryCount ≤ e → s.entries e = .absent
  phaseBound : ∀ c e, (s.phase c).entry = some e → e < s.entryCount
  sessionBound : ∀ sessionId e, s.sessions.lookup sessionId = some e → e < s.entryCount

/-! ## Steps that change no entry -/

/-- A connection comes further, and no entry changes. -/
structure Quiet (s s' : SessionRegistry) (connectionId : ℕ) : Prop where
  entries : s'.entries = s.entries
  entryCount : s'.entryCount = s.entryCount
  sessions : ∀ sessionId e, s'.sessions.lookup sessionId = some e →
    s.sessions.lookup sessionId = some e
  others : ∀ c, c ≠ connectionId → s'.connections c = s.connections c
  lock : s'.lock = s.lock ∨ ∀ holder, s.Holds holder →
    holder = .attach connectionId ∨ holder = .expiry connectionId
  attach : (s'.phase connectionId).locked = true → s'.lock = some (.attach connectionId)
  expiry : ∀ e, (s'.connections connectionId).expiry = .checking e → s'.lock = some (.expiry connectionId)
  attached : ∀ e, s'.phase connectionId = .attached e ↔ s.phase connectionId = .attached e
  detached : ∀ e, s.phase connectionId = .clearing e ∨ s.phase connectionId = .detached e →
    s'.phase connectionId = .clearing e ∨ s'.phase connectionId = .detached e
  free : ∀ e, s'.phase connectionId = .inactive e → (s.entries e).currentConnectionId = none
  phaseBound : ∀ e, (s'.phase connectionId).entry = some e → e < s.entryCount
  senderSet : ∀ e, s'.phase connectionId ≠ .senderSet e
  clearing : ∀ e, s'.phase connectionId = .clearing e → s.phase connectionId = .clearing e
  sender : (s'.connections connectionId).notifications = (s.connections connectionId).notifications ∨
    s.phase connectionId = .idle

lemma Quiet.locked (hq : Quiet s s' connectionId) (hinv : Inv s) (holder : LockHolder)
    (h : s'.Holds holder) : s'.lock = some holder := by
  -- another holder held the lock before the step
  have hother : ∀ holder, s.Holds holder → holder ≠ .attach connectionId →
      holder ≠ .expiry connectionId → s'.lock = some holder := by
    intro holder hholds hne hne'
    rcases hq.lock with hsame | honly
    · exact hsame.trans (hinv.locked holder hholds)
    · rcases honly holder hholds with rfl | rfl
      · exact absurd rfl hne
      · exact absurd rfl hne'
  cases holder with
  | attach c =>
    by_cases heq : c = connectionId
    · subst heq
      exact hq.attach h
    · refine hother (.attach c) ?_ (by simpa using heq) (by simp)
      rwa [Holds, phase, ← hq.others c heq]
  | expiry c =>
    by_cases heq : c = connectionId
    · subst heq
      obtain ⟨e, he⟩ := h
      exact hq.expiry e he
    · refine hother (.expiry c) ?_ (by simp) (by simpa using heq)
      rwa [Holds, ← hq.others c heq]

lemma Quiet.inv (hq : Quiet s s' connectionId) (hinv : Inv s) : Inv s' := by
  have hphase : ∀ c, c ≠ connectionId → s'.phase c = s.phase c := by
    intro c hc
    rw [phase, hq.others c hc]
  refine ⟨hq.locked hinv, ?_, ?_, ?_, ?_, ?_, ?_, ?_⟩
  · intro c e hc
    rw [hq.entries]
    apply hinv.attached c e
    by_cases heq : c = connectionId
    · subst heq
      exact (hq.attached e).mp hc
    · exact (hphase c heq).symm.trans hc
  · intro e c hc
    rw [hq.entries] at hc
    have hbefore := hinv.current e c hc
    by_cases heq : c = connectionId
    · subst heq
      exact (hq.attached e).mpr hbefore
    · exact (hphase c heq).trans hbefore
  · intro c e hc
    rw [hq.entries]
    by_cases heq : c = connectionId
    · subst heq
      exact hq.free e (hc.resolve_right (hq.senderSet e))
    · rw [hphase c heq] at hc
      exact hinv.free c e hc
  · intro e c hc
    rw [hq.entries] at hc
    have hbefore := hinv.detached e c hc
    by_cases heq : c = connectionId
    · subst heq
      exact hq.detached e hbefore
    · rwa [hphase c heq]
  · rw [hq.entryCount, hq.entries]
    exact hinv.unused
  · intro c e hc
    rw [hq.entryCount]
    by_cases heq : c = connectionId
    · subst heq
      exact hq.phaseBound e hc
    · exact hinv.phaseBound c e (hphase c heq ▸ hc)
  · intro sessionId e h
    rw [hq.entryCount]
    exact hinv.sessionBound sessionId e (hq.sessions sessionId e h)

section

variable {connection : Connection}

@[simp] lemma connections_setConnection (c : ℕ) :
    (s.setConnection connectionId connection).connections c =
      if c = connectionId then connection else s.connections c :=
  Function.update_apply ..

@[simp] lemma lock_setConnection : (s.setConnection connectionId connection).lock = s.lock := rfl

lemma setConnection_others (c : ℕ) (hc : c ≠ connectionId) :
    (s.setConnection connectionId connection).connections c = s.connections c := by
  rw [connections_setConnection, if_neg hc]

end

@[simp] lemma entries_setEntry (index e : ℕ) (entry : SessionEntry) :
    (s.setEntry index entry).entries e = if e = index then entry else s.entries e :=
  Function.update_apply ..

lemma Inv.holder_eq (hinv : Inv s) {holder other : LockHolder} (h : s.Holds holder)
    (hother : s.Holds other) : other = holder := by
  have hlock := hinv.locked holder h
  rw [hinv.locked other hother] at hlock
  exact Option.some.inj hlock

lemma Inv.not_holds_of_none (hinv : Inv s) (hnone : s.lock = none) (holder : LockHolder) :
    ¬s.Holds holder := by
  intro h
  rw [hinv.locked holder h] at hnone
  cases hnone

/-- What holds while a connection works on an entry with the session map locked. -/
structure Working (s : SessionRegistry) (connectionId index : ℕ) : Prop where
  lock : s.lock = some (.attach connectionId)
  bound : index < s.entryCount
  expiry : ∀ e, (s.connections connectionId).expiry ≠ .checking e
  only : ∀ holder, s.Holds holder → holder = .attach connectionId

variable {index : ℕ} {phase' : ConnectionPhase}

lemma Inv.working (hinv : Inv s) (hphase : s.phase connectionId = phase') (hlocked : phase'.locked = true)
    (hentry : phase'.entry = some index) : Working s connectionId index := by
  subst hphase
  have hholds : s.Holds (.attach connectionId) := hlocked
  refine ⟨hinv.locked _ hholds, hinv.phaseBound connectionId index hentry, ?_,
    fun holder hholder => hinv.holder_eq hholds hholder⟩
  intro e he
  have hexpiry : s.Holds (.expiry connectionId) := ⟨e, he⟩
  cases hinv.holder_eq hholds hexpiry

lemma lookup_of_erase {sessions : AList fun _ : Text => ℕ} {erased sessionId : Text} {e : ℕ}
    (h : (sessions.erase erased).lookup sessionId = some e) : sessions.lookup sessionId = some e := by
  by_cases heq : sessionId = erased
  · rw [heq, AList.lookup_erase] at h
    cases h
  · rwa [AList.lookup_erase_ne heq] at h

lemma callAttach_quiet {resume : Option Text} {notifications : ℕ}
    (h : s.callAttach connectionId resume notifications = some s') : Quiet s s' connectionId := by
  rw [callAttach] at h
  split_ifs at h with hidle
  cases h
  refine ⟨rfl, rfl, fun _ _ => id, setConnection_others, .inl rfl, ?_, ?_, ?_, ?_, ?_, ?_, ?_, ?_, ?_⟩
  all_goals simp [phase, hidle, locked, entry]

variable {now : ℕ}

lemma checkExpired_quiet (hinv : Inv s) (h : s.checkExpired connectionId now = some s') :
    Quiet s s' connectionId := by
  rw [checkExpired] at h
  split at h
  case h_2 => cases h
  rename_i index hphase
  obtain ⟨hlock, hbound, hexpiry, honly⟩ := hinv.working hphase rfl rfl
  split_ifs at h
  · cases h
    refine ⟨rfl, rfl, fun _ _ => lookup_of_erase, setConnection_others,
      .inr fun holder hholder => .inl (honly holder hholder), ?_, ?_, ?_, ?_, ?_, ?_, ?_, ?_, ?_⟩
    all_goals simp [phase, setPhase, hphase, hexpiry, locked, entry]
  · cases h
    refine ⟨rfl, rfl, fun _ _ => id, setConnection_others, .inl rfl, ?_, ?_, ?_, ?_, ?_, ?_, ?_, ?_, ?_⟩
    all_goals simp [phase, setPhase, hphase, hexpiry, hbound, locked, entry]
    exact hlock

lemma checkActive_quiet (hinv : Inv s) (h : s.checkActive connectionId = some s') :
    Quiet s s' connectionId := by
  rw [checkActive] at h
  split at h
  case h_2 => cases h
  rename_i index hphase
  obtain ⟨hlock, hbound, hexpiry, honly⟩ := hinv.working hphase rfl rfl
  split_ifs at h with hactive
  · cases h
    refine ⟨rfl, rfl, fun _ _ => id, setConnection_others,
      .inr fun holder hholder => .inl (honly holder hholder), ?_, ?_, ?_, ?_, ?_, ?_, ?_, ?_, ?_⟩
    all_goals simp [phase, setPhase, hphase, hexpiry, locked, entry]
  · cases h
    have hfree : (s.entries index).currentConnectionId = none := by
      simpa [hasActiveConnection] using hactive
    refine ⟨rfl, rfl, fun _ _ => id, setConnection_others, .inl rfl, ?_, ?_, ?_, ?_, ?_, ?_, ?_, ?_, ?_⟩
    all_goals simp [phase, setPhase, hphase, hexpiry, hbound, hfree, locked, entry]
    exact hlock

lemma handle_eq_some (h : s.handle connectionId = some index) :
    (s.phase connectionId).locked = false ∧ (∀ e, s.phase connectionId ≠ .inactive e) ∧
      ∀ e, s.phase connectionId ≠ .senderSet e := by
  rw [handle] at h
  split at h
  case h_4 => cases h
  all_goals
    rename_i hphase
    cases h
    simp [phase, hphase, locked]

lemma lockExpiry_quiet (hinv : Inv s) (h : s.lockExpiry connectionId = some s') :
    Quiet s s' connectionId := by
  simp only [lockExpiry, Effects.bind_eq_some] at h
  obtain ⟨index, hhandle, h⟩ := h
  obtain ⟨hunlocked, hinactive, hsenderSet⟩ := handle_eq_some hhandle
  have hbound := hinv.phaseBound connectionId
  split_ifs at h with hstart
  obtain ⟨hsleeping, hlock⟩ := hstart
  split at h
  · cases h
    refine ⟨rfl, rfl, fun _ _ => id, setConnection_others, .inl rfl, ?_, ?_, ?_, ?_, ?_, ?_, ?_, ?_, ?_⟩
    all_goals simp [phase, setExpiry, hunlocked, hinactive, hsenderSet]
    exact hbound
  · cases h
    refine ⟨rfl, rfl, fun _ _ => id, setConnection_others,
      .inr fun holder hholder => absurd hholder (hinv.not_holds_of_none hlock holder),
      ?_, ?_, ?_, ?_, ?_, ?_, ?_, ?_, ?_⟩
    all_goals simp [phase, setExpiry, hunlocked, hinactive, hsenderSet]
    exact hbound

lemma checkDetached_quiet (hinv : Inv s) (h : s.checkDetached connectionId now = some s') :
    Quiet s s' connectionId := by
  simp only [checkDetached, Effects.bind_eq_some] at h
  obtain ⟨index, hhandle, h⟩ := h
  obtain ⟨hunlocked, hinactive, hsenderSet⟩ := handle_eq_some hhandle
  have hbound := hinv.phaseBound connectionId
  split at h
  case h_2 => cases h
  rename_i found hchecking
  have hholds : s.Holds (.expiry connectionId) := ⟨found, hchecking⟩
  cases h
  refine ⟨rfl, rfl, ?_, setConnection_others,
    .inr fun holder hholder => .inr (hinv.holder_eq hholds hholder), ?_, ?_, ?_, ?_, ?_, ?_, ?_, ?_, ?_⟩
  · intro sessionId e he
    change AList.lookup sessionId (if _ then _ else _) = _ at he
    split_ifs at he
    · exact lookup_of_erase he
    · exact he
  all_goals simp [phase, setExpiry, hunlocked, hinactive, hsenderSet]
  exact hbound

/-! ## Steps that change an entry -/

/-- The phase of a connection and an entry are replaced. -/
structure Changes (s s' : SessionRegistry) (connectionId index : ℕ) (phase' : ConnectionPhase)
    (entry' : SessionEntry) : Prop where
  phase : ∀ c, s'.phase c = if c = connectionId then phase' else s.phase c
  expiry : ∀ c e, (s'.connections c).expiry = .checking e → (s.connections c).expiry = .checking e
  notifications : ∀ c, (s'.connections c).notifications = (s.connections c).notifications
  entries : ∀ e, s'.entries e = if e = index then entry' else s.entries e

variable {entry' : SessionEntry}

/-- One connection and one entry are written; nothing else changes. -/
lemma changes_setConnection {base : SessionRegistry} {connection : Connection}
    (hconnections : base.connections = s.connections) (hentries : base.entries = s.entries)
    (hexpiry : ∀ e, connection.expiry = .checking e → (s.connections connectionId).expiry = .checking e)
    (hnotifications : connection.notifications = (s.connections connectionId).notifications) :
    Changes s ((base.setEntry index entry').setConnection connectionId connection) connectionId index
      connection.phase entry' := by
  have hconnection (c : ℕ) : ((base.setEntry index entry').setConnection connectionId connection).connections
      c = if c = connectionId then connection else s.connections c := by
    rw [connections_setConnection, ← hconnections]
    rfl
  refine ⟨?_, ?_, ?_, ?_⟩ <;> intro c
  · rw [phase, hconnection]
    split_ifs <;> rfl
  · rw [hconnection]
    split_ifs with heq
    · rw [heq]
      exact hexpiry
    · exact fun _ => id
  · rw [hconnection]
    split_ifs with heq
    · rw [heq, hnotifications]
    · rfl
  · show (base.setEntry index entry').entries c = _
    rw [entries_setEntry, hentries]

/-- The entry and the phases agree after the change. -/
structure Agrees (s' : SessionRegistry) (index : ℕ) (entry' : SessionEntry) : Prop where
  current : ∀ c, entry'.currentConnectionId = some c ↔ s'.phase c = .attached index
  free : ∀ c, s'.phase c = .inactive index ∨ s'.phase c = .senderSet index →
    entry'.currentConnectionId = none
  detached : ∀ c, entry'.detachedConnectionId = some c →
    s'.phase c = .clearing index ∨ s'.phase c = .detached index

/-- What a step on an entry has to show for the invariant. -/
lemma Changes.inv (hc : Changes s s' connectionId index phase' entry') (hinv : Inv s)
    (hattach : phase'.locked = true → s'.lock = some (.attach connectionId))
    (hlock : ∀ holder, s.Holds holder → holder ≠ .attach connectionId → s'.lock = some holder)
    (hcount : s.entryCount ≤ s'.entryCount)
    (hsessions : ∀ sessionId e, s'.sessions.lookup sessionId = some e → e < s'.entryCount)
    (hindex : index < s'.entryCount) (hphase' : phase'.entry = some index)
    (hphase : ∀ e, (s.phase connectionId).entry = some e → e = index)
    (hagrees : Agrees s' index entry') : Inv s' := by
  -- at another entry nobody is in a new phase
  have hsame : ∀ c phase e, phase.entry = some e → e ≠ index → (s'.phase c = phase ↔ s.phase c = phase) := by
    intro c phase e he hne
    rw [hc.phase]
    split_ifs with heq
    · subst heq
      refine iff_of_false ?_ ?_ <;> rintro rfl
      · exact hne (Option.some.inj (he.symm.trans hphase'))
      · exact hne (hphase e he)
    · rfl
  refine ⟨?_, ?_, ?_, ?_, ?_, ?_, ?_, hsessions⟩
  · intro holder h
    cases holder with
    | attach c =>
      rw [Holds, hc.phase] at h
      split_ifs at h with heq
      · rw [heq]
        exact hattach h
      · exact hlock (.attach c) h (by simpa using heq)
    | expiry c =>
      obtain ⟨e, he⟩ := h
      exact hlock (.expiry c) ⟨e, hc.expiry c e he⟩ (by simp)
  · intro c e h
    rw [hc.entries]
    split_ifs with heq
    · exact (hagrees.current c).mpr (heq ▸ h)
    · exact hinv.attached c e ((hsame c _ e rfl heq).mp h)
  · intro e c h
    rw [hc.entries] at h
    split_ifs at h with heq
    · rw [heq]
      exact (hagrees.current c).mp h
    · exact (hsame c _ e rfl heq).mpr (hinv.current e c h)
  · intro c e h
    rw [hc.entries]
    split_ifs with heq
    · exact hagrees.free c (heq ▸ h)
    · rw [hsame c _ e rfl heq, hsame c _ e rfl heq] at h
      exact hinv.free c e h
  · intro e c h
    rw [hc.entries] at h
    split_ifs at h with heq
    · rw [heq]
      exact hagrees.detached c h
    · rw [hsame c _ e rfl heq, hsame c _ e rfl heq]
      exact hinv.detached e c h
  · intro e he
    rw [hc.entries, if_neg (by omega)]
    exact hinv.unused e (by omega)
  · intro c e h
    rw [hc.phase] at h
    split_ifs at h
    · rwa [Option.some.inj (h.symm.trans hphase')]
    · exact (hinv.phaseBound c e h).trans_le hcount

/-- An entry that is already there changes with the phase of a connection at it. -/
structure Reattaches (s s' : SessionRegistry) (connectionId index : ℕ) (phase' : ConnectionPhase)
    (entry' : SessionEntry) : Prop extends Changes s s' connectionId index phase' entry' where
  entryCount : s'.entryCount = s.entryCount
  sessions : s'.sessions = s.sessions
  at_entry : (s.phase connectionId).entry = some index
  stays : phase'.entry = some index

lemma Reattaches.inv (hr : Reattaches s s' connectionId index phase' entry') (hinv : Inv s)
    (hattach : phase'.locked = true → s'.lock = some (.attach connectionId))
    (hlock : ∀ holder, s.Holds holder → holder ≠ .attach connectionId → s'.lock = some holder)
    (hagrees : Agrees s' index entry') : Inv s' := by
  refine hr.toChanges.inv hinv hattach hlock hr.entryCount.ge ?_ ?_ hr.stays ?_ hagrees
  · rw [hr.entryCount, hr.sessions]
    exact hinv.sessionBound
  · rw [hr.entryCount]
    exact hinv.phaseBound connectionId index hr.at_entry
  · exact fun e he => Option.some.inj (he.symm.trans hr.at_entry)

/-- A session is created at once, if the connection does not resume one. -/
lemma lockSessions_cases (hinv : Inv s) {newSessionId : Text}
    (h : s.lockSessions connectionId newSessionId = some s') : Quiet s s' connectionId ∨
      (s.phase connectionId = .requested ∧ s.lock = none ∧ s'.entryCount = s.entryCount + 1 ∧
        s'.sessions = s.sessions.insert newSessionId s.entryCount ∧
        Changes s s' connectionId s.entryCount (.attached s.entryCount)
          (.new newSessionId (s.connections connectionId).notifications connectionId)) := by
  simp only [lockSessions] at h
  split_ifs at h with hstart
  obtain ⟨hphase, hlock⟩ := hstart
  have hexpiry : ∀ e, (s.connections connectionId).expiry ≠ .checking e :=
    fun e he => hinv.not_holds_of_none hlock (.expiry connectionId) ⟨e, he⟩
  split at h
  · rename_i sessionId hresume
    split at h
    · cases h
      refine .inl ⟨rfl, rfl, fun _ _ => id, setConnection_others, .inl rfl, ?_, ?_, ?_, ?_, ?_, ?_, ?_, ?_, ?_⟩
      all_goals simp [phase, setPhase, hphase, hexpiry, locked, entry]
    · rename_i index hindex
      cases h
      have hbound := hinv.sessionBound sessionId index hindex
      refine .inl ⟨rfl, rfl, fun _ _ => id, setConnection_others,
        .inr fun holder hholder => absurd hholder (hinv.not_holds_of_none hlock holder),
        ?_, ?_, ?_, ?_, ?_, ?_, ?_, ?_, ?_⟩
      all_goals simp [phase, setPhase, hphase, hexpiry, hbound, locked, entry]
  · cases h
    exact .inr ⟨hphase, hlock, rfl, rfl, changes_setConnection rfl rfl (fun _ => id) rfl⟩

/-- No connection is at an entry before it is created. -/
lemma Inv.entry_ne (hinv : Inv s) (c : ℕ) : (s.phase c).entry ≠ some s.entryCount := fun hc =>
  absurd (hinv.phaseBound c _ hc) (Nat.lt_irrefl _)

/-- A new session is created, attached to the connection that asked for it. -/
lemma Inv.create {newSessionId : Text} {notifications : ℕ} (hinv : Inv s)
    (hphase : s.phase connectionId = .requested) (hlock : s.lock = none)
    (hcount : s'.entryCount = s.entryCount + 1)
    (hsessions : s'.sessions = s.sessions.insert newSessionId s.entryCount)
    (hc : Changes s s' connectionId s.entryCount (.attached s.entryCount)
      (.new newSessionId notifications connectionId)) : Inv s' := by
  have hold := hinv.entry_ne
  refine hc.inv hinv nofun (fun holder hholds _ => absurd hholds (hinv.not_holds_of_none hlock holder))
    (by omega) ?_ (by omega) rfl (by simp [hphase, entry]) ⟨?_, ?_, ?_⟩
  · intro sessionId e he
    rw [hsessions] at he
    rw [hcount]
    by_cases heq : sessionId = newSessionId
    · rw [heq, AList.lookup_insert] at he
      cases he
      exact Nat.lt_succ_self _
    · rw [AList.lookup_insert_ne heq] at he
      exact Nat.lt_succ_of_lt (hinv.sessionBound sessionId e he)
  all_goals
    intro c
    rw [hc.phase]
    have := hold c
    grind [entry, SessionEntry.new]

/-- What `attach` does when it stores the sender. -/
lemma setSender_reattaches (h : s.setSender connectionId = some s') :
    ∃ index, s.phase connectionId = .inactive index ∧ s'.lock = s.lock ∧
      Reattaches s s' connectionId index (.senderSet index)
        ((s.entries index).setNotificationSender (s.connections connectionId).notifications) := by
  rw [setSender] at h
  split at h
  case h_2 => cases h
  rename_i index hphase
  cases h
  exact ⟨index, hphase, rfl, changes_setConnection rfl rfl (fun _ => id) rfl, rfl, rfl,
    congrArg entry hphase, rfl⟩

/-- What `attach` does in its last step. -/
lemma attachEntry_reattaches (h : s.attachEntry connectionId = some s') :
    ∃ index, s.phase connectionId = .senderSet index ∧ s'.lock = none ∧
      Reattaches s s' connectionId index (.attached index)
        ((s.entries index).attach connectionId) := by
  rw [attachEntry] at h
  split at h
  case h_2 => cases h
  rename_i index hphase
  cases h
  exact ⟨index, hphase, rfl, changes_setConnection rfl rfl (fun _ => id) rfl, rfl, rfl,
    congrArg entry hphase, rfl⟩

/-- What `detach` does in its first step, if the connection is attached. -/
lemma detachEntry_cases (hinv : Inv s) (h : s.detachEntry connectionId now = some s') :
    s' = s ∨ ∃ index, s.phase connectionId = .attached index ∧ s'.lock = s.lock ∧
      Reattaches s s' connectionId index (.clearing index)
        { s.entries index with
          currentConnectionId := none
          detachedConnectionId := some connectionId
          detachedExpiresAt := some (now + detachedSessionTtl) } := by
  simp only [detachEntry, Effects.bind_eq_some] at h
  obtain ⟨index, -, h⟩ := h
  split at h
  · cases h
    exact .inl rfl
  rename_i entry hentry
  simp only [detach, ne_eq, ite_not, Option.ite_none_right_eq_some,
    Option.some.injEq] at hentry
  obtain ⟨hcurrent, rfl⟩ := hentry
  cases h
  have hphase := hinv.current index connectionId hcurrent
  exact .inr ⟨index, hphase, rfl, changes_setConnection rfl rfl (fun _ => id) rfl, rfl, rfl,
    congrArg ConnectionPhase.entry hphase, rfl⟩

/-- What `detach` does in its second step. -/
lemma clearSender_reattaches (h : s.clearSender connectionId = some s') :
    ∃ index, s.phase connectionId = .clearing index ∧ s'.lock = s.lock ∧
      Reattaches s s' connectionId index (.detached index)
        ((s.entries index).setNotificationSender none) := by
  rw [clearSender] at h
  split at h
  case h_2 => cases h
  rename_i index hphase
  cases h
  exact ⟨index, hphase, rfl, changes_setConnection rfl rfl nofun rfl, rfl, rfl, congrArg entry hphase, rfl⟩

lemma Inv.setSender (hinv : Inv s) (h : s.setSender connectionId = some s') : Inv s' := by
  obtain ⟨index, hphase, hlock, hr⟩ := setSender_reattaches h
  have hw := hinv.working hphase rfl rfl
  have hfree := hinv.free connectionId index (.inl hphase)
  refine hr.inv hinv (fun _ => hlock.trans hw.lock)
    (fun holder hholds _ => hlock.trans (hinv.locked holder hholds)) ⟨?_, ?_, ?_⟩
  all_goals
    intro c
    rw [hr.phase]
    have hattached := hinv.attached c index
    have hdetached := hinv.detached index c
    grind [setNotificationSender]

lemma Inv.attachEntry (hinv : Inv s) (h : s.attachEntry connectionId = some s') : Inv s' := by
  obtain ⟨index, hphase, hlock, hr⟩ := attachEntry_reattaches h
  have hw := hinv.working hphase rfl rfl
  have hfree := hinv.free connectionId index (.inr hphase)
  refine hr.inv hinv nofun (fun holder hholds hne => absurd (hw.only holder hholds) hne) ⟨?_, ?_, nofun⟩
  all_goals
    intro c
    rw [hr.phase]
    have hattached := hinv.attached c index
    -- nobody else has found the entry free, because the lock was held
    have honly := hw.only (.attach c)
    grind [attach, Holds, ConnectionPhase.locked]

lemma Inv.detachEntry (hinv : Inv s) (h : s.detachEntry connectionId now = some s') : Inv s' := by
  rcases detachEntry_cases hinv h with rfl | ⟨index, hphase, hlock, hr⟩
  · exact hinv
  have hcurrent := hinv.attached connectionId index hphase
  refine hr.inv hinv nofun (fun holder hholds _ => hlock.trans (hinv.locked holder hholds))
    ⟨?_, fun _ _ => rfl, ?_⟩
  all_goals
    intro c
    rw [hr.phase]
    have hattached := hinv.attached c index
    grind

lemma Inv.clearSender (hinv : Inv s) (h : s.clearSender connectionId = some s') : Inv s' := by
  obtain ⟨index, hphase, hlock, hr⟩ := clearSender_reattaches h
  refine hr.inv hinv nofun (fun holder hholds _ => hlock.trans (hinv.locked holder hholds)) ⟨?_, ?_, ?_⟩
  all_goals
    intro c
    rw [hr.phase]
    have hattached := hinv.attached c index
    have hcurrent := hinv.current index c
    have hfree := hinv.free c index
    have hdetached := hinv.detached index c
    grind [setNotificationSender]

/-! ## Steps -/

/-- One step of the sessions and their connections. -/
def Step (s : SessionRegistry) (action : SessionAction) (s' : SessionRegistry) : Prop :=
  s.step action = some s'

variable {action : SessionAction}

lemma Inv.step (hinv : Inv s) (h : Step s action s') : Inv s' := by
  cases action with
  | callAttach c resume notifications => exact (callAttach_quiet h).inv hinv
  | lockSessions c newSessionId =>
    rcases lockSessions_cases hinv h with hq | ⟨hphase, hlock, hcount, hsessions, hc⟩
    · exact hq.inv hinv
    · exact hinv.create hphase hlock hcount hsessions hc
  | checkExpired c now => exact (checkExpired_quiet hinv h).inv hinv
  | checkActive c => exact (checkActive_quiet hinv h).inv hinv
  | setSender c => exact hinv.setSender h
  | attachEntry c => exact hinv.attachEntry h
  | detachEntry c now => exact hinv.detachEntry h
  | clearSender c => exact hinv.clearSender h
  | lockExpiry c => exact (lockExpiry_quiet hinv h).inv hinv
  | checkDetached c now => exact (checkDetached_quiet hinv h).inv hinv

lemma inv_new : Inv new where
  locked := by
    intro holder h
    cases holder with
    | attach c => cases h
    | expiry c =>
      obtain ⟨e, he⟩ := h
      cases he
  attached := fun _ _ h => nomatch h
  current := fun _ _ h => nomatch h
  free := by
    rintro c e (h | h) <;> cases h
  detached := fun _ _ h => nomatch h
  unused := fun _ _ => rfl
  phaseBound := fun _ _ h => nomatch h
  sessionBound := fun _ _ h => nomatch h

/-! ## Superseded detaches -/

/-- A detach is not taken back, and only an attached connection detaches. -/
structure KeepsDetached (s s' : SessionRegistry) : Prop where
  phase : ∀ c e, s.phase c = .clearing e ∨ s.phase c = .detached e →
    s'.phase c = .clearing e ∨ s'.phase c = .detached e
  detachedId : ∀ e c, (s'.entries e).detachedConnectionId = some c →
    (s.entries e).detachedConnectionId = some c ∨ s.phase c = .attached e

lemma Quiet.keepsDetached (hq : Quiet s s' connectionId) : KeepsDetached s s' := by
  refine ⟨?_, fun e c h => .inl (by rwa [← hq.entries])⟩
  intro c e h
  by_cases heq : c = connectionId
  · subst heq
    exact hq.detached e h
  · rwa [phase, hq.others c heq]

/-- A step takes no connection back that was detached. -/
lemma Changes.keepsDetached (hc : Changes s s' connectionId index phase' entry')
    (hphase : ∀ e, s.phase connectionId = .clearing e ∨ s.phase connectionId = .detached e →
      phase' = .clearing e ∨ phase' = .detached e)
    (hdetached : ∀ c, entry'.detachedConnectionId = some c →
      (s.entries index).detachedConnectionId = some c ∨ s.phase c = .attached index) :
    KeepsDetached s s' := by
  constructor
  · intro c e h
    rw [hc.phase]
    split_ifs with heq
    · exact hphase e (heq ▸ h)
    · exact h
  · intro e c h
    rw [hc.entries] at h
    split_ifs at h with heq
    · rw [heq]
      exact hdetached c h
    · exact .inl h

lemma keepsDetached_of_step (hinv : Inv s) (h : Step s action s') : KeepsDetached s s' := by
  cases action with
  | callAttach c resume notifications => exact (callAttach_quiet h).keepsDetached
  | lockSessions c newSessionId =>
    rcases lockSessions_cases hinv h with hq | ⟨hphase, -, -, -, hc⟩
    · exact hq.keepsDetached
    · exact hc.keepsDetached (by simp [hphase]) nofun
  | checkExpired c now => exact (checkExpired_quiet hinv h).keepsDetached
  | checkActive c => exact (checkActive_quiet hinv h).keepsDetached
  | setSender c =>
    obtain ⟨index, hphase, -, hr⟩ := setSender_reattaches h
    exact hr.keepsDetached (by simp [hphase]) fun _ => .inl
  | attachEntry c =>
    obtain ⟨index, hphase, -, hr⟩ := attachEntry_reattaches h
    exact hr.keepsDetached (by simp [hphase]) nofun
  | detachEntry c now =>
    rcases detachEntry_cases hinv h with rfl | ⟨index, hphase, -, hr⟩
    · exact ⟨fun _ _ => id, fun _ _ => .inl⟩
    · exact hr.keepsDetached (by simp [hphase]) fun c hc => .inr (Option.some.inj hc ▸ hphase)
  | clearSender c =>
    obtain ⟨index, hphase, -, hr⟩ := clearSender_reattaches h
    exact hr.keepsDetached (by simp [hphase]) fun _ => .inl
  | lockExpiry c => exact (lockExpiry_quiet hinv h).keepsDetached
  | checkDetached c now => exact (checkDetached_quiet hinv h).keepsDetached

/-- The connection has detached from the entry, and another has attached to it since. -/
structure Superseded (c e : ℕ) (s : SessionRegistry) : Prop where
  inv : Inv s
  phase : s.phase c = .clearing e ∨ s.phase c = .detached e
  detachedId : (s.entries e).detachedConnectionId ≠ some c

lemma Superseded.step {c e : ℕ} (hs : Superseded c e s) (h : Step s action s') : Superseded c e s' := by
  have hkeeps := keepsDetached_of_step hs.inv h
  refine ⟨hs.inv.step h, hkeeps.phase c e hs.phase, fun hc => ?_⟩
  rcases hkeeps.detachedId e c hc with hbefore | hattached
  · exact hs.detachedId hbefore
  · rcases hs.phase with hphase | hphase <;> rw [hattached] at hphase <;> cases hphase

lemma Superseded.checkDetached {c e now : ℕ} (hs : Superseded c e s)
    (h : s.checkDetached c now = some s') : s'.sessions = s.sessions := by
  simp only [SessionRegistry.checkDetached, Effects.bind_eq_some] at h
  obtain ⟨index, -, h⟩ := h
  split at h
  case h_2 => cases h
  rename_i found hchecking
  have hkept : (s.entries found).isDetachedConnectionExpired c now = false := by
    by_contra hexpired
    simp only [isDetachedConnectionExpired, Bool.and_eq_true, beq_iff_eq,
      Bool.not_eq_false] at hexpired
    -- what the expiry found would be the entry that the connection detached from
    have hfound : found = e := by
      rcases hs.inv.detached found c hexpired.1.2 with hphase | hphase <;>
        rcases hs.phase with hphase' | hphase' <;> rw [hphase] at hphase' <;> cases hphase'
      · rfl
      · rfl
    rw [hfound] at hexpired
    exact hs.detachedId hexpired.1.2
  cases h
  rw [hkept]
  rfl

/-! ## The notification sender -/

/-- No detach from the entry is between its two steps. -/
def NoneClearing (s : SessionRegistry) (e : ℕ) : Prop := ∀ c, s.phase c ≠ .clearing e

/-- A connection stores its sender only when no detach from the entry is between its two steps. -/
def StoresClear (s : SessionRegistry) : SessionAction → Prop
  | .setSender c => ∀ e, s.phase c = .inactive e → s.NoneClearing e
  | _ => True

/-- The sender of an entry is the one of the connection that is attached, or about to be. -/
structure Served (s : SessionRegistry) : Prop where
  senderSet : ∀ c e, s.phase c = .senderSet e →
    (s.entries e).notifications = some (s.connections c).notifications ∧ s.NoneClearing e
  current : ∀ e c, (s.entries e).currentConnectionId = some c →
    (s.entries e).notifications = some (s.connections c).notifications ∧ s.NoneClearing e

lemma Quiet.noneClearing (hq : Quiet s s' connectionId) {e : ℕ} (h : s.NoneClearing e) :
    s'.NoneClearing e := by
  intro c hc
  by_cases heq : c = connectionId
  · subst heq
    exact h c (hq.clearing e hc)
  · rw [phase, hq.others c heq] at hc
    exact h c hc

lemma Quiet.served (hq : Quiet s s' connectionId) (hinv : Inv s) (hs : Served s) : Served s' where
  senderSet := by
    intro c e hc
    have hne : c ≠ connectionId := by
      rintro rfl
      exact hq.senderSet e hc
    rw [phase, hq.others c hne] at hc
    rw [hq.entries, hq.others c hne]
    obtain ⟨hnotifications, hnone⟩ := hs.senderSet c e hc
    exact ⟨hnotifications, hq.noneClearing hnone⟩
  current := by
    intro e c hc
    rw [hq.entries] at hc
    obtain ⟨hnotifications, hnone⟩ := hs.current e c hc
    have hsame : (s'.connections c).notifications = (s.connections c).notifications := by
      by_cases heq : c = connectionId
      · subst heq
        rcases hq.sender with hsame | hidle
        · exact hsame
        · rw [hinv.current e c hc] at hidle
          cases hidle
      · rw [hq.others c heq]
    rw [hq.entries, hsame]
    exact ⟨hnotifications, hq.noneClearing hnone⟩

/-- What a step on an entry has to show for `Served`. -/
lemma Changes.served (hc : Changes s s' connectionId index phase' entry') (hs : Served s)
    (hphase' : phase'.entry = some index)
    (hothers : ∀ c, c ≠ connectionId → s.phase c ≠ .senderSet index)
    (hcurrent : ∀ c, entry'.currentConnectionId = some c → c = connectionId)
    (hserved : phase' = .senderSet index ∨ entry'.currentConnectionId ≠ none →
      entry'.notifications = some (s.connections connectionId).notifications ∧
        s.NoneClearing index ∧ phase' ≠ .clearing index) : Served s' := by
  have hnone : ∀ e, s.NoneClearing e → phase' ≠ .clearing e → s'.NoneClearing e := by
    intro e he hne c h
    rw [hc.phase] at h
    split_ifs at h
    · exact hne h
    · exact he c h
  have hclearing : ∀ e, e ≠ index → phase' ≠ .clearing e := by
    rintro e hne rfl
    exact hne (Option.some.inj hphase')
  refine ⟨?_, ?_⟩
  · intro c e h
    rw [hc.phase] at h
    rw [hc.entries, hc.notifications]
    split_ifs at h with heq
    · have hindex : e = index := by
        rw [h] at hphase'
        exact Option.some.inj hphase'
      obtain ⟨hsender, hclear, hne⟩ := hserved (.inl (hindex ▸ h))
      rw [if_pos hindex, heq, hindex]
      exact ⟨hsender, hnone index hclear hne⟩
    · have hne : e ≠ index := by
        rintro rfl
        exact hothers c heq h
      rw [if_neg hne]
      exact (hs.senderSet c e h).imp_right fun hclear => hnone e hclear (hclearing e hne)
  · intro e c h
    rw [hc.entries] at h ⊢
    rw [hc.notifications]
    split_ifs at h ⊢ with heq
    · obtain ⟨hsender, hclear, hne⟩ := hserved (.inr (by rw [h]; exact Option.some_ne_none c))
      rw [hcurrent c h, heq]
      exact ⟨hsender, hnone index hclear hne⟩
    · exact (hs.current e c h).imp_right fun hclear => hnone e hclear (hclearing e heq)

lemma Served.create {newSessionId : Text} (hinv : Inv s) (hs : Served s)
    (hc : Changes s s' connectionId s.entryCount (.attached s.entryCount)
      (.new newSessionId (s.connections connectionId).notifications connectionId)) : Served s' := by
  refine hc.served hs rfl ?_ ?_ fun _ => ⟨rfl, ?_, nofun⟩
  · exact fun c _ hphase => hinv.entry_ne c (congrArg entry hphase)
  · exact fun c h => (Option.some.inj h).symm
  · exact fun c hphase => hinv.entry_ne c (congrArg entry hphase)

/-- Nobody else is about to attach while a connection holds the lock. -/
lemma Working.not_senderSet (hw : Working s connectionId index) (c : ℕ) (hc : c ≠ connectionId) (e : ℕ) :
    s.phase c ≠ .senderSet e := by
  intro h
  have hother : s.Holds (.attach c) := by simp [Holds, h, locked]
  exact hc (LockHolder.attach.inj (hw.only _ hother))

lemma Served.clearSender (hs : Served s) (h : s.clearSender connectionId = some s') : Served s' := by
  obtain ⟨index, hphase, -, hr⟩ := clearSender_reattaches h
  -- while a detach is between its steps, nobody is attached or about to be
  have hcurrent : (s.entries index).currentConnectionId = none := by
    by_contra hne
    obtain ⟨c, hc⟩ := Option.ne_none_iff_exists'.mp hne
    exact (hs.current index c hc).2 connectionId hphase
  refine hr.served hs rfl (fun c _ hc => (hs.senderSet c index hc).2 connectionId hphase) ?_ ?_
  · intro c (h : (s.entries index).currentConnectionId = some c)
    rw [hcurrent] at h
    cases h
  · rintro (h | h)
    · cases h
    · exact absurd hcurrent h

section

variable (hinv : Inv s) (hs : Served s)
include hinv hs

lemma Served.setSender (hok : s.StoresClear (.setSender connectionId))
    (h : s.setSender connectionId = some s') : Served s' := by
  obtain ⟨index, hphase, -, hr⟩ := setSender_reattaches h
  have hfree := hinv.free connectionId index (.inl hphase)
  refine hr.served hs rfl (fun c hc => (hinv.working hphase rfl rfl).not_senderSet c hc index) ?_
    fun _ => ⟨rfl, hok index hphase, nofun⟩
  intro c (h : (s.entries index).currentConnectionId = some c)
  rw [hfree] at h
  cases h

lemma Served.attachEntry (h : s.attachEntry connectionId = some s') : Served s' := by
  obtain ⟨index, hphase, -, hr⟩ := attachEntry_reattaches h
  obtain ⟨hnotifications, hnone⟩ := hs.senderSet connectionId index hphase
  exact hr.served hs rfl (fun c hc => (hinv.working hphase rfl rfl).not_senderSet c hc index)
    (fun c h => (Option.some.inj h).symm) fun _ => ⟨hnotifications, hnone, nofun⟩

lemma Served.detachEntry (h : s.detachEntry connectionId now = some s') : Served s' := by
  rcases detachEntry_cases hinv h with rfl | ⟨index, hphase, -, hr⟩
  · exact hs
  refine hr.served hs rfl ?_ nofun (by simp)
  -- an entry that somebody is about to attach to has no attached connection
  intro c _ hc
  have hcurrent := hinv.attached connectionId index hphase
  rw [hinv.free c index (.inr hc)] at hcurrent
  cases hcurrent

end

lemma Served.step (hinv : Inv s) (hs : Served s) (hok : s.StoresClear action)
    (h : Step s action s') : Served s' := by
  cases action with
  | callAttach c resume notifications => exact (callAttach_quiet h).served hinv hs
  | lockSessions c newSessionId =>
    rcases lockSessions_cases hinv h with hq | ⟨-, -, -, -, hc⟩
    · exact hq.served hinv hs
    · exact hs.create hinv hc
  | checkExpired c now => exact (checkExpired_quiet hinv h).served hinv hs
  | checkActive c => exact (checkActive_quiet hinv h).served hinv hs
  | setSender c => exact hs.setSender hinv hok h
  | attachEntry c => exact hs.attachEntry hinv h
  | detachEntry c now => exact hs.detachEntry hinv h
  | clearSender c => exact hs.clearSender h
  | lockExpiry c => exact (lockExpiry_quiet hinv h).served hinv hs
  | checkDetached c now => exact (checkDetached_quiet hinv h).served hinv hs

lemma served_new : Served new where
  senderSet := fun _ _ h => nomatch h
  current := fun _ _ h => nomatch h

/-! ## Runs -/

lemma superseded_attachEntry {c c' e : ℕ} (hinv : Inv s)
    (hphase : s.phase c = .clearing e ∨ s.phase c = .detached e) (hother : s.phase c' = .senderSet e)
    (h : s.attachEntry c' = some s') : Superseded c e s' := by
  obtain ⟨index, hindex, -, hr⟩ := attachEntry_reattaches h
  have heq : index = e := senderSet.inj (hindex.symm.trans hother)
  subst heq
  have hne : c ≠ c' := by
    rintro rfl
    rcases hphase with hphase | hphase <;> rw [hother] at hphase <;> cases hphase
  refine ⟨hinv.attachEntry h, ?_, ?_⟩
  · rw [hr.phase, if_neg hne]
    exact hphase
  · rw [hr.entries, if_pos rfl]
    exact nofun

/-- An expiry that runs after the session was resumed does not remove it. -/
lemma expiry_keeps {ts₁ ts₂ ts₃ : List (Transition SessionRegistry SessionAction)}
    {t₁ t₂ : Transition SessionRegistry SessionAction} {c c' e now : ℕ}
    (run : Run Step new (ts₁ ++ t₁ :: (ts₂ ++ t₂ :: ts₃)) s)
    (hphase : t₁.before.phase c = .clearing e ∨ t₁.before.phase c = .detached e)
    (hattach : t₁.label = .attachEntry c') (hother : t₁.before.phase c' = .senderSet e)
    (hexpiry : t₂.label = .checkDetached c now) : t₂.after.sessions = t₂.before.sessions := by
  have htaken := (run.invariant (fun _ _ => True) (fun _ _ => trivial) inv_new
    fun _ _ _ hinv _ hstep => hinv.step hstep).2
  obtain ⟨hinv, hfirst⟩ := htaken t₁ (by simp)
  rw [hattach] at hfirst
  have hsuperseded := superseded_attachEntry hinv hphase hother hfirst
  -- the rest of the run starts where the entry was attached to again
  have hlist : ts₁ ++ t₁ :: (ts₂ ++ t₂ :: ts₃) = (ts₁ ++ [t₁]) ++ (ts₂ ++ t₂ :: ts₃) := by simp
  rw [hlist] at run
  obtain ⟨mid, hbefore, hrest⟩ := run.split
  have hmid : t₁.after = mid := hbefore.last
  rw [hmid] at hsuperseded
  obtain ⟨hs, hsecond⟩ := (hrest.invariant (fun _ _ => True) (fun _ _ => trivial) hsuperseded
    fun _ _ _ hs _ hstep => hs.step hstep).2 t₂ (by simp)
  rw [hexpiry] at hsecond
  exact hs.checkDetached hsecond

/-- No connection is in the middle of an attach or a detach. -/
def NoneInProgress (s : SessionRegistry) : Prop :=
  ∀ c, s.phase c = .idle ∨ (∃ e, s.phase c = .attached e) ∨ (∃ e, s.phase c = .detached e) ∨
    ∃ error, s.phase c = .failed error

/-- Whenever no connection is in the middle of an attach or a detach, the sender of an entry is the
one of the connection attached to it. -/
def NotifiesAttached (s : SessionRegistry) : Prop :=
  s.NoneInProgress → ∀ e c, s.phase c = .attached e →
    (s.entries e).notifications = some (s.connections c).notifications

/-- In every run a session has one attached connection at most, and the expiry of a detach leaves the
sessions alone when another connection has attached since. If moreover no connection stores its sender
between the two steps of a detach from the same session, then the sender of a session is the one of
the connection that is attached to it. -/
theorem attached_notified {ts : List (Transition SessionRegistry SessionAction)}
    (run : Run Step new ts s) :
    (∀ e c c', s.phase c = .attached e → s.phase c' = .attached e → c = c') ∧
    (∀ ts₁ ts₂ ts₃ t₁ t₂ c c' e now, ts = ts₁ ++ t₁ :: (ts₂ ++ t₂ :: ts₃) →
      (t₁.before.phase c = .clearing e ∨ t₁.before.phase c = .detached e) →
      t₁.label = .attachEntry c' → t₁.before.phase c' = .senderSet e →
      t₂.label = .checkDetached c now → t₂.after.sessions = t₂.before.sessions) ∧
    ((∀ t ∈ ts, t.before.StoresClear t.label) → s.NotifiesAttached) := by
  have hinv := (run.invariant (fun _ _ => True) (fun _ _ => trivial) inv_new
    fun _ _ _ hinv _ hstep => hinv.step hstep).1
  refine ⟨?_, ?_, ?_⟩
  · intro e c c' hc hc'
    have hcurrent := hinv.attached c e hc
    rw [hinv.attached c' e hc'] at hcurrent
    exact (Option.some.inj hcurrent).symm
  · intro ts₁ ts₂ ts₃ t₁ t₂ c c' e now hts hphase hattach hother hexpiry
    rw [hts] at run
    exact expiry_keeps run hphase hattach hother hexpiry
  · intro hok _ e c hc
    have hinit : Inv new ∧ Served new := ⟨inv_new, served_new⟩
    have hkept : ∀ s action s', Inv s ∧ Served s → s.StoresClear action → Step s action s' →
        Inv s' ∧ Served s' := fun s action s' h haction hstep =>
      ⟨h.1.step hstep, h.2.step h.1 haction hstep⟩
    have hserved := (run.invariant StoresClear hok hinit hkept).1.2
    exact (hserved.current e c (hinv.attached c e hc)).1

/-- A connection detaches completely before another one resumes its session, which then has the sender
of the second. -/
theorem attached_notified_resumed :
    ∃ ts s, Run Step new ts s ∧ s.phase 1 = .attached 0 ∧ s.NotifiesAttached := by
  have hnew : RunWhere Step StoresClear new [] new := .nil
  have hcreated := (hnew.next (.callAttach 0 none 7) trivial rfl).next
    (.lockSessions 0 "s".toList) trivial rfl
  have hdetached := (hcreated.next (.detachEntry 0 5) trivial rfl).next (.clearSender 0)
    trivial rfl
  have hlocked := (hdetached.next (.callAttach 1 (some "s".toList) 8) trivial rfl).next
    (.lockSessions 1 []) trivial rfl
  have hchecked := (hlocked.next (.checkExpired 1 6) trivial rfl).next (.checkActive 1)
    trivial rfl
  have hstored := hchecked.next (.setSender 1) (by
    intro e _ c
    match c with
    | 0 => nofun
    | 1 => nofun
    | _ + 2 => nofun) rfl
  have hattached := hstored.next (.attachEntry 1) trivial rfl
  exact ⟨_, _, hattached.1, rfl, (attached_notified hattached.1).2.2 hattached.2⟩

/-- A connection stores its sender between the two steps of a detach: the second step clears it, and
the session that is attached afterwards cannot notify anybody. -/
theorem cleared_after_resume :
    ∃ ts s, Run Step new ts s ∧ s.phase 1 = .attached 0 ∧ (s.entries 0).notifications = none ∧
      ¬s.NotifiesAttached := by
  have hnew : Run Step new [] new := .nil
  have hcreated := (hnew.next (.callAttach 0 none 7) rfl).next
    (.lockSessions 0 "s".toList) rfl
  have hdetaching := hcreated.next (.detachEntry 0 5) rfl
  have hlocked := (hdetaching.next (.callAttach 1 (some "s".toList) 8) rfl).next
    (.lockSessions 1 []) rfl
  have hchecked := (hlocked.next (.checkExpired 1 6) rfl).next (.checkActive 1) rfl
  have hattached := (hchecked.next (.setSender 1) rfl).next (.attachEntry 1) rfl
  have hcleared := hattached.next (.clearSender 0) rfl
  refine ⟨_, _, hcleared, rfl, rfl, ?_⟩
  intro h
  refine nomatch h ?_ 0 1 rfl
  intro c
  match c with
  | 0 => exact .inr (.inr (.inl ⟨0, rfl⟩))
  | 1 => exact .inr (.inl ⟨0, rfl⟩)
  | _ + 2 => exact .inl rfl

end SessionRegistry

end Supercodex.ExecServer
