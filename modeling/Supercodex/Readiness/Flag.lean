import Mathlib.Algebra.Order.Ring.Nat
import Supercodex.Library.EntryCount
import Supercodex.Library.Runs

/-!
# The readiness flag (`utils/readiness/src/lib.rs`)

A flag that becomes ready when a subscriber marks it, or when it is asked while there are no
subscribers. It is kept in an atomic, in a set of tokens behind a lock and in a watch channel. A step
is one access to the atomic, one section under the lock or one operation on the channel, and the calls
of all tasks take their steps in any order.

A receiver of the channel lives in the frame of a `wait_ready` call. Sending on a channel without
receivers fails and stores nothing.
-/

namespace Supercodex.Readiness

/-- `Token`. -/
abbrev Token := Int32

/-- Where a call is. The flag of the places in `is_ready` tells whether `wait_ready` made the call. -/
inductive Place where
  /-- `is_ready`, before `try_lock`. -/
  | tryLock (waiting : Bool)
  /-- `is_ready`, before its last load. -/
  | reload (waiting : Bool)
  /-- `is_ready`, before its `send`. -/
  | broadcasting (waiting : Bool)
  /-- `subscribe`, before the section under the lock. -/
  | subscribing
  /-- `mark_ready`, before the section under the lock. -/
  | marking (token : Token)
  /-- `mark_ready`, before its `send`. -/
  | announcing (token : Token)
  /-- `wait_ready`, after `is_ready` was false and before it has a receiver. -/
  | registering
  /-- `wait_ready`, before it borrows the value; the version is the last one the receiver has seen. -/
  | borrowing (seen : ℕ)
  /-- `wait_ready`, in `changed`. -/
  | parked (seen : ℕ)
deriving DecidableEq

namespace Place

/-- Does the call own a receiver? -/
def hasReceiver : Place → Bool
  | borrowing _ | parked _ => true
  | _ => false

/-- Is this a call of `mark_ready` or `is_ready`? -/
def settles : Place → Bool
  | tryLock _ | reload _ | broadcasting _ | marking _ | announcing _ => true
  | _ => false

end Place

/-- The watch channel. -/
structure Watch where
  value : Bool
  version : ℕ

/-- `Sender::send(true)`. -/
def Watch.sendTrue (watch : Watch) (receivers : Bool) : Watch :=
  if receivers then ⟨true, watch.version + 1⟩ else watch

/-- `ReadinessFlag`, with the calls in progress. -/
structure ReadinessFlag where
  ready : Bool
  nextId : Int32
  tokens : List Token
  tx : Watch
  calls : AList fun _ : ℕ => Place
  /-- The tokens that `subscribe` has returned. -/
  issued : List Token
  /-- The tokens for which `mark_ready` has returned true. -/
  marked : List Token

/-- One step of a call. -/
inductive Action where
  | isReady
  | waitReady
  | subscribe
  | markReady (token : Token)
  /-- The next step of the call. -/
  | next
  /-- `try_lock` fails, or waiting for the lock times out. -/
  | lockFails
  /-- The future of the call is dropped. -/
  | cancel
deriving DecidableEq

namespace ReadinessFlag

/-- `ReadinessFlag::new`. -/
def new : ReadinessFlag where
  ready := false
  nextId := 1
  tokens := []
  tx := ⟨false, 0⟩
  calls := ∅
  issued := []
  marked := []

/-- Is there a receiver? -/
def hasReceivers (s : ReadinessFlag) : Bool := s.calls.entries.any (·.2.hasReceiver)

/-- A call goes on. -/
def goto (s : ReadinessFlag) (call : ℕ) (place : Place) : ReadinessFlag :=
  { s with calls := s.calls.insert call place }

/-- A call returns. -/
def leave (s : ReadinessFlag) (call : ℕ) : ReadinessFlag :=
  { s with calls := s.calls.erase call }

/-- `self.tx.send(true)`. -/
def send (s : ReadinessFlag) : ReadinessFlag := { s with tx := s.tx.sendTrue s.hasReceivers }

/-- The number of `i32` values. -/
def int32Count : ℕ := 2 ^ 32

/-- The loop of `subscribe`, for a number of rounds: the token, and the next value of `next_id`. -/
def takeToken (tokens : List Token) : ℕ → Int32 → Option (Token × Int32)
  | 0, _ => none
  | rounds + 1, nextId =>
    if nextId ≠ 0 ∧ nextId ∉ tokens then some (nextId, nextId + 1)
    else takeToken tokens rounds (nextId + 1)

/-- The first step of a call. -/
def begin (s : ReadinessFlag) (call : ℕ) : Action → Option ReadinessFlag
  | .isReady => some (if s.ready then s else s.goto call (.tryLock false))
  | .waitReady => some (if s.ready then s else s.goto call (.tryLock true))
  | .subscribe => some (if s.ready then s else s.goto call .subscribing)
  | .markReady token =>
    some (if s.ready then s else if token = 0 then s else s.goto call (.marking token))
  | _ => none

/-- The next step of a call. There is none for a parked call before the value changes, and none for a
`subscribe` that finds every token in use (its loop does not end). -/
def next (s : ReadinessFlag) (call : ℕ) : Place → Option ReadinessFlag
  | .tryLock waiting =>
    if s.tokens = [] then
      if s.ready then some (s.leave call)
      else some ({ s with ready := true }.goto call (.broadcasting waiting))
    else some (s.goto call (.reload waiting))
  | .reload waiting =>
    if !s.ready && waiting then some (s.goto call .registering) else some (s.leave call)
  | .broadcasting _ => some (s.send.leave call)
  | .subscribing =>
    if s.ready then some (s.leave call)
    else
      (takeToken s.tokens int32Count s.nextId).map fun (token, nextId) =>
        { s with nextId, tokens := token :: s.tokens, issued := s.issued ++ [token] }.leave call
  | .marking token =>
    if token ∈ s.tokens then
      some ({ s with ready := true, tokens := [] }.goto call (.announcing token))
    else some (s.leave call)
  | .announcing token => some ({ s.send with marked := s.marked ++ [token] }.leave call)
  | .registering => some (s.goto call (.borrowing s.tx.version))
  | .borrowing seen => some (if s.tx.value then s.leave call else s.goto call (.parked seen))
  | .parked seen =>
    if s.tx.version ≠ seen then some (s.goto call (.borrowing s.tx.version)) else none

/-- A call does not get the lock: `is_ready` goes on without it, the others return an error. -/
def lockFails (s : ReadinessFlag) (call : ℕ) : Place → Option ReadinessFlag
  | .tryLock waiting => some (s.goto call (.reload waiting))
  | .subscribing | .marking _ => some (s.leave call)
  | _ => none

/-- A call is dropped while it waits. -/
def cancel (s : ReadinessFlag) (call : ℕ) : Place → Option ReadinessFlag
  | .subscribing | .marking _ | .parked _ => some (s.leave call)
  | _ => none

/-- One step of a call. -/
def step (s : ReadinessFlag) (call : ℕ) (action : Action) : Option ReadinessFlag :=
  match s.calls.lookup call with
  | none => s.begin call action
  | some place =>
    match action with
    | .next => s.next call place
    | .lockFails => s.lockFails call place
    | .cancel => s.cancel call place
    | _ => none

end ReadinessFlag

end Supercodex.Readiness

/-!
# What the readiness flag promises

The flag is set once, by the call that then sends on the channel. A send without receivers is lost, so
a `wait_ready` call that has found the flag unset and has no receiver yet must not be there when the
only receiver-less send is made.
-/

namespace Supercodex.Readiness

open EntryCount Runs

namespace Place

/-- Is the call about to send? -/
def sends : Place → Bool
  | broadcasting _ | announcing _ => true
  | _ => false

/-- Is the call about to announce that its token made the flag ready? -/
def announces : Place → Bool
  | announcing _ => true
  | _ => false

/-- Has the call found the flag unset and begun to wait? -/
def waits : Place → Bool
  | registering | borrowing _ | parked _ => true
  | _ => false

lemma settles_of_sends {place : Place} (h : place.sends = true) : place.settles = true := by
  cases place with
  | broadcasting waiting | announcing token => rfl
  | _ => cases h

lemma announces_le_sends (place : Place) : place.announces.toNat ≤ place.sends.toNat := by
  cases place with
  | announcing token => exact Nat.le_refl 1
  | _ => exact Nat.zero_le _

lemma hasReceiver_or_registering {place : Place} (h : place.waits = true) :
    place.hasReceiver = true ∨ place = registering := by
  cases place with
  | registering => exact .inr rfl
  | borrowing seen | parked seen => exact .inl rfl
  | _ => cases h

end Place

namespace ReadinessFlag

variable {s s' : ReadinessFlag} {call : ℕ} {place : Place} {token : Token}

/-- The token that `subscribe` takes is neither zero nor in use. -/
lemma takeToken_eq_some {tokens : List Token} {rounds : ℕ} {nextId nextId' : Int32}
    (h : takeToken tokens rounds nextId = some (token, nextId')) : token ≠ 0 ∧ token ∉ tokens := by
  induction rounds generalizing nextId with
  | zero => cases h
  | succ rounds ih =>
    unfold takeToken at h
    split at h
    · rename_i hfree
      cases h
      exact hfree
    · exact ih h

/-! ## Tokens and marks -/

/-- The tokens, the marks and the calls that are about to send. -/
structure Tracked (s : ReadinessFlag) : Prop where
  nodup : s.tokens.Nodup
  nonzero : 0 ∉ s.tokens
  subscribed : ∀ token ∈ s.tokens, token ∈ s.issued
  cleared : s.ready = true → s.tokens = []
  sending : count Place.sends s.calls ≤ s.ready.toNat
  marking : s.marked.length + count Place.announces s.calls ≤ s.ready.toNat
  announced : ∀ call token, s.calls.lookup call = some (.announcing token) → token ∈ s.issued
  marked : ∀ token ∈ s.marked, token ∈ s.issued

lemma tracked_new : new.Tracked where
  nodup := List.nodup_nil
  nonzero := List.not_mem_nil
  subscribed := by
    intro token h
    cases h
  cleared := fun _ => rfl
  sending := Nat.le_refl 0
  marking := Nat.le_refl 0
  announced := by
    intro call token h
    cases h
  marked := by
    intro token h
    cases h

section

variable (h : s.Tracked)
include h

lemma Tracked.goto (call : ℕ) (hsends : place.sends = false) :
    (s.goto call place).Tracked := by
  have hannounces := place.announces_le_sends
  have hsending := count_insert Place.sends call place s.calls
  have hmarking := count_insert Place.announces call place s.calls
  rw [hsends] at hannounces hsending
  refine { h with sending := ?_, marking := ?_, announced := ?_ }
  · have hle := h.sending
    show count Place.sends (s.calls.insert call place) ≤ s.ready.toNat
    rw [Bool.toNat_false] at hsending
    omega
  · have hle := h.marking
    show s.marked.length + count Place.announces (s.calls.insert call place) ≤ s.ready.toNat
    rw [Bool.toNat_false] at hannounces
    omega
  · intro call' token hlookup
    have hlookup : (s.calls.insert call place).lookup call' = some (.announcing token) := hlookup
    rw [lookup_insert_eq] at hlookup
    split at hlookup
    · cases hlookup
      cases hsends
    · exact h.announced call' token hlookup

lemma Tracked.leave (call : ℕ) : (s.leave call).Tracked := by
  have hsending := count_erase Place.sends call s.calls
  have hmarking := count_erase Place.announces call s.calls
  refine { h with sending := ?_, marking := ?_, announced := ?_ }
  · have hle := h.sending
    show count Place.sends (s.calls.erase call) ≤ s.ready.toNat
    omega
  · have hle := h.marking
    show s.marked.length + count Place.announces (s.calls.erase call) ≤ s.ready.toNat
    omega
  · intro call' token hlookup
    have hlookup : (s.calls.erase call).lookup call' = some (.announcing token) := hlookup
    rw [lookup_erase_eq] at hlookup
    split at hlookup
    · cases hlookup
    · exact h.announced call' token hlookup

lemma Tracked.send : s.send.Tracked := { h with }

lemma Tracked.setReady (call : ℕ) (hready : s.ready = false)
    (hannounced : ∀ token, place = .announcing token → token ∈ s.issued) :
    ({ s with ready := true, tokens := [] }.goto call place).Tracked := by
  have hsending := h.sending
  have hmarking := h.marking
  have hsends := count_insert Place.sends call place s.calls
  have hannounces := count_insert Place.announces call place s.calls
  have hle := Bool.toNat_le place.sends
  have hle' := Bool.toNat_le place.announces
  rw [hready, Bool.toNat_false] at hsending hmarking
  refine ⟨List.nodup_nil, List.not_mem_nil, ?_, fun _ => rfl, ?_, ?_, ?_, h.marked⟩
  · intro token htoken
    cases htoken
  · show count Place.sends (s.calls.insert call place) ≤ 1
    omega
  · show s.marked.length + count Place.announces (s.calls.insert call place) ≤ 1
    omega
  · intro call' token hlookup
    have hlookup : (s.calls.insert call place).lookup call' = some (.announcing token) := hlookup
    rw [lookup_insert_eq] at hlookup
    split at hlookup
    · exact hannounced token (Option.some.inj hlookup)
    · exact h.announced call' token hlookup

lemma Tracked.issue (nextId : Int32) (hready : s.ready = false)
    (hnonzero : token ≠ 0) (hnew : token ∉ s.tokens) :
    ({ s with
        nextId, tokens := token :: s.tokens, issued := s.issued ++ [token] } :
      ReadinessFlag).Tracked := by
  refine { h with nodup := ?_, nonzero := ?_, subscribed := ?_, cleared := ?_, announced := ?_,
                  marked := ?_ }
  · exact List.nodup_cons.mpr ⟨hnew, h.nodup⟩
  · intro hmem
    rcases List.mem_cons.mp hmem with hzero | hmem
    · exact hnonzero hzero.symm
    · exact h.nonzero hmem
  · intro token' htoken'
    rcases List.mem_cons.mp htoken' with rfl | hmem
    · exact List.mem_append_right _ (List.mem_singleton_self _)
    · exact List.mem_append_left _ (h.subscribed token' hmem)
  · intro htrue
    have hboth : false = true := hready.symm.trans htrue
    cases hboth
  · intro call token' hlookup
    exact List.mem_append_left _ (h.announced call token' hlookup)
  · intro token' hmem
    exact List.mem_append_left _ (h.marked token' hmem)

lemma Tracked.announce (hlookup : s.calls.lookup call = some (.announcing token)) :
    ({ s.send with marked := s.marked ++ [token] }.leave call).Tracked := by
  have hleft := h.send.leave call
  have hmarking := h.marking
  have herase := count_erase Place.announces call s.calls
  rw [hlookup, weight_some] at herase
  refine { hleft with marking := ?_, marked := ?_ }
  · show (s.marked ++ [token]).length + count Place.announces (s.calls.erase call) ≤ s.ready.toNat
    have hone : (Place.announcing token).announces.toNat = 1 := rfl
    rw [List.length_append, List.length_singleton]
    omega
  · intro token' hmem
    rcases List.mem_append.mp hmem with hmem | hmem
    · exact h.marked token' hmem
    · rw [List.mem_singleton.mp hmem]
      exact h.announced call token hlookup

end

lemma ready_eq_false_of_mem (h : s.Tracked) (hmem : token ∈ s.tokens) :
    s.ready = false := by
  cases hready : s.ready with
  | false => rfl
  | true =>
    rw [h.cleared hready] at hmem
    cases hmem

/-! ## What a step can be -/

/-- The steps of the calls, as a relation. -/
def Step (s : ReadinessFlag) (label : ℕ × Action) (s' : ReadinessFlag) : Prop :=
  s.step label.1 label.2 = some s'

/-- What a step of a call does. -/
inductive Moves (s : ReadinessFlag) (call : ℕ) (action : Action) : ReadinessFlag → Prop
  | stay : Moves s call action s
  /-- The call finds the flag unset, and goes on. -/
  | unset {place : Place} (hready : s.ready = false) (hsends : place.sends = false) :
    Moves s call action (s.goto call place)
  | leave {place : Place} (hlookup : s.calls.lookup call = some place) (hsends : place.sends = false) :
    Moves s call action (s.leave call)
  | goto {place place' : Place} (hlookup : s.calls.lookup call = some place) (hsends : place.sends = false)
    (hsends' : place'.sends = false) (hwaits : place.waits = false → place'.waits = false) :
    Moves s call action (s.goto call place')
  /-- The call sets the flag, and is to send. -/
  | setReady {place place' : Place} (hlookup : s.calls.lookup call = some place) (hready : s.ready = false)
    (hsends : place.sends = false) (hsends' : place'.sends = true)
    (hannounced : ∀ token, place' = .announcing token → token ∈ s.issued) :
    Moves s call action ({ s with ready := true, tokens := [] }.goto call place')
  | issue {token : Token} (nextId : Int32) (hready : s.ready = false) (hnonzero : token ≠ 0)
    (hnew : token ∉ s.tokens) :
    Moves s call action
      ({ s with nextId, tokens := token :: s.tokens, issued := s.issued ++ [token] }.leave call)
  | send {place : Place} (hlookup : s.calls.lookup call = some place) (hsends : place.sends = true)
    (haction : action = .next) : Moves s call action (s.send.leave call)
  | announce {token : Token} (hlookup : s.calls.lookup call = some (.announcing token))
    (haction : action = .next) :
    Moves s call action ({ s.send with marked := s.marked ++ [token] }.leave call)

variable {action : Action}

lemma moves_of_begin (hstep : s.begin call action = some s') : Moves s call action s' := by
  cases action with
  | markReady token =>
    cases hstep
    split
    · exact .stay
    rename_i hready
    split
    · exact .stay
    · exact .unset (eq_false_of_ne_true hready) rfl
  | isReady | waitReady | subscribe =>
    cases hstep
    split
    · exact .stay
    · rename_i hready
      exact .unset (eq_false_of_ne_true hready) rfl
  | _ => cases hstep

lemma Tracked.moves_of_next (h : s.Tracked) (hlookup : s.calls.lookup call = some place)
    (hstep : s.next call place = some s') : Moves s call .next s' := by
  cases place with
  | tryLock waiting =>
    simp only [ReadinessFlag.next] at hstep
    split at hstep
    · rename_i htokens
      split at hstep
      · cases hstep
        exact .leave hlookup rfl
      rename_i hready
      cases hstep
      have heq : ({ s with ready := true } : ReadinessFlag) =
          { s with ready := true, tokens := [] } := by
        rw [← htokens]
      rw [heq]
      exact .setReady hlookup (eq_false_of_ne_true hready) rfl rfl nofun
    · cases hstep
      exact .goto hlookup rfl rfl id
  | reload waiting =>
    simp only [ReadinessFlag.next] at hstep
    split at hstep
    · rename_i hwait
      cases hstep
      rw [Bool.and_eq_true, Bool.not_eq_true'] at hwait
      exact .unset hwait.1 rfl
    · cases hstep
      exact .leave hlookup rfl
  | broadcasting waiting =>
    cases hstep
    exact .send hlookup rfl rfl
  | subscribing =>
    simp only [ReadinessFlag.next] at hstep
    split at hstep
    · cases hstep
      exact .leave hlookup rfl
    rename_i hready
    obtain ⟨⟨token, nextId⟩, htaken, rfl⟩ := Option.map_eq_some_iff.mp hstep
    obtain ⟨hnonzero, hnew⟩ := takeToken_eq_some htaken
    exact .issue nextId (eq_false_of_ne_true hready) hnonzero hnew
  | marking token =>
    simp only [ReadinessFlag.next] at hstep
    split at hstep
    · rename_i hmem
      cases hstep
      refine .setReady hlookup (ready_eq_false_of_mem h hmem) rfl rfl ?_
      rintro token' ⟨⟩
      exact h.subscribed token hmem
    · cases hstep
      exact .leave hlookup rfl
  | announcing token =>
    cases hstep
    exact .announce hlookup rfl
  | registering =>
    cases hstep
    exact .goto hlookup rfl rfl nofun
  | borrowing seen =>
    cases hstep
    split
    · exact .leave hlookup rfl
    · exact .goto hlookup rfl rfl nofun
  | parked seen =>
    simp only [ReadinessFlag.next] at hstep
    split at hstep
    · cases hstep
      exact .goto hlookup rfl rfl nofun
    · cases hstep

lemma Tracked.moves (h : s.Tracked) (hstep : Step s (call, action) s') : Moves s call action s' := by
  unfold Step ReadinessFlag.step at hstep
  cases hplace : s.calls.lookup call with
  | none =>
    rw [hplace] at hstep
    exact moves_of_begin hstep
  | some place =>
    rw [hplace] at hstep
    cases action with
    | next => exact h.moves_of_next hplace hstep
    | lockFails =>
      cases place with
      | tryLock waiting =>
        cases hstep
        exact .goto hplace rfl rfl id
      | subscribing | marking token =>
        cases hstep
        exact .leave hplace rfl
      | _ => cases hstep
    | cancel =>
      cases place with
      | subscribing | marking token | parked seen =>
        cases hstep
        exact .leave hplace rfl
      | _ => cases hstep
    | _ => cases hstep

variable {label : ℕ × Action}

lemma Tracked.step (h : s.Tracked) (hstep : Step s label s') : s'.Tracked := by
  cases h.moves hstep with
  | stay => exact h
  | unset _ hsends => exact h.goto _ hsends
  | leave => exact h.leave _
  | goto _ _ hsends' => exact h.goto _ hsends'
  | setReady _ hready _ _ hannounced => exact h.setReady _ hready hannounced
  | issue nextId hready hnonzero hnew => exact (h.issue nextId hready hnonzero hnew).leave _
  | send => exact h.send.leave _
  | announce hlookup => exact h.announce hlookup

/-! ## Waiting -/

/-- A `wait_ready` call is parked for ever: the flag is ready, all calls that could send have returned
and the channel says false. -/
def LostWait (s : ReadinessFlag) : Prop :=
  s.ready = true ∧ (∀ call place, s.calls.lookup call = some place → place.settles = false) ∧
    (∃ call seen, s.calls.lookup call = some (.parked seen)) ∧ s.tx.value = false

/-- A send finds a receiver, or no call that is about to get one. -/
def Heeded (s : ReadinessFlag) (label : ℕ × Action) : Prop :=
  ∀ place, s.calls.lookup label.1 = some place → place.sends = true → label.2 = .next →
    s.hasReceivers = true ∨ ∀ call, s.calls.lookup call ≠ some .registering

/-- No call waits. -/
def NoWaits (s : ReadinessFlag) : Prop :=
  ∀ call place, s.calls.lookup call = some place → place.waits = false

/-- When the flag is ready, the send is still to come, or the channel says so, or nobody waits. -/
def Heard (s : ReadinessFlag) : Prop :=
  s.ready = true → count Place.sends s.calls = 1 ∨ s.tx.value = true ∨ s.NoWaits

lemma count_sends_eq_zero (h : ∀ call place, s.calls.lookup call = some place → place.sends = false) :
    count Place.sends s.calls = 0 := by
  unfold count
  rw [List.countP_eq_zero]
  rintro ⟨call, place⟩ hentry
  rw [h call place (AList.mem_lookup_iff.mpr hentry)]
  exact Bool.false_ne_true

lemma Heard.not_lostWait (h : s.Heard) : ¬s.LostWait := by
  rintro ⟨hready, hsettled, ⟨call, seen, hparked⟩, hvalue⟩
  rcases h hready with hsending | htrue | hnone
  · have hzero : count Place.sends s.calls = 0 := by
      refine count_sends_eq_zero ?_
      intro call place hlookup
      by_contra hsends
      have hsettles := Place.settles_of_sends (eq_true_of_ne_false hsends)
      rw [hsettled call place hlookup] at hsettles
      cases hsettles
    omega
  · rw [hvalue] at htrue
    cases htrue
  · cases hnone call _ hparked

lemma NoWaits.goto (h : s.NoWaits) (call : ℕ) (hwaits : place.waits = false) :
    (s.goto call place).NoWaits := by
  intro call' place' hlookup
  have hlookup : (s.calls.insert call place).lookup call' = some place' := hlookup
  rw [lookup_insert_eq] at hlookup
  split at hlookup
  · cases hlookup
    exact hwaits
  · exact h call' place' hlookup

lemma NoWaits.leave (h : s.NoWaits) (call : ℕ) : (s.leave call).NoWaits := by
  intro call' place' hlookup
  have hlookup : (s.calls.erase call).lookup call' = some place' := hlookup
  rw [lookup_erase_eq] at hlookup
  split at hlookup
  · cases hlookup
  · exact h call' place' hlookup

lemma Heard.goto (h : s.Heard) (hlookup : s.calls.lookup call = some place) {place' : Place}
    (hsends : place.sends = false) (hsends' : place'.sends = false)
    (hwaits : place.waits = false → place'.waits = false) : (s.goto call place').Heard := by
  intro hready
  rcases h hready with hsending | htrue | hnone
  · left
    have hinsert := count_insert Place.sends call place' s.calls
    rw [hlookup, weight_some, hsends, hsends'] at hinsert
    exact hinsert.trans hsending
  · exact .inr (.inl htrue)
  · exact .inr (.inr (hnone.goto call (hwaits (hnone call place hlookup))))

lemma Heard.leave (h : s.Heard) (hlookup : s.calls.lookup call = some place)
    (hsends : place.sends = false) : (s.leave call).Heard := by
  intro hready
  rcases h hready with hsending | htrue | hnone
  · left
    have herase := count_erase Place.sends call s.calls
    rw [hlookup, weight_some, hsends] at herase
    exact herase.trans hsending
  · exact .inr (.inl htrue)
  · exact .inr (.inr (hnone.leave call))

lemma heard_of_not_ready (h : s.ready = false) : s.Heard := by
  intro hready
  rw [h] at hready
  cases hready

lemma heard_setReady (h : s.Tracked) (hlookup : s.calls.lookup call = some place) {place' : Place}
    (hready : s.ready = false) (hsends : place.sends = false) (hsends' : place'.sends = true) :
    ({ s with ready := true, tokens := [] }.goto call place').Heard := by
  intro _
  left
  have hsending := h.sending
  have hinsert := count_insert Place.sends call place' s.calls
  rw [hready, Bool.toNat_false] at hsending
  rw [hlookup, weight_some, hsends, hsends', Bool.toNat_false, Bool.toNat_true] at hinsert
  show count Place.sends (s.calls.insert call place') = 1
  omega

lemma hasReceiver_eq_false (h : s.hasReceivers = false)
    (hlookup : s.calls.lookup call = some place) : place.hasReceiver = false := by
  unfold hasReceivers at h
  rw [List.any_eq_false] at h
  exact eq_false_of_ne_true (h ⟨call, place⟩ (AList.mem_lookup_iff.mp hlookup))

lemma heard_send (hheeded : s.Heeded (call, action)) (haction : action = .next)
    (hlookup : s.calls.lookup call = some place)
    (hsends : place.sends = true) : s.send.tx.value = true ∨ s.send.NoWaits := by
  cases hreceivers : s.hasReceivers with
  | true =>
    left
    show (s.tx.sendTrue s.hasReceivers).value = true
    rw [hreceivers]
    rfl
  | false =>
    right
    rcases hheeded place hlookup hsends haction with htrue | hnone
    · rw [hreceivers] at htrue
      cases htrue
    intro call' place' hlookup'
    have hlookup' : s.calls.lookup call' = some place' := hlookup'
    by_contra hwaits
    rcases Place.hasReceiver_or_registering (eq_true_of_ne_false hwaits) with
      hreceiver | rfl
    · rw [hasReceiver_eq_false hreceivers hlookup'] at hreceiver
      cases hreceiver
    · exact hnone call' hlookup'

lemma Heard.step (h : s.Heard) (htracked : s.Tracked)
    (hheeded : s.Heeded label) (hstep : Step s label s') : s'.Heard := by
  cases htracked.moves hstep with
  | stay => exact h
  | unset hready => exact heard_of_not_ready hready
  | leave hlookup hsends => exact h.leave hlookup hsends
  | goto hlookup hsends hsends' hwaits => exact h.goto hlookup hsends hsends' hwaits
  | setReady hlookup hready hsends hsends' => exact heard_setReady htracked hlookup hready hsends hsends'
  | issue _ hready => exact heard_of_not_ready hready
  | send hlookup hsends haction =>
    intro _
    exact .inr ((heard_send hheeded haction hlookup hsends).imp_right (·.leave _))
  | announce hlookup haction =>
    intro _
    exact .inr ((heard_send hheeded haction hlookup rfl).imp_right (·.leave _))

/-! ## Runs -/

/-- The flag stays ready, and no token is given out once it is. -/
structure Lasting (s s' : ReadinessFlag) : Prop where
  ready : s.ready = true → s'.ready = true
  issued : s'.issued ≠ s.issued → s.ready = false

lemma lasting_of_eq (hready : s'.ready = s.ready) (hissued : s'.issued = s.issued) :
    Lasting s s' := by
  refine ⟨?_, ?_⟩
  · intro h
    rw [hready, h]
  · intro h
    exact absurd hissued h

lemma Tracked.lasting (h : s.Tracked) (hstep : Step s label s') : Lasting s s' := by
  cases h.moves hstep with
  | setReady => exact ⟨fun _ => rfl, fun h => absurd rfl h⟩
  | issue _ hready => exact ⟨fun h => absurd (hready.symm.trans h) Bool.false_ne_true, fun _ => hready⟩
  | _ => exact lasting_of_eq rfl rfl

/-- The invariant of the runs whose sends are heeded. -/
structure Attended (s : ReadinessFlag) : Prop where
  tracked : s.Tracked
  heard : s.Heard

/-- What the flag promises of a run, apart from the waits. -/
structure Kept (ts : List (Transition ReadinessFlag (ℕ × Action))) (s : ReadinessFlag) : Prop where
  lasting : ∀ t ∈ ts, Lasting t.before t.after
  distinct : s.tokens.Nodup
  nonzero : 0 ∉ s.tokens
  markedOnce : s.marked.length ≤ 1
  markedSubscribed : ∀ token ∈ s.marked, token ∈ s.issued

/-- In every run the flag stays ready, is marked at most once and by a subscribed token, and gives out
distinct tokens while it is not ready; and no wait is lost if every send is heeded. -/
theorem readiness_kept {ts : List (Transition ReadinessFlag (ℕ × Action))}
    (run : Run Step new ts s) :
    Kept ts s ∧ ((∀ t ∈ ts, t.before.Heeded t.label) → ¬s.LostWait) := by
  have htracked := run.invariant (fun _ _ => True) (fun _ _ => trivial) tracked_new
    fun _ _ _ htracked _ hstep => htracked.step hstep
  have hmarking := htracked.1.marking
  have hready := Bool.toNat_le s.ready
  refine ⟨⟨?_, htracked.1.nodup, htracked.1.nonzero, by omega, htracked.1.marked⟩, ?_⟩
  · intro t ht
    exact (htracked.2 t ht).1.lasting (htracked.2 t ht).2
  · intro hheeded
    have hinit : new.Attended := ⟨tracked_new, heard_of_not_ready rfl⟩
    have hattended := run.invariant Heeded hheeded hinit
      fun _ _ _ h hlabel hstep => ⟨h.tracked.step hstep, h.heard.step h.tracked hlabel hstep⟩
    exact hattended.1.heard.not_lostWait

/-! ### Two runs -/

lemma heeded_of_not_sends (hlookup : s.calls.lookup label.1 = some place)
    (h : place.sends = false) : s.Heeded label := by
  intro place' hlookup' hsends _
  rw [hlookup, Option.some.injEq] at hlookup'
  rw [← hlookup', h] at hsends
  cases hsends

/-- A subscriber marks the flag while a call waits with its receiver: the call is woken. -/
theorem readiness_kept_woken :
    ∃ ts s, Run Step new ts s ∧ s.marked = [1] ∧ s.calls.lookup 1 = some (.borrowing 1) ∧
      s.tx.value = true ∧ Kept ts s ∧ ¬s.LostWait := by
  have hnew : RunWhere Step Heeded new [] new := .nil
  have hsubscribed := (hnew.next (0, .subscribe) nofun rfl).next (0, .next) (heeded_of_not_sends rfl rfl) rfl
  have hasked := (hsubscribed.next (1, .waitReady) nofun rfl).next (1, .next) (heeded_of_not_sends rfl rfl) rfl
  have hchecked := hasked.next (1, .next) (heeded_of_not_sends rfl rfl) rfl
  have hborrowed := hchecked.next (1, .next) (heeded_of_not_sends rfl rfl) rfl
  have hparked := hborrowed.next (1, .next) (heeded_of_not_sends rfl rfl) rfl
  have hmarking := (hparked.next (2, .markReady 1) nofun rfl).next (2, .next) (heeded_of_not_sends rfl rfl) rfl
  have hmarked := hmarking.next (2, .next) (fun _ _ _ _ => .inl rfl) rfl
  have hrun := hmarked.next (1, .next) (heeded_of_not_sends rfl rfl) rfl
  exact ⟨_, _, hrun.1, rfl, rfl, rfl, (readiness_kept hrun.1).1, (readiness_kept hrun.1).2 hrun.2⟩

/-- The flag is marked between the check and the receiver of a waiting call: nobody hears the send,
and the call is parked for ever. -/
theorem wait_lost : ∃ ts s, Run Step new ts s ∧ s.LostWait := by
  have hnew : Run Step new [] new := .nil
  have hsubscribed := (hnew.next (0, .subscribe) rfl).next (0, .next) rfl
  have hchecked := ((hsubscribed.next (1, .waitReady) rfl).next (1, .next) rfl).next (1, .next) rfl
  have hmarked := ((hchecked.next (2, .markReady 1) rfl).next (2, .next) rfl).next (2, .next) rfl
  have hrun := (hmarked.next (1, .next) rfl).next (1, .next) rfl
  refine ⟨_, _, hrun, rfl, ?_, ⟨1, 0, rfl⟩, rfl⟩
  intro call place hlookup
  have hentry := AList.mem_lookup_iff.mp hlookup
  cases List.mem_singleton.mp hentry
  rfl

end ReadinessFlag

end Supercodex.Readiness
