import Supercodex.NetworkProxy.Runtime
import Supercodex.Library.Runs

/-!
# What becomes of the recorded requests

A step is looked at through the books it keeps: the buffer, the counter, and the requests recorded,
drained and evicted. Reloads and updates install what was read under an earlier lock; the books
balance along the runs in which nothing was recorded or drained in between.
-/

namespace Supercodex.NetworkProxy

open Runs

/-- The buffer and the counter, with what was recorded, drained and evicted. -/
structure Books where
  blocked : List BlockedRequest
  blockedTotal : ℕ
  recorded : List BlockedRequest
  drained : List BlockedRequest
  evicted : List BlockedRequest

/-- The books of a system. -/
def System.books (s : System) : Books :=
  ⟨s.state.blocked, s.state.blockedTotal, s.recorded, s.drained, s.evicted⟩

/-- The steps of the tasks. -/
def Step (crates : Crates) (s : System) (label : ℕ × Action) (s' : System) : Prop :=
  s.step crates label.1 label.2 = some s'

/-! ## What a step does to the books -/

/-- The loop of `record_blocked` only splits the buffer. -/
lemma popExcess_append (blocked : List BlockedRequest) :
    (popExcess blocked).1 ++ (popExcess blocked).2 = blocked := by
  induction blocked with
  | nil => rfl
  | cons entry rest ih =>
    unfold popExcess
    split
    · show entry :: ((popExcess rest).1 ++ (popExcess rest).2) = entry :: rest
      rw [ih]
    · rfl

lemma length_popExcess_le (blocked : List BlockedRequest) :
    (popExcess blocked).2.length ≤ maxBlockedEvents := by
  induction blocked with
  | nil => exact Nat.zero_le _
  | cons entry rest ih =>
    unfold popExcess
    split
    · exact ih
    · show (entry :: rest).length ≤ maxBlockedEvents
      omega

lemma popExcess_of_length_le {blocked : List BlockedRequest}
    (h : blocked.length ≤ maxBlockedEvents) : (popExcess blocked).1 = [] := by
  cases blocked with
  | nil => rfl
  | cons entry rest =>
    unfold popExcess
    rw [if_neg (by omega)]

/-- The books after a request is recorded. -/
def Books.record (b : Books) (entry : BlockedRequest) : Books where
  blocked := (popExcess (b.blocked ++ [entry])).2
  blockedTotal := min (b.blockedTotal + 1) u64Max
  recorded := b.recorded ++ [entry]
  drained := b.drained
  evicted := b.evicted ++ (popExcess (b.blocked ++ [entry])).1

/-- The books after the buffer is drained. -/
def Books.drain (b : Books) : Books :=
  { b with blocked := [], drained := b.drained ++ b.blocked }

/-- What a step does to the books: nothing, a record, a drain, or the installation of a state that
was built before the lock was taken. -/
inductive Turn (s : System) (task : ℕ) : Action → Books → Prop where
  | kept {action : Action} : Turn s task action s.books
  | recorded {entry : BlockedRequest} (at_ : s.tasks task = .body (.recordBlocked entry)) :
      Turn s task .lock (s.books.record entry)
  | drained (at_ : s.tasks task = .body .drainBlocked) : Turn s task .lock s.books.drain
  | reloaded {operation : Operation} {new : ConfigState}
      (at_ : s.tasks task = .reloadWrite operation new) :
      Turn s task .lock { s.books with blocked := new.blocked, blockedTotal := new.blockedTotal }
  | updated {host : Text} {target : DomainListKind} {previous : NetworkProxyConfig}
      {constraints : NetworkProxyConstraints} {new : ConfigState}
      (at_ : s.tasks task = .updateWrite host target previous constraints new)
      (unchanged : s.state.constraints = constraints ∧ s.state.config = previous) :
      Turn s task .lock { s.books with blocked := new.blocked, blockedTotal := new.blockedTotal }
  | forceReloaded {new : ConfigState} (at_ : s.tasks task = .forceWrite new) :
      Turn s task .lock { s.books with blockedTotal := new.blockedTotal }

lemma turn_runBody (crates : Crates) {s : System} {task : ℕ} {operation : Operation}
    (h : s.tasks task = .body operation) :
    Turn s task .lock (s.runBody crates task operation).books := by
  cases operation with
  | read => exact .kept
  | recordBlocked entry => exact .recorded h
  | drainBlocked => exact .drained h
  | replaceConfigState new => exact .kept
  | setNetworkMode mode =>
    unfold System.runBody
    dsimp only
    split
    · exact .kept
    · exact .kept
  | updateDomainList host target => exact .kept

variable {crates : Crates}

/-- Every step turns the books in one of these ways. -/
lemma turn_of_step {s s' : System} {task : ℕ} {action : Action}
    (h : s.step crates task action = some s') : Turn s task action s'.books := by
  unfold System.step at h
  split at h
  case h_1 | h_3 | h_4 | h_5 | h_6 | h_7 | h_13 | h_14 | h_15 =>
    cases h
    exact .kept
  case h_2 =>
    split at h
    · cases h
      exact .kept
    · cases h
      exact .kept
  case h_8 heq =>
    cases h
    exact .reloaded heq
  case h_9 heq =>
    cases h
    exact turn_runBody crates heq
  case h_10 =>
    split at h
    · cases h
      exact .kept
    · cases h
      exact .kept
    · cases h
      exact .kept
  case h_11 heq =>
    split at h
    · cases h
      exact .kept
    rename_i hsame
    cases h
    push Not at hsame
    exact .updated heq hsame
  case h_12 =>
    split at h
    · cases h
      exact .kept
    · cases h
      exact .kept
  case h_16 heq =>
    cases h
    have hturn := Turn.forceReloaded heq
    exact hturn
  case h_17 => cases h

/-! ## The books balance -/

/-- Every recorded request is in the buffer, drained or evicted, exactly once; the counter counts the
recorded requests, and the buffer is within its bound. -/
structure Books.Balanced (b : Books) : Prop where
  accounted : b.recorded.Perm (b.evicted ++ b.drained ++ b.blocked)
  counted : b.blockedTotal = b.recorded.length
  capped : b.blocked.length ≤ maxBlockedEvents

/-- The books go on: the counter never falls, and a request is evicted only from a full buffer. -/
structure Books.Continues (b b' : Books) : Prop where
  total_le : b.blockedTotal ≤ b'.blockedTotal
  evicted_full : b'.evicted = b.evicted ∨ b.blocked.length = maxBlockedEvents

/-- The condition on a step: a reload or an update installs the buffer and the counter that are there,
a forced reload installs the counter that is there, and the counter has room for a record. -/
def Undisturbed (s : System) (label : ℕ × Action) : Prop :=
  match s.tasks label.1, label.2 with
  | .reloadWrite _ new, .lock =>
    new.blocked = s.state.blocked ∧ new.blockedTotal = s.state.blockedTotal
  | .updateWrite _ _ previous constraints new, .lock =>
    s.state.constraints = constraints ∧ s.state.config = previous →
      new.blocked = s.state.blocked ∧ new.blockedTotal = s.state.blockedTotal
  | .forceWrite new, .lock => new.blockedTotal = s.state.blockedTotal
  | .body (.recordBlocked _), .lock => s.state.blockedTotal < u64Max
  | _, _ => True

lemma Books.Continues.refl (b : Books) : b.Continues b := ⟨Nat.le_refl _, .inl rfl⟩

variable {b : Books}

lemma Books.Balanced.record (h : b.Balanced) (hroom : b.blockedTotal < u64Max)
    (entry : BlockedRequest) : (b.record entry).Balanced where
  accounted := by
    have hsplit := popExcess_append (b.blocked ++ [entry])
    have hpushed : (b.recorded ++ [entry]).Perm
        (b.evicted ++ b.drained ++ (b.blocked ++ [entry])) := by
      rw [← List.append_assoc]
      exact h.accounted.append_right _
    rw [← hsplit, ← List.append_assoc, List.append_assoc b.evicted] at hpushed
    refine hpushed.trans ?_
    have hswap : (b.drained ++ (popExcess (b.blocked ++ [entry])).1).Perm
        ((popExcess (b.blocked ++ [entry])).1 ++ b.drained) := List.perm_append_comm
    simpa only [Books.record, List.append_assoc] using
      (hswap.append_left b.evicted).append_right (popExcess (b.blocked ++ [entry])).2
  counted := by
    show min (b.blockedTotal + 1) u64Max = (b.recorded ++ [entry]).length
    rw [List.length_append, ← h.counted]
    simp only [List.length_singleton]
    omega
  capped := length_popExcess_le _

lemma Books.Continues.record (h : b.Balanced) (hroom : b.blockedTotal < u64Max)
    (entry : BlockedRequest) : b.Continues (b.record entry) where
  total_le := by
    show b.blockedTotal ≤ min (b.blockedTotal + 1) u64Max
    omega
  evicted_full := by
    by_cases hfull : b.blocked.length = maxBlockedEvents
    · exact .inr hfull
    have hle : (b.blocked ++ [entry]).length ≤ maxBlockedEvents := by
      have := h.capped
      simp only [List.length_append, List.length_singleton]
      omega
    refine .inl ?_
    show b.evicted ++ (popExcess (b.blocked ++ [entry])).1 = b.evicted
    rw [popExcess_of_length_le hle, List.append_nil]

lemma Books.Balanced.drain (h : b.Balanced) : b.drain.Balanced where
  accounted := by
    show b.recorded.Perm (b.evicted ++ (b.drained ++ b.blocked) ++ [])
    rw [List.append_nil, ← List.append_assoc]
    exact h.accounted
  counted := h.counted
  capped := Nat.zero_le _

lemma Turn.balanced {s : System} {task : ℕ} {action : Action}
    (h : Turn s task action b) (hs : s.books.Balanced) (hok : Undisturbed s (task, action)) :
    b.Balanced ∧ s.books.Continues b := by
  cases h with
  | kept => exact ⟨hs, .refl _⟩
  | recorded at_ =>
    have hroom : s.state.blockedTotal < u64Max := by simpa [Undisturbed, at_] using hok
    exact ⟨hs.record hroom _, .record hs hroom _⟩
  | drained at_ => exact ⟨hs.drain, Nat.le_refl _, .inl rfl⟩
  | @reloaded _ new at_ =>
    have hsame : new.blocked = s.state.blocked ∧ new.blockedTotal = s.state.blockedTotal := by
      simpa [Undisturbed, at_] using hok
    rw [hsame.1, hsame.2]
    exact ⟨hs, .refl _⟩
  | @updated _ _ _ _ new at_ unchanged =>
    have hsame : new.blocked = s.state.blocked ∧ new.blockedTotal = s.state.blockedTotal := by
      simp only [Undisturbed, at_] at hok
      exact hok unchanged
    rw [hsame.1, hsame.2]
    exact ⟨hs, .refl _⟩
  | @forceReloaded new at_ =>
    have hsame : new.blockedTotal = s.state.blockedTotal := by simpa [Undisturbed, at_] using hok
    rw [hsame]
    exact ⟨hs, .refl _⟩

lemma balanced_new {ca : Except Text Unit} {config : NetworkProxyConfig}
    {constraints : NetworkProxyConstraints} {built : ConfigState}
    (h : buildConfigState crates ca config constraints = .ok built) :
    (System.new built).books.Balanced := by
  obtain ⟨-, -, -, hempty⟩ := buildConfigState_spec h
  constructor
  · simp [System.books, System.new, hempty.1]
  · exact hempty.2
  · simp [System.books, System.new, hempty.1]

/-- In every run whose steps meet the condition, the books balance before and after each step, and the
counter never falls. -/
theorem blocked_requests_accounted {crates : Crates} {ca : Except Text Unit}
    {config : NetworkProxyConfig} {constraints : NetworkProxyConstraints} {built : ConfigState}
    (hbuilt : buildConfigState crates ca config constraints = .ok built)
    {ts : List (Transition System (ℕ × Action))} {s : System}
    (run : Run (Step crates) (System.new built) ts s)
    (hok : ∀ t ∈ ts, Undisturbed t.before t.label) :
    s.books.Balanced ∧
      ∀ t ∈ ts, t.before.books.Balanced ∧ t.after.books.Balanced ∧
        t.before.books.Continues t.after.books := by
  have hinvariant : s.books.Balanced ∧
      ∀ t ∈ ts, t.before.books.Balanced ∧ Step crates t.before t.label t.after :=
    run.invariant Undisturbed hok (balanced_new hbuilt) fun _ _ _ hs hlabel hstep =>
      ((turn_of_step hstep).balanced hs hlabel).1
  refine ⟨hinvariant.1, fun t ht => ?_⟩
  obtain ⟨hbefore, hstep⟩ := hinvariant.2 t ht
  exact ⟨hbefore, (turn_of_step hstep).balanced hbefore (hok t ht)⟩

/-! ### Two runs -/

/-- The crates on names without wildcards. -/
def literalCrates : Crates := ⟨some, fun glob => .ok (· == glob)⟩

/-- The state built from the default configuration. -/
def defaultState : ConfigState := ⟨{}, ⟨[]⟩, ⟨[]⟩, none, {}, [], 0⟩

/-- A blocked request. -/
def blockedRequest : BlockedRequest :=
  { host := "example.com".toList, reason := "not_allowed".toList, protocol := "http".toList
    timestamp := 0 }

/-- A request recorded after a reload, and drained. -/
theorem blocked_requests_accounted_reload :
    buildConfigState literalCrates (.ok ()) {} {} = .ok defaultState ∧
      ∃ ts s, Run (Step literalCrates) (System.new defaultState) ts s ∧
        s.recorded = [blockedRequest] ∧ s.drained = [blockedRequest] ∧ s.books.Balanced := by
  have hbuilt : buildConfigState literalCrates (.ok ()) {} {} = .ok defaultState := rfl
  have hnew : RunWhere (Step literalCrates) Undisturbed (System.new defaultState) [] (System.new defaultState) := .nil
  have hcalled := hnew.next (0, .call (.recordBlocked blockedRequest)) trivial rfl
  have hreload := hcalled.next (0, .maybeReload (.ok (some defaultState))) trivial rfl
  have hinstalled := (hreload.next (0, .lock) trivial rfl).next (0, .lock) ⟨rfl, rfl⟩ rfl
  have hrecorded := hinstalled.next (0, .lock) (show 0 < u64Max by decide) rfl
  have hdraining := hrecorded.next (1, .call .drainBlocked) trivial rfl
  have hrun := (hdraining.next (1, .maybeReload (.ok none)) trivial rfl).next (1, .lock) trivial rfl
  exact ⟨hbuilt, _, _, hrun.1, rfl, rfl, (blocked_requests_accounted hbuilt hrun.1 hrun.2).1⟩

/-- A request recorded between the two locks of another task's reload: it is neither buffered nor
drained nor evicted, and the counter falls back to zero. -/
theorem reload_loses_recorded_request :
    buildConfigState literalCrates (.ok ()) {} {} = .ok defaultState ∧
      ∃ ts s, Run (Step literalCrates) (System.new defaultState) ts s ∧
        s.recorded = [blockedRequest] ∧ s.state.blocked = [] ∧ s.drained = [] ∧ s.evicted = [] ∧
        s.state.blockedTotal = 0 ∧
        ∃ t ∈ ts, t.after.state.blockedTotal < t.before.state.blockedTotal := by
  have hnew : Run (Step literalCrates) (System.new defaultState) [] (System.new defaultState) := .nil
  have hreload := (hnew.next (0, .call .read) rfl).next (0, .maybeReload (.ok (some defaultState))) rfl
  have hread := hreload.next (0, .lock) rfl
  -- the other task records here
  have hcalled := hread.next (1, .call (.recordBlocked blockedRequest)) rfl
  have hrecorded := (hcalled.next (1, .maybeReload (.ok none)) rfl).next (1, .lock) rfl
  have hrun := hrecorded.next (0, .lock) rfl
  refine ⟨rfl, _, _, hrun, rfl, rfl, rfl, rfl, rfl, _,
    List.mem_append_right _ (List.mem_singleton_self _), ?_⟩
  show 0 < 1
  decide

end Supercodex.NetworkProxy
