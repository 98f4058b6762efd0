import Supercodex.UnifiedExec.ExecCommand
import Supercodex.Library.Runs

/-!
# Ids of processes

An id is reserved from its allocation until its call gives it back or its process leaves the store. Nothing
else makes it free, unless all processes are terminated or one is pruned while a call with the id is still in
progress.
-/

namespace Supercodex.UnifiedExec

open Runs UnifiedExecProcessManager ProcessStore

/-- The id that `prune_processes_if_needed` removes. -/
def prunedProcessId (store : ProcessStore) : Option ℤ :=
  if store.processes.length < maxUnifiedExecProcesses then none
  else processIdToPruneFromMeta (store.processes.map metaOf)

lemma pruneProcessesIfNeeded_eq (store : ProcessStore) :
    (pruneProcessesIfNeeded store).2 =
      (prunedProcessId store).elim store fun processId => (store.remove processId).2 := by
  rw [pruneProcessesIfNeeded_eq_elim, prunedProcessId]
  split
  · rfl
  · cases processIdToPruneFromMeta (store.processes.map metaOf) <;> rfl

lemma storeProcess_store (store : ProcessStore) (processId : ℤ) (entry : ProcessEntry) :
    (storeProcess store processId entry).store =
      (pruneProcessesIfNeeded store).2.insert processId entry := rfl

namespace ProcessStore

variable {store : ProcessStore} {processId : ℤ}

lemma mem_remove {e : ℤ × ProcessEntry} :
    e ∈ (store.remove processId).2.processes ↔ e ∈ store.processes ∧ e.1 ≠ processId := by
  show e ∈ store.processes.filter (fun e => e.1 ≠ processId) ↔ _
  rw [List.mem_filter, decide_eq_true_iff]

lemma mem_reserved_remove {processId id : ℤ} :
    id ∈ (store.remove processId).2.reservedProcessIds ↔ id ≠ processId ∧ id ∈ store.reservedProcessIds :=
  Finset.mem_erase

lemma mem_insert {entry : ProcessEntry} {e : ℤ × ProcessEntry} :
    e ∈ (store.insert processId entry).processes ↔
      e = (processId, entry) ∨ e ∈ store.processes ∧ e.1 ≠ processId := by
  show e ∈ (processId, entry) :: store.processes.filter (fun e => e.1 ≠ processId) ↔ _
  rw [List.mem_cons, List.mem_filter, decide_eq_true_iff]

lemma mem_reserved_reserve {processId id : ℤ} :
    id ∈ (store.reserve processId).reservedProcessIds ↔ id = processId ∨ id ∈ store.reservedProcessIds := by
  rw [reserve, Finset.mem_union, Finset.mem_singleton]

lemma mem_of_lookup {entry : ProcessEntry}
    (h : store.processes.lookup processId = some entry) : (processId, entry) ∈ store.processes := by
  obtain ⟨before, after, hparts, -⟩ := List.lookup_eq_some_iff.mp h
  rw [hparts]
  exact List.mem_append_right _ List.mem_cons_self

end ProcessStore

/-! ## The invariant -/

/-- The ids of stored processes and of calls in progress are reserved. -/
structure AllReserved (store : ProcessStore) (calls : ℕ → Option ExecCall) : Prop where
  stored : ∀ e ∈ store.processes, e.1 ∈ store.reservedProcessIds
  inProgress : ∀ call c, calls call = some c → c.processId ∈ store.reservedProcessIds

/-- Moreover, ids are not shared: neither by two calls, nor by a call and a process that is not its own. -/
structure Unshared (store : ProcessStore) (calls : ℕ → Option ExecCall) : Prop extends
    AllReserved store calls where
  keys : ∀ e ∈ store.processes, e.2.processId = e.1
  callIds : ∀ call call' c c', calls call = some c → calls call' = some c' → c.processId = c'.processId →
    call = call'
  own : ∀ call processId phase, calls call = some ⟨processId, phase⟩ → ∀ e ∈ store.processes,
    e.1 = processId → phase = .waiting e.2.process.handle true

namespace Unshared

variable {store : ProcessStore} {calls : ℕ → Option ExecCall} {call : ℕ} {processId : ℤ}

lemma empty : Unshared .empty fun _ => none where
  stored := fun _ h => nomatch h
  inProgress := fun _ _ h => nomatch h
  keys := fun _ h => nomatch h
  callIds := fun _ _ _ _ h => nomatch h
  own := fun _ _ _ h => nomatch h

lemma done (h : Unshared store calls) (call : ℕ) : Unshared store (Function.update calls call none) := by
  have hsub : ∀ other c, Function.update calls call none other = some c → calls other = some c := by
    intro other c hother
    by_cases heq : other = call
    · rw [heq, Function.update_self] at hother
      cases hother
    · rwa [Function.update_of_ne heq] at hother
  exact {
    stored := h.stored
    inProgress := fun other c hother => h.inProgress other c (hsub other c hother)
    keys := h.keys
    callIds := fun other other' c c' hc hc' => h.callIds other other' c c' (hsub _ _ hc) (hsub _ _ hc')
    own := fun other id phase hother => h.own other id phase (hsub _ _ hother) }

lemma remove (h : Unshared store calls) (hfree : ∀ other c, calls other = some c → c.processId ≠ processId) :
    Unshared (store.remove processId).2 calls where
  stored := by
    intro e he
    obtain ⟨hmem, hne⟩ := mem_remove.mp he
    exact mem_reserved_remove.mpr ⟨hne, h.stored e hmem⟩
  inProgress := fun other c hother =>
    mem_reserved_remove.mpr ⟨hfree other c hother, h.inProgress other c hother⟩
  keys := fun e he => h.keys e (mem_remove.mp he).1
  callIds := h.callIds
  own := fun other id phase hother e he => h.own other id phase hother e (mem_remove.mp he).1

lemma release {c : ExecCall} (h : Unshared store calls) (hcall : calls call = some c) :
    Unshared (store.remove c.processId).2 (Function.update calls call none) := by
  apply (h.done call).remove
  intro other c' hother heq
  by_cases hne : other = call
  · rw [hne, Function.update_self] at hother
    cases hother
  · rw [Function.update_of_ne hne] at hother
    exact hne (h.callIds other call c' c hother hcall heq)

lemma goto {phase : ExecPhase} (phase' : ExecPhase) (h : Unshared store calls)
    (hcall : calls call = some ⟨processId, phase⟩)
    (hown : ∀ e ∈ store.processes, e.1 = processId → phase' = .waiting e.2.process.handle true) :
    Unshared store (Function.update calls call (some ⟨processId, phase'⟩)) := by
  have hsame : ∀ other c, Function.update calls call (some ⟨processId, phase'⟩) other = some c →
      ∃ c₀, calls other = some c₀ ∧ c₀.processId = c.processId := by
    intro other c hother
    by_cases heq : other = call
    · rw [heq, Function.update_self, Option.some.injEq] at hother
      rw [heq, ← hother]
      exact ⟨_, hcall, rfl⟩
    · rw [Function.update_of_ne heq] at hother
      exact ⟨c, hother, rfl⟩
  refine ⟨⟨h.stored, ?_⟩, h.keys, ?_, ?_⟩
  · intro other c hother
    obtain ⟨c₀, hc₀, hid⟩ := hsame other c hother
    exact hid ▸ h.inProgress other c₀ hc₀
  · intro other other' c c' hother hother' heq
    obtain ⟨c₀, hc₀, hid⟩ := hsame other c hother
    obtain ⟨c₀', hc₀', hid'⟩ := hsame other' c' hother'
    apply h.callIds other other' c₀ c₀' hc₀ hc₀'
    rw [hid, hid', heq]
  · intro other id phase'' hother
    by_cases heq : other = call
    · rw [heq, Function.update_self, Option.some.injEq, ExecCall.mk.injEq] at hother
      rw [← hother.1, ← hother.2]
      exact hown
    · rw [Function.update_of_ne heq] at hother
      exact h.own other id phase'' hother

/-- A new call reserves an id that is free. -/
lemma allocate (h : Unshared store calls) (hfree : processId ∉ store.reservedProcessIds) (call : ℕ)
    (phase : ExecPhase) :
    Unshared (store.reserve processId) (Function.update calls call (some ⟨processId, phase⟩)) := by
  have hcalls : ∀ other c, Function.update calls call (some ⟨processId, phase⟩) other = some c →
      other = call ∧ c = ⟨processId, phase⟩ ∨
        other ≠ call ∧ calls other = some c ∧ c.processId ≠ processId := by
    intro other c hother
    by_cases heq : other = call
    · rw [heq, Function.update_self, Option.some.injEq] at hother
      exact .inl ⟨heq, hother.symm⟩
    · rw [Function.update_of_ne heq] at hother
      exact .inr ⟨heq, hother, fun hid => hfree (hid ▸ h.inProgress other c hother)⟩
  refine ⟨⟨?_, ?_⟩, h.keys, ?_, ?_⟩
  · intro e he
    exact mem_reserved_reserve.mpr (.inr (h.stored e he))
  · intro other c hother
    rw [mem_reserved_reserve]
    rcases hcalls other c hother with ⟨-, rfl⟩ | ⟨-, hc, -⟩
    · exact .inl rfl
    · exact .inr (h.inProgress other c hc)
  · intro other other' c c' hother hother' hid
    rcases hcalls other c hother with ⟨rfl, rfl⟩ | ⟨hne, hc, hother⟩
    · rcases hcalls other' c' hother' with ⟨rfl, -⟩ | ⟨-, -, hne'⟩
      · rfl
      · exact absurd hid.symm hne'
    · rcases hcalls other' c' hother' with ⟨-, rfl⟩ | ⟨-, hc', -⟩
      · exact absurd hid hother
      · exact h.callIds other other' c c' hc hc' hid
  · intro other id phase' hother e he hid
    rcases hcalls other _ hother with ⟨-, hc⟩ | ⟨-, hc, -⟩
    · rw [ExecCall.mk.injEq] at hc
      exact absurd (hid.trans hc.1 ▸ h.stored e he) hfree
    · exact h.own other id phase' hc e he hid

lemma insert {process : ℕ} {entry : ProcessEntry} (h : Unshared store calls)
    (hcall : calls call = some ⟨processId, .storing process⟩) (hid : entry.processId = processId)
    (hprocess : entry.process.handle = process) :
    Unshared (store.insert processId entry)
      (Function.update calls call (some ⟨processId, .waiting process true⟩)) := by
  have hgoto := h.goto (.waiting process true) hcall fun e he heq =>
    nomatch h.own call processId _ hcall e he heq
  refine ⟨⟨?_, hgoto.inProgress⟩, ?_, hgoto.callIds, ?_⟩
  · intro e he
    rcases mem_insert.mp he with rfl | ⟨he, -⟩
    · exact h.inProgress call _ hcall
    · exact h.stored e he
  · intro e he
    rcases mem_insert.mp he with rfl | ⟨he, -⟩
    · exact hid
    · exact h.keys e he
  · intro other id phase hother e he heq
    rcases mem_insert.mp he with rfl | ⟨he, -⟩
    · -- the id of the new entry is that of its call alone
      have hsame : other = call := by
        apply hgoto.callIds other call _ _ hother (Function.update_self ..)
        exact heq.symm
      rw [hsame, Function.update_self, Option.some.injEq, ExecCall.mk.injEq] at hother
      rw [← hother.2, hprocess]
    · exact hgoto.own other id phase hother e he heq

lemma mapEntries {f : ℤ → ProcessEntry → ProcessEntry} (h : Unshared store calls)
    (hf : ∀ id entry, (f id entry).process.handle = entry.process.handle ∧
      (f id entry).processId = entry.processId) : Unshared (store.mapEntries f) calls := by
  have hmem : ∀ e ∈ (store.mapEntries f).processes, ∃ e₀ ∈ store.processes, e = (e₀.1, f e₀.1 e₀.2) := by
    intro e he
    obtain ⟨e₀, he₀, rfl⟩ := List.mem_map.mp he
    exact ⟨e₀, he₀, rfl⟩
  refine ⟨⟨?_, h.inProgress⟩, ?_, h.callIds, ?_⟩
  · intro e he
    obtain ⟨e₀, he₀, rfl⟩ := hmem e he
    exact h.stored e₀ he₀
  · intro e he
    obtain ⟨e₀, he₀, rfl⟩ := hmem e he
    exact (hf e₀.1 e₀.2).2.trans (h.keys e₀ he₀)
  · intro other id phase hother e he heq
    obtain ⟨e₀, he₀, rfl⟩ := hmem e he
    rw [(hf e₀.1 e₀.2).1]
    exact h.own other id phase hother e₀ he₀ heq

end Unshared

/-! ## Steps -/

lemma ProcessEntry.markExited_keeps (entry : ProcessEntry) (process : ℕ) :
    (entry.markExited process).process.handle = entry.process.handle ∧
      (entry.markExited process).processId = entry.processId := by
  rw [ProcessEntry.markExited]
  split
  · rename_i hhandle
    exact ⟨hhandle.symm, rfl⟩
  · exact ⟨rfl, rfl⟩

/-- The call that gives up its id in a step. -/
def releasedBy : Action → Option ℕ
  | .releaseProcessId call => some call
  | .fail call => some call
  | .finish call => some call
  | _ => none

/-- What a step does to the store and to the calls in progress. -/
inductive Change (store : ProcessStore) (calls : ℕ → Option ExecCall) :
    Action → ProcessStore → (ℕ → Option ExecCall) → Prop where
  | kept (action : Action) : Change store calls action store calls
  | mapped (action : Action) (f : ℤ → ProcessEntry → ProcessEntry)
      (hf : ∀ id entry, (f id entry).process.handle = entry.process.handle ∧
        (f id entry).processId = entry.processId) :
      Change store calls action (store.mapEntries f) calls
  | allocated (call : ℕ) (drawn processId : ℤ) (hcall : calls call = none)
      (hfree : processId ∉ store.reservedProcessIds) :
      Change store calls (.allocateProcessId call drawn) (store.reserve processId)
        (Function.update calls call (some ⟨processId, .reserved⟩))
  | advanced (action : Action) (call : ℕ) {processId : ℤ} {phase : ExecPhase} (phase' : ExecPhase)
      (hcall : calls call = some ⟨processId, phase⟩) (hphase : ∀ process, phase ≠ .waiting process true) :
      Change store calls action store (Function.update calls call (some ⟨processId, phase'⟩))
  | stored (call : ℕ) (data : EntryData) {processId : ℤ} {process : ℕ} (entry : ProcessEntry)
      (hcall : calls call = some ⟨processId, .storing process⟩) (hid : entry.processId = processId)
      (hprocess : entry.process.handle = process) :
      Change store calls (.storeProcess call data) (storeProcess store processId entry).store
        (Function.update calls call (some ⟨processId, .waiting process true⟩))
  | ended (action : Action) (call : ℕ) : Change store calls action store (Function.update calls call none)
  | released (action : Action) (call : ℕ) {c : ExecCall} (haction : releasedBy action = some call)
      (hcall : calls call = some c) :
      Change store calls action (store.remove c.processId).2 (Function.update calls call none)
  | terminated : Change store calls .terminateAllProcesses .empty calls

lemma refreshProcessState_cases {store : ProcessStore} (hkeys : ∀ e ∈ store.processes, e.2.processId = e.1)
    (processId : ℤ) :
    (refreshProcessState store processId).2 = store ∨
      (refreshProcessState store processId).2 = (store.remove processId).2 := by
  unfold refreshProcessState
  cases hlookup : store.processes.lookup processId with
  | none => exact .inl rfl
  | some entry =>
    have hid : entry.processId = processId := hkeys _ (mem_of_lookup hlookup)
    dsimp only
    split
    · right
      rw [hid]
      have hremove : store.remove processId = (some entry, (store.remove processId).2) :=
        Prod.ext hlookup rfl
      rw [hremove]
    · exact .inl rfl

variable {deterministic : Bool} {s s' : UnifiedExecProcessManager} {action : Action}

lemma step_change (hs : Unshared s.store s.calls) (h : Step deterministic s action s') :
    Change s.store s.calls action s'.store s'.calls := by
  rw [Step] at h
  cases action with
  | allocateProcessId call drawn =>
    rw [step] at h
    cases hcall : s.calls call with
    | some c =>
      rw [hcall] at h
      cases h
    | none =>
      rw [hcall] at h
      dsimp only at h
      split at h
      · split at h
        · cases h
          exact .kept _
        · rename_i hfree
          cases h
          exact .allocated call drawn _ hcall hfree
      · cases h
  | openSession call =>
    rw [step] at h
    split at h
    · rename_i processId hcall
      cases h
      exact .advanced _ call _ hcall fun _ => ExecPhase.noConfusion
    · cases h
  | releaseProcessId call =>
    rw [step] at h
    split at h
    · rename_i processId hcall
      cases h
      exact .released _ call rfl hcall
    · cases h
  | checkStarted call =>
    rw [step] at h
    split at h
    · rename_i processId process hcall
      cases h
      exact .advanced _ call _ hcall fun _ => ExecPhase.noConfusion
    · cases h
  | storeProcess call data =>
    rw [step] at h
    split at h
    · rename_i processId process hcall
      cases h
      exact .stored call data _ hcall rfl rfl
    · cases h
  | fail call =>
    rw [step] at h
    split at h
    · rename_i processId process stored hcall
      cases h
      exact .released _ call rfl hcall
    · cases h
  | finish call =>
    rw [step] at h
    split at h
    · rename_i processId process hcall
      cases h
      show Change _ _ _ (refreshProcessState s.store processId).2 _
      rcases refreshProcessState_cases hs.keys processId with heq | heq
      · rw [heq]
        exact .ended _ call
      · rw [heq]
        exact .released _ call rfl hcall
    · rename_i processId process hcall
      cases h
      exact .released _ call rfl hcall
    · cases h
  | drop call =>
    cases h
    exact .ended _ call
  | exit process =>
    cases h
    exact .mapped _ _ fun _ entry => entry.markExited_keeps process
  | prepareProcessHandles processId now =>
    have hf : ∀ id (entry : ProcessEntry),
        (if id = processId then entry.touch now else entry).process.handle = entry.process.handle ∧
          (if id = processId then entry.touch now else entry).processId = entry.processId := by
      intro id entry
      split
      · exact ⟨rfl, rfl⟩
      · exact ⟨rfl, rfl⟩
    cases h
    exact .mapped _ _ hf
  | terminateAllProcesses =>
    cases h
    exact .terminated

/-! ## What a step keeps -/

/-- A step after which no id in use is free, that takes no id in use, replaces no process by another one, and
removes no process of another call when a call gives up its id. -/
structure KeepsIds (t : Transition UnifiedExecProcessManager Action) : Prop where
  reserved : AllReserved t.after.store t.after.calls
  allocated : ∀ call c, t.before.calls call = none → t.after.calls call = some c →
    (∀ e ∈ t.before.store.processes, e.1 ≠ c.processId) ∧
      ∀ other c', t.before.calls other = some c' → c'.processId ≠ c.processId
  replaced : ∀ e ∈ t.before.store.processes, ∀ e' ∈ t.after.store.processes, e'.1 = e.1 →
    e'.2.process.handle = e.2.process.handle
  released : ∀ call, releasedBy t.label = some call → ∀ e ∈ t.before.store.processes,
    (∀ e' ∈ t.after.store.processes, e'.1 ≠ e.1) →
      t.before.calls call = some ⟨e.1, .waiting e.2.process.handle true⟩

/-- Where no call in progress loses its id: all processes are terminated between calls, and no process is
pruned under an id of a call in progress. -/
def Undisturbed (s : UnifiedExecProcessManager) : Action → Prop
  | .terminateAllProcesses => ∀ call, s.calls call = none
  | .storeProcess _ _ => ∀ processId, prunedProcessId s.store = some processId →
      ∀ call c, s.calls call = some c → c.processId ≠ processId
  | _ => True

lemma Unshared.prune {store : ProcessStore} {calls : ℕ → Option ExecCall} (h : Unshared store calls)
    (hok : ∀ processId, prunedProcessId store = some processId →
      ∀ call c, calls call = some c → c.processId ≠ processId) :
    Unshared (pruneProcessesIfNeeded store).2 calls := by
  rw [pruneProcessesIfNeeded_eq]
  cases hpruned : prunedProcessId store with
  | none => exact h
  | some processId => exact h.remove (hok processId hpruned)

lemma Unshared.change {store store' : ProcessStore} {calls calls' : ℕ → Option ExecCall}
    (h : Unshared store calls) (hok : Undisturbed ⟨store, calls, s.started, s.hasExited⟩ action)
    (hchange : Change store calls action store' calls') : Unshared store' calls' := by
  cases hchange with
  | kept => exact h
  | mapped _ f hf => exact h.mapEntries hf
  | allocated call drawn processId hcall hfree => exact h.allocate hfree call _
  | advanced _ call phase' hcall hphase =>
    exact h.goto phase' hcall fun e he heq => absurd (h.own call _ _ hcall e he heq) (hphase _)
  | stored call data entry hcall hid hprocess => exact (h.prune hok).insert hcall hid hprocess
  | ended _ call => exact h.done call
  | released _ call haction hcall => exact h.release hcall
  | terminated =>
    have hnone : calls = fun _ => none := funext hok
    rw [hnone]
    exact .empty

namespace Change

variable {store store' : ProcessStore} {calls calls' : ℕ → Option ExecCall}

/-- A call that begins takes an id that is not in use. -/
lemma allocates_free (h : AllReserved store calls) (hchange : Change store calls action store' calls')
    {call : ℕ} {c : ExecCall} (hbefore : calls call = none) (hafter : calls' call = some c) :
    (∀ e ∈ store.processes, e.1 ≠ c.processId) ∧
      ∀ other c', calls other = some c' → c'.processId ≠ c.processId := by
  have hupdate : ∀ {other : ℕ} {x : Option ExecCall}, Function.update calls other x call = some c →
      call = other ∧ x = some c := by
    intro other x hafter
    by_cases heq : call = other
    · rw [heq, Function.update_self] at hafter
      exact ⟨heq, hafter⟩
    · rw [Function.update_of_ne heq, hbefore] at hafter
      cases hafter
  cases hchange with
  | kept | mapped _ f hf => exact absurd (hbefore.symm.trans hafter) (Option.some_ne_none c).symm
  | allocated other drawn processId hcall hfree =>
    obtain ⟨-, hc⟩ := hupdate hafter
    rw [Option.some.injEq] at hc
    rw [← hc]
    constructor
    · intro e he heq
      have hreserved := h.stored e he
      rw [heq] at hreserved
      exact hfree hreserved
    · intro other c' hother heq
      have hreserved := h.inProgress other c' hother
      rw [heq] at hreserved
      exact hfree hreserved
  | advanced _ other phase' hcall hphase | stored other data entry hcall hid hprocess =>
    obtain ⟨rfl, -⟩ := hupdate hafter
    rw [hbefore] at hcall
    cases hcall
  | ended _ other | released _ other haction hcall => cases (hupdate hafter).2
  | terminated => exact absurd (hbefore.symm.trans hafter) (Option.some_ne_none c).symm

lemma replaces_none (h : Unshared store calls) (hchange : Change store calls action store' calls')
    {e e' : ℤ × ProcessEntry} (he : e ∈ store.processes) (he' : e' ∈ store'.processes) (hid : e'.1 = e.1) :
    e'.2.process.handle = e.2.process.handle := by
  have hsame : ∀ {e' : ℤ × ProcessEntry}, e' ∈ store.processes → e'.1 = e.1 → e' = e :=
    fun he' hid => List.inj_on_of_nodup_map store.nodup he' he hid
  cases hchange with
  | kept => rw [hsame he' hid]
  | mapped _ f hf =>
    obtain ⟨e₀, he₀, rfl⟩ := List.mem_map.mp he'
    rw [(hf e₀.1 e₀.2).1, hsame he₀ hid]
  | allocated call drawn processId hcall hfree | advanced _ call phase' hcall hphase => rw [hsame he' hid]
  | stored call data entry hcall hentry hprocess =>
    rw [storeProcess_store] at he'
    rcases mem_insert.mp he' with rfl | ⟨hpruned, -⟩
    · -- under the id of a call that stores its process there is no entry yet
      exact nomatch h.own call _ _ hcall e he hid.symm
    have hsub : e' ∈ store.processes := by
      rw [pruneProcessesIfNeeded_eq] at hpruned
      cases hid' : prunedProcessId store with
      | none =>
        rw [hid'] at hpruned
        exact hpruned
      | some processId =>
        rw [hid'] at hpruned
        exact (mem_remove.mp hpruned).1
    rw [hsame hsub hid]
  | ended _ call => rw [hsame he' hid]
  | released _ call haction hcall => rw [hsame (mem_remove.mp he').1 hid]
  | terminated => cases he'

lemma releases_own (h : Unshared store calls) (hchange : Change store calls action store' calls')
    {call : ℕ} (haction : releasedBy action = some call) {e : ℤ × ProcessEntry} (he : e ∈ store.processes)
    (hremoved : ∀ e' ∈ store'.processes, e'.1 ≠ e.1) :
    calls call = some ⟨e.1, .waiting e.2.process.handle true⟩ := by
  cases hchange with
  | kept => exact absurd rfl (hremoved e he)
  | mapped _ f hf =>
    have hmem : (e.1, f e.1 e.2) ∈ (store.mapEntries f).processes := List.mem_map.mpr ⟨e, he, rfl⟩
    exact absurd rfl (hremoved (e.1, f e.1 e.2) hmem)
  | allocated other drawn processId hcall hfree => cases haction
  | advanced _ other phase' hcall hphase => exact absurd rfl (hremoved e he)
  | stored other data entry hcall hid hprocess => cases haction
  | ended _ other => exact absurd rfl (hremoved e he)
  | @released _ other c hother hcall =>
    rw [haction, Option.some.injEq] at hother
    have hid : e.1 = c.processId := by
      by_contra hne
      exact hremoved e (mem_remove.mpr ⟨he, hne⟩) rfl
    have hphase := h.own other c.processId c.phase hcall e he hid
    rw [hother, hcall, hid, ← hphase]
  | terminated => cases haction

end Change

lemma Unshared.keepsIds (h : Unshared s.store s.calls) (hok : Undisturbed s action)
    (hstep : Step deterministic s action s') : KeepsIds ⟨s, action, s'⟩ where
  reserved := (h.change hok (step_change h hstep)).toAllReserved
  allocated := fun _ _ hbefore hafter => (step_change h hstep).allocates_free h.toAllReserved hbefore hafter
  replaced := fun _ he _ he' hid => (step_change h hstep).replaces_none h he he' hid
  released := fun _ haction _ he hremoved => (step_change h hstep).releases_own h haction he hremoved

lemma KeepsIds.undisturbed (h : KeepsIds ⟨s, action, s'⟩) (hstep : Step deterministic s action s') :
    Undisturbed s action := by
  cases action with
  | terminateAllProcesses =>
    cases hstep
    intro call
    cases hcall : s.calls call with
    | none => rfl
    | some c => exact absurd (h.reserved.inProgress call c hcall) (Finset.notMem_empty _)
  | storeProcess call data =>
    rw [Step, step] at hstep
    split at hstep
    · rename_i id process hcall
      cases hstep
      intro processId hpruned other c hother heq
      have hreserved : c.processId ∈ (pruneProcessesIfNeeded s.store).2.reservedProcessIds := by
        by_cases hne : other = call
        · rw [hne, hcall, Option.some.injEq] at hother
          rw [← hother]
          exact h.reserved.inProgress call ⟨id, .waiting process true⟩ (Function.update_self ..)
        · exact h.reserved.inProgress other c ((Function.update_of_ne hne ..).trans hother)
      rw [pruneProcessesIfNeeded_eq, hpruned] at hreserved
      exact (mem_reserved_remove.mp hreserved).1 heq
    · cases hstep
  | _ => trivial

/-- The ids are kept by all steps of a run if and only if all processes are terminated between calls only,
and no process is pruned under an id of a call in progress. -/
theorem keepsIds_iff {ts : List (Transition UnifiedExecProcessManager Action)}
    (run : Run (Step deterministic) new ts s) :
    (∀ t ∈ ts, KeepsIds t) ↔ ∀ t ∈ ts, Undisturbed t.before t.label := by
  constructor
  · intro hkeeps t ht
    have hsteps := (run.invariant (fun _ _ => True) (fun _ _ => trivial) trivial
      fun _ _ _ _ _ _ => (trivial : True)).2
    exact (hkeeps t ht).undisturbed (hsteps t ht).2
  · intro hok t ht
    have hinvariant := @Run.invariant _ _ _ _ _ _ (fun s => Unshared s.store s.calls) Undisturbed run hok .empty
      fun s action s' h hok hstep => h.change hok (step_change h hstep)
    obtain ⟨hbefore, hstep⟩ := hinvariant.2 t ht
    exact hbefore.keepsIds (hok t ht) hstep

/-- What a call of `cat` writes into its entry. -/
def catData : EntryData := ⟨"call".toList, "cat".toList, true, none, none, 0⟩

/-- Two calls whose steps alternate; all processes are terminated when both are over, and the next call gets the id
of the first one. -/
theorem keepsIds_iff_interleaved : ∃ ts s, Run (Step false) new ts s ∧
    s.store.processes.map (fun e => (e.1, e.2.process.handle)) = [(1000, 2)] ∧ ∀ t ∈ ts, KeepsIds t := by
  have hnew : RunWhere (Step false) Undisturbed new [] new := .nil
  have hallocated := (hnew.next (.allocateProcessId 0 1000) trivial rfl).next (.allocateProcessId 1 2000) trivial rfl
  have hopened := (hallocated.next (.openSession 1) trivial rfl).next (.openSession 0) trivial rfl
  have hchecked := (hopened.next (.checkStarted 0) trivial rfl).next (.checkStarted 1) trivial rfl
  have hstored := (hchecked.next (.storeProcess 0 catData) (fun _ h => nomatch h) rfl).next (.storeProcess 1 catData)
    (fun _ h => nomatch h) rfl
  have hended := (hstored.next (.fail 1) trivial rfl).next (.finish 0) trivial rfl
  have hterminated := hended.next .terminateAllProcesses (fun call => by
    by_cases h0 : call = 0 <;> by_cases h1 : call = 1 <;> simp [done, goto, new, Function.update, h0, h1]) rfl
  have hagain := (hterminated.next (.allocateProcessId 2 1000) trivial rfl).next (.openSession 2) trivial rfl
  have hrun := (hagain.next (.checkStarted 2) trivial rfl).next (.storeProcess 2 catData) (fun _ h => nomatch h) rfl
  exact ⟨_, _, hrun.1, rfl, (keepsIds_iff hrun.1).mpr hrun.2⟩

/-- All processes are terminated while a call waits for its process to start; another call gets its id, both
store their processes under it, and the first one removes the process of the other. -/
theorem terminated_call_shares_id : ¬∀ ts s, Run (Step false) new ts s → ∀ t ∈ ts, KeepsIds t := by
  intro h
  have hallocated := Run.next (Run.nil : Run (Step false) new _ _) (.allocateProcessId 0 1000) rfl
  have hterminated := hallocated.next .terminateAllProcesses rfl
  have hshared := hterminated.next (.allocateProcessId 1 1000) rfl
  have hopened := (hshared.next (.openSession 0) rfl).next (.openSession 1) rfl
  have hchecked := (hopened.next (.checkStarted 0) rfl).next (.checkStarted 1) rfl
  have hstored := hchecked.next (.storeProcess 0 catData) rfl
  have hreplaced := hstored.next (.storeProcess 1 catData) rfl
  have hrun := hreplaced.next (.fail 0) rfl
  have hkeeps := h _ _ hrun _ (List.mem_append_right _ (List.mem_singleton_self _))
  have hown := hkeeps.released 0 rfl (1000, ⟨⟨1, false⟩, _, 1000, _, _, _, _, _⟩) (List.mem_cons_self ..)
    (fun e' he' => nomatch he')
  cases hown

end Supercodex.UnifiedExec
