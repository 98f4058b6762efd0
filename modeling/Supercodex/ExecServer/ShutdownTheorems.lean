import Supercodex.Library.Effects
import Supercodex.ExecServer.ProcessRunTheorems

/-!
# Shutdown of local processes

Every process that was spawned is accounted for: it is terminated, its entry is in the map, `shutdown`
has drained it and will terminate it, or its start call holds it. When all calls have returned only
the entries in the map can be left, and these are the ones inserted after the map was drained.
-/

namespace Supercodex.ExecServer

open Runs LocalProcess RunWhere

namespace LocalProcess

variable {s s' : LocalProcess} {session call : ℕ}

/-- Somebody terminates the process, or will. -/
def Accounted (s : LocalProcess) (session : ℕ) (spawned : SpawnedProcess) : Prop :=
  spawned.terminated = true ∨
  (∃ processId process, s.running? processId = some process ∧ process.session = session) ∨
  (∃ remaining, s.shutdown = .terminating remaining ∧ session ∈ remaining) ∨
  ∃ (call : ℕ) (start : StartCall), s.starts[call]? = some start ∧ start.phase = .spawned session

/-- No spawned process is lost. -/
def AllAccounted (s : LocalProcess) : Prop :=
  ∀ (session : ℕ) spawned, s.spawned[session]? = some spawned → s.Accounted session spawned

/-! ## Steps that lose nothing -/

/-- Entries, drained sessions and held sessions stay, and terminated processes stay terminated. -/
structure Keeps (s s' : LocalProcess) : Prop where
  running : ∀ processId process, s.running? processId = some process →
    s'.running? processId = some process
  spawned : ∀ (session : ℕ) spawned', s'.spawned[session]? = some spawned' → ∃ spawned,
    s.spawned[session]? = some spawned ∧
      (spawned.terminated = true → spawned'.terminated = true)
  shutdown : ∀ remaining, s.shutdown = .terminating remaining →
    s'.shutdown = .terminating remaining
  starts : ∀ (call : ℕ) start session, s.starts[call]? = some start →
    start.phase = .spawned session → s'.starts[call]? = some start

lemma Keeps.allAccounted (hk : Keeps s s') (h : s.AllAccounted) : s'.AllAccounted := by
  intro session spawned' hspawned'
  obtain ⟨spawned, hspawned, hterminated⟩ := hk.spawned session spawned' hspawned'
  rcases h session spawned hspawned with hdone | ⟨processId, process, hprocess, hsession⟩ |
    ⟨remaining, hremaining, hmem⟩ | ⟨call, start, hstart, hphase⟩
  · exact .inl (hterminated hdone)
  · exact .inr (.inl ⟨processId, process, hk.running _ _ hprocess, hsession⟩)
  · exact .inr (.inr (.inl ⟨remaining, hk.shutdown _ hremaining, hmem⟩))
  · exact .inr (.inr (.inr ⟨call, start, hk.starts _ _ _ hstart hphase, hphase⟩))

lemma Keeps.same : Keeps s s where
  running := fun _ _ => id
  spawned := fun _ spawned' h => ⟨spawned', h, id⟩
  shutdown := fun _ => id
  starts := fun _ _ _ h _ => h

lemma getElem?_setPhase_of_ne {phase : StartPhase} {start : StartCall}
    (hstart : s.starts[call]? = some start) (hphase : ∀ session, start.phase ≠ .spawned session)
    {other : ℕ} {held : StartCall} (h : s.starts[other]? = some held)
    (hheld : held.phase = .spawned session) : (s.setPhase call phase).starts[other]? = some held := by
  have hne : call ≠ other := by
    rintro rfl
    rw [hstart] at h
    cases h
    exact hphase session hheld
  simp only [setPhase, List.getElem?_modify, if_neg hne, h, Option.map_eq_map, Option.map_some]

lemma callStart_keeps (params : ExecParams) : Keeps s (s.callStart params) where
  running := fun _ _ => id
  spawned := fun _ spawned' h => ⟨spawned', h, id⟩
  shutdown := fun _ => id
  starts := by
    intro other start session h _
    rw [callStart]
    exact List.getElem?_append_left (List.getElem?_eq_some_iff.mp h).1 ▸ h

lemma reserve_keeps (h : s.reserve call = some s') : Keeps s s' := by
  simp only [reserve, Effects.bind_eq_some] at h
  obtain ⟨start, hstart, h⟩ := h
  split at h
  case h_2 => cases h
  rename_i hphase
  have hheld : ∀ session, start.phase ≠ .spawned session := by simp [hphase]
  split_ifs at h with hknown
  · cases h
    exact ⟨fun _ _ => id, fun _ spawned' h => ⟨spawned', h, id⟩, fun _ => id,
      fun _ _ _ => getElem?_setPhase_of_ne hstart hheld⟩
  · cases h
    refine ⟨?_, fun _ spawned' h => ⟨spawned', h, id⟩, fun _ => id,
      fun _ _ _ => getElem?_setPhase_of_ne hstart hheld⟩
    intro other process hprocess
    rw [running?_setPhase, running?_eq_some]
    rw [running?_eq_some] at hprocess
    have hne : other ≠ start.params.processId := by
      rintro rfl
      rw [hprocess] at hknown
      exact hknown rfl
    rw [AList.lookup_insert_ne hne]
    exact hprocess

lemma spawnErr_keeps {message : Text} (h : s.spawnErr call message = some s') : Keeps s s' := by
  simp only [spawnErr, Effects.bind_eq_some] at h
  obtain ⟨start, hstart, h⟩ := h
  split at h
  case h_2 => cases h
  rename_i hphase
  cases h
  exact ⟨fun _ _ => id, fun _ spawned' h => ⟨spawned', h, id⟩, fun _ => id,
    fun _ _ _ => getElem?_setPhase_of_ne hstart (by simp [hphase])⟩

lemma removeStarting_keeps (h : s.removeStarting call = some s') : Keeps s s' := by
  simp only [removeStarting, Effects.bind_eq_some] at h
  obtain ⟨start, hstart, h⟩ := h
  split at h
  case h_2 => cases h
  rename_i message hphase
  cases h
  refine ⟨?_, fun _ spawned' h => ⟨spawned', h, id⟩, fun _ => id,
    fun _ _ _ => getElem?_setPhase_of_ne hstart (by simp [hphase])⟩
  intro other process hprocess
  rw [running?_setPhase, running?_eq_some]
  rw [running?_eq_some] at hprocess
  split_ifs with hstarting
  · have hne : other ≠ start.params.processId := by
      rintro rfl
      rw [hprocess] at hstarting
      cases hstarting
    rw [AList.lookup_erase_ne hne]
    exact hprocess
  · exact hprocess

lemma terminateSession_keeps (session : ℕ) : Keeps s (s.terminateSession session) where
  running := fun _ _ => id
  spawned := by
    intro other spawned' h
    rw [terminateSession, getElem?_modifySpawned, Option.map_eq_some_iff] at h
    obtain ⟨spawned, hspawned, rfl⟩ := h
    refine ⟨spawned, hspawned, ?_⟩
    split
    · exact fun _ => rfl
    · exact id
  shutdown := fun _ => id
  starts := fun _ _ _ h _ => h

lemma terminateProcess_keeps {processId : ProcessId} : Keeps s (s.terminateProcess processId) := by
  rw [terminateProcess]
  split
  · split
    · exact Keeps.same
    · exact terminateSession_keeps _
  · exact Keeps.same

lemma callShutdown_keeps (h : s.step .callShutdown = some s') : Keeps s s' := by
  simp only [step] at h
  split at h
  · rename_i hidle
    cases h
    refine ⟨fun _ _ => id, fun _ spawned' h => ⟨spawned', h, id⟩, ?_, fun _ _ _ h _ => h⟩
    intro remaining hremaining
    rw [hidle] at hremaining
    cases hremaining
  · cases h

/-! ## Steps that pass a process on -/

lemma spawnOk_allAccounted (h : s.spawnOk call = some s') (hall : s.AllAccounted) :
    s'.AllAccounted := by
  simp only [spawnOk, Effects.bind_eq_some] at h
  obtain ⟨start, hstart, h⟩ := h
  split at h
  case h_2 => cases h
  rename_i hphase
  cases h
  intro session spawned' hspawned'
  change (s.spawned ++ [_])[session]? = _ at hspawned'
  rw [List.getElem?_append] at hspawned'
  split at hspawned'
  · rcases hall session spawned' hspawned' with hdone | hrunning | hremaining |
      ⟨other, held, hheld, hsession⟩
    · exact .inl hdone
    · exact .inr (.inl hrunning)
    · exact .inr (.inr (.inl hremaining))
    · exact .inr (.inr (.inr ⟨other, held,
        getElem?_setPhase_of_ne hstart (by simp [hphase]) hheld hsession, hsession⟩))
  · -- the new process is held by the call
    rename_i hge
    rw [List.getElem?_singleton] at hspawned'
    split_ifs at hspawned' with hlast
    have hsession : session = s.spawned.length := by omega
    refine .inr (.inr (.inr ⟨call, { start with phase := .spawned session }, ?_, rfl⟩))
    simp only [setPhase, List.getElem?_modify, if_pos, hstart, Option.map_eq_map, Option.map_some,
      hsession]

/-- To drop an entry terminates its process, and revives no other one. -/
lemma dropEntry_spawned {processId : ProcessId} {dropped : SpawnedProcess}
    (h : (s.dropEntry (s.processes.lookup processId)).spawned[session]? = some dropped) :
    ∃ spawned, s.spawned[session]? = some spawned ∧
      (spawned.terminated = true → dropped.terminated = true) ∧
      ∀ process, s.running? processId = some process → process.session = session →
        dropped.terminated = true := by
  cases hlookup : s.running? processId with
  | none =>
    have hsame : s.dropEntry (s.processes.lookup processId) = s := by
      rw [dropEntry.eq_def]
      split
      · rename_i process heq
        rw [running?_eq_some.mpr heq] at hlookup
        cases hlookup
      · rfl
    rw [hsame] at h
    exact ⟨dropped, h, id, fun process hsome => absurd hsome.symm (Option.some_ne_none process)⟩
  | some process =>
    rw [running?_eq_some.mp hlookup, dropEntry, terminateSession, getElem?_modifySpawned,
      Option.map_eq_some_iff] at h
    obtain ⟨spawned, hspawned, rfl⟩ := h
    refine ⟨spawned, hspawned, ?_, ?_⟩
    · split
      · exact fun _ => rfl
      · exact id
    · intro process' heq hsession
      cases heq
      rw [if_pos hsession]

/-- The process that a call holds is in the map now, and one that it replaces is terminated. -/
lemma insert_allAccounted (h : s.insert call = some s') (hall : s.AllAccounted) :
    s'.AllAccounted := by
  simp only [insert, Effects.bind_eq_some] at h
  obtain ⟨start, hstart, h⟩ := h
  split at h
  case h_2 => cases h
  rename_i held hphase
  cases h
  have hrunning : ∀ other, (s.dropEntry (s.processes.lookup start.params.processId)).running? other =
      s.running? other := by
    intro other
    rw [dropEntry.eq_def]
    split <;> rfl
  have hstarts : (s.dropEntry (s.processes.lookup start.params.processId)).starts = s.starts := by
    rw [dropEntry.eq_def]
    split <;> rfl
  have hshutdown : (s.dropEntry (s.processes.lookup start.params.processId)).shutdown =
      s.shutdown := by
    rw [dropEntry.eq_def]
    split <;> rfl
  intro session spawned' hspawned'
  change (modifySpawned _ _ _).spawned[session]? = _ at hspawned'
  rw [getElem?_modifySpawned, Option.map_eq_some_iff] at hspawned'
  obtain ⟨dropped, hdropped, hspawned'⟩ := hspawned'
  obtain ⟨spawned, hspawned, hmono, hreplaced⟩ := dropEntry_spawned hdropped
  have hflag : spawned'.terminated = dropped.terminated := by
    rw [← hspawned']
    split <;> rfl
  rw [Accounted, hflag]
  rcases hall session spawned hspawned with hdone | ⟨processId, process, hprocess, hsession⟩ |
    ⟨remaining, hremaining, hmem⟩ | ⟨other, start', hstart', hphase'⟩
  · exact .inl (hmono hdone)
  · by_cases hid : processId = start.params.processId
    · subst hid
      exact .inl (hreplaced process hprocess hsession)
    · refine .inr (.inl ⟨processId, process, ?_, hsession⟩)
      rw [running?_setPhase, running?_modifySpawned, running?_setRunning, if_neg hid, hrunning]
      exact hprocess
  · refine .inr (.inr (.inl ⟨remaining, ?_, hmem⟩))
    exact hshutdown.trans hremaining
  · by_cases hother : call = other
    · subst hother
      rw [hstart] at hstart'
      cases hstart'
      rw [hphase] at hphase'
      cases hphase'
      refine .inr (.inl ⟨start.params.processId, startedEntry start.params held, ?_, rfl⟩)
      rw [running?_setPhase, running?_modifySpawned, running?_setRunning, if_pos rfl]
    · refine .inr (.inr (.inr ⟨other, start', ?_, hphase'⟩))
      show (List.modify (dropEntry _ _).starts call _)[other]? = some start'
      rw [List.getElem?_modify, hstarts, hstart']
      simp [hother]

/-- What `shutdown` drains remains to be terminated. -/
lemma drain_allAccounted (h : s.drain = some s') (hall : s.AllAccounted) : s'.AllAccounted := by
  rw [drain] at h
  split at h
  case h_2 => cases h
  rename_i hcalled
  cases h
  intro session spawned hspawned
  rcases hall session spawned hspawned with hdone | ⟨processId, process, hprocess, hsession⟩ |
    ⟨remaining, hremaining, -⟩ | hheld
  · exact .inl hdone
  · refine .inr (.inr (.inl ⟨_, rfl, ?_⟩))
    rw [running?_eq_some] at hprocess
    exact List.mem_filterMap.mpr ⟨⟨processId, .running process⟩,
      AList.mem_lookup_iff.mp hprocess, congrArg some hsession⟩
  · rw [hcalled] at hremaining
    cases hremaining
  · exact .inr (.inr (.inr hheld))

lemma terminateNext_allAccounted (h : s.terminateNext = some s') (hall : s.AllAccounted) :
    s'.AllAccounted := by
  rw [terminateNext] at h
  split at h
  case h_2 => cases h
  rename_i first remaining hterminating
  cases h
  intro session spawned' hspawned'
  obtain ⟨spawned, hspawned, hmono⟩ := (terminateSession_keeps first).spawned session spawned'
    hspawned'
  rcases hall session spawned hspawned with hdone | hrunning | ⟨remaining', hremaining, hmem⟩ | hheld
  · exact .inl (hmono hdone)
  · exact .inr (.inl hrunning)
  · rw [hterminating] at hremaining
    cases hremaining
    rcases List.mem_cons.mp hmem with rfl | hmem
    · refine .inl ?_
      rw [terminateSession, getElem?_modifySpawned] at hspawned'
      change Option.map _ s.spawned[session]? = _ at hspawned'
      rw [hspawned, Option.map_some, if_pos rfl] at hspawned'
      rw [← Option.some.inj hspawned']
    · exact .inr (.inr (.inl ⟨remaining, rfl, hmem⟩))
  · exact .inr (.inr (.inr hheld))

lemma TaskStep.allAccounted {spawned : SpawnedProcess} {own found : SpawnedProcess → SpawnedProcess}
    {entry' : Option RunningProcess} (ht : TaskStep s s' session spawned own found entry')
    (hall : s.AllAccounted) : s'.AllAccounted := by
  intro other process' hprocess'
  rw [ht.spawned_eq, Option.map_eq_some_iff] at hprocess'
  obtain ⟨process, hprocess, rfl⟩ := hprocess'
  have hown : ∀ inner, ((if other = session then own else id) inner).terminated =
      inner.terminated := by
    intro inner
    split
    · exact ht.advances.terminated inner
    · rfl
  rw [Accounted, hown]
  rcases hall other process hprocess with hdone | ⟨processId, entry, hentry, hsession⟩ | hremaining |
    hheld
  · refine .inl ?_
    split
    · exact ht.keepsTasks.terminated process hdone
    · exact hdone
  · by_cases hid : processId = spawned.processId
    · subst hid
      rcases ht.kept entry hentry with ⟨entry'', hentry'', hsame⟩ | hterminated
      · refine .inr (.inl ⟨spawned.processId, entry'', ?_, hsame.trans hsession⟩)
        rw [ht.running, if_pos rfl, hentry'']
      · refine .inl ?_
        rw [ownEntry_isSome hentry, hsession, if_pos (by simp)]
        exact hterminated process
    · refine .inr (.inl ⟨processId, entry, ?_, hsession⟩)
      rw [ht.running, if_neg hid, hentry]
  · rw [ht.shutdown]
    exact .inr (.inr (.inl hremaining))
  · rw [ht.starts]
    exact .inr (.inr (.inr hheld))

lemma IsTaskStep.allAccounted (h : IsTaskStep s s' session) (hall : s.AllAccounted) :
    s'.AllAccounted := by
  obtain ⟨spawned, own, found, entry', ht, -⟩ := h
  exact ht.allAccounted hall

/-! ## Runs -/

variable {action : Action}

lemma AllAccounted.step (hall : s.AllAccounted) (h : Step s action s') :
    s'.AllAccounted := by
  cases action with
  | call params =>
    cases h
    exact (callStart_keeps params).allAccounted hall
  | reserve call => exact (reserve_keeps h).allAccounted hall
  | spawnOk call => exact spawnOk_allAccounted h hall
  | spawnErr call message => exact (spawnErr_keeps h).allAccounted hall
  | insert call => exact insert_allAccounted h hall
  | removeStarting call => exact (removeStarting_keeps h).allAccounted hall
  | chunk session source chunk => exact (streamChunk_isTaskStep h).allAccounted hall
  | endOfStream session source => exact (streamEnd_isTaskStep h).allAccounted hall
  | finishStream session source => exact (finishOutputStream_isTaskStep h).allAccounted hall
  | streamMaybeEmitClosed session source =>
    exact (streamMaybeEmitClosed_isTaskStep h).allAccounted hall
  | exit session exitCode => exact (watchExit_isTaskStep h).allAccounted hall
  | exitMaybeEmitClosed session => exact (exitMaybeEmitClosed_isTaskStep h).allAccounted hall
  | retentionElapsed session => exact (retentionElapsed_isTaskStep h).allAccounted hall
  | read params =>
    cases h
    exact hall
  | terminate processId =>
    cases h
    exact terminateProcess_keeps.allAccounted hall
  | callShutdown => exact (callShutdown_keeps h).allAccounted hall
  | drain => exact drain_allAccounted h hall
  | terminateNext => exact terminateNext_allAccounted h hall

/-- The map was drained. -/
def Drained (s : LocalProcess) : Prop := ∃ remaining, s.shutdown = .terminating remaining

/-- An entry is inserted only before the map is drained. -/
def InsertsBeforeDrain (s : LocalProcess) : Action → Prop
  | .insert _ => ¬s.Drained
  | _ => True

/-- Nothing runs under any id once the map was drained. -/
def NoneRunning (s : LocalProcess) : Prop := s.Drained → ∀ processId, s.running? processId = none

/-- Only `shutdown` itself changes how far it has come. -/
lemma shutdown_eq (h : Step s action s') : s'.shutdown = s.shutdown ∨
    action = .callShutdown ∨ action = .drain ∨ action = .terminateNext := by
  have htask : ∀ {session}, IsTaskStep s s' session → s'.shutdown = s.shutdown := by
    rintro session ⟨spawned, own, found, entry', ht, -⟩
    exact ht.shutdown
  cases action with
  | call params =>
    cases h
    exact .inl rfl
  | reserve call =>
    simp only [Step, step, reserve, Effects.bind_eq_some] at h
    obtain ⟨start, -, h⟩ := h
    split at h
    · split_ifs at h
      · cases h
        exact .inl rfl
      · cases h
        exact .inl rfl
    · cases h
  | spawnOk call =>
    obtain ⟨start, process, -, -, -, rfl⟩ := (spawnOk_spawns h).exists_eq
    exact .inl rfl
  | spawnErr call message =>
    simp only [Step, step, spawnErr, Effects.bind_eq_some] at h
    obtain ⟨start, -, h⟩ := h
    split at h
    · cases h
      exact .inl rfl
    · cases h
  | insert call =>
    simp only [Step, step, insert, Effects.bind_eq_some] at h
    obtain ⟨start, -, h⟩ := h
    split at h
    · cases h
      refine .inl ?_
      show (dropEntry _ _).shutdown = s.shutdown
      rw [dropEntry.eq_def]
      split <;> rfl
    · cases h
  | removeStarting call =>
    simp only [Step, step, removeStarting, Option.bind_eq_bind,
      Option.bind_eq_some_iff] at h
    obtain ⟨start, -, h⟩ := h
    split at h
    · cases h
      exact .inl rfl
    · cases h
  | chunk session source chunk => exact .inl (htask (streamChunk_isTaskStep h))
  | endOfStream session source => exact .inl (htask (streamEnd_isTaskStep h))
  | finishStream session source => exact .inl (htask (finishOutputStream_isTaskStep h))
  | streamMaybeEmitClosed session source => exact .inl (htask (streamMaybeEmitClosed_isTaskStep h))
  | exit session exitCode => exact .inl (htask (watchExit_isTaskStep h))
  | exitMaybeEmitClosed session => exact .inl (htask (exitMaybeEmitClosed_isTaskStep h))
  | retentionElapsed session => exact .inl (htask (retentionElapsed_isTaskStep h))
  | read params =>
    cases h
    exact .inl rfl
  | terminate processId =>
    cases h
    refine .inl ?_
    rw [terminateProcess]
    split
    · split <;> rfl
    · rfl
  | callShutdown => exact .inr (.inl rfl)
  | drain => exact .inr (.inr (.inl rfl))
  | terminateNext => exact .inr (.inr (.inr rfl))

lemma drained_of_step (h : Step s action s') (hdrained : s'.Drained) :
    s.Drained ∨ ∀ processId, s'.running? processId = none := by
  obtain ⟨remaining, hremaining⟩ := hdrained
  rcases shutdown_eq h with heq | rfl | rfl | rfl
  · exact .inl ⟨remaining, heq.symm.trans hremaining⟩
  · simp only [Step, step] at h
    split at h
    · cases h
      cases hremaining
    · cases h
  · simp only [Step, step, drain] at h
    split at h
    · cases h
      exact .inr fun _ => rfl
    · cases h
  · simp only [Step, step, terminateNext] at h
    split at h
    · rename_i first rest hterminating
      exact .inl ⟨_, hterminating⟩
    · cases h

lemma NoneRunning.step (hnone : s.NoneRunning)
    (hok : s.InsertsBeforeDrain action) (h : Step s action s') : s'.NoneRunning := by
  intro hdrained processId
  rcases drained_of_step h hdrained with hbefore | hempty
  · have hrunning := hnone hbefore
    rw [Option.eq_none_iff_forall_not_mem]
    intro process' hprocess'
    rcases step_cases h with hq | ⟨session, -, spawned, own, found, entry', ht, -⟩ | ⟨call, hs⟩ |
      ⟨call, start, session, rfl, hi⟩
    · have hprocess := hq.running _ _ hprocess'
      rw [hrunning] at hprocess
      cases hprocess
    · obtain ⟨process, hprocess, -⟩ := ht.running_session hprocess'
      rw [hrunning] at hprocess
      cases hprocess
    · change s'.running? processId = _ at hprocess'
      rw [hs.running, hrunning] at hprocess'
      cases hprocess'
    · exact hok hbefore
  · exact hempty processId

/-- The invariant that the runs without late inserts keep. -/
structure ShutdownInv (s : LocalProcess) : Prop where
  allAccounted : s.AllAccounted
  noneRunning : s.NoneRunning

lemma shutdownInv_new : ShutdownInv new where
  allAccounted := fun _ _ h => nomatch h
  noneRunning := fun _ _ => rfl

lemma ShutdownInv.step (hinv : ShutdownInv s) (hok : s.InsertsBeforeDrain action)
    (h : Step s action s') : ShutdownInv s' :=
  ⟨hinv.allAccounted.step h, hinv.noneRunning.step hok h⟩

/-- In every run in which no entry is inserted after the map was drained: once `shutdown` and all start
calls have returned, every process that was spawned is terminated, and none is registered as
running. -/
theorem shutdown_terminates_all {ts : List (Transition LocalProcess Action)}
    (run : Run Step new ts s) (hok : ∀ t ∈ ts, t.before.InsertsBeforeDrain t.label)
    (hshutdown : s.shutdown = .terminating [])
    (hstarts : ∀ start ∈ s.starts, ∃ result, start.phase = .returned result) :
    (∀ spawned ∈ s.spawned, spawned.terminated = true) ∧ ∀ processId, s.running? processId = none := by
  have hinv := (run.invariant InsertsBeforeDrain hok shutdownInv_new
    fun s action s' hinv haction hstep => hinv.step haction hstep).1
  have hnone := hinv.noneRunning ⟨[], hshutdown⟩
  refine ⟨?_, hnone⟩
  intro spawned hspawned
  obtain ⟨session, hsession⟩ := List.mem_iff_getElem?.mp hspawned
  rcases hinv.allAccounted session spawned hsession with hdone | ⟨processId, process, hprocess, -⟩ |
    ⟨remaining, hremaining, hmem⟩ | ⟨call, start, hstart, hphase⟩
  · exact hdone
  · rw [hnone] at hprocess
    cases hprocess
  · rw [hshutdown] at hremaining
    cases hremaining
    cases hmem
  · obtain ⟨result, hresult⟩ := hstarts start (List.mem_of_getElem? hstart)
    rw [hphase] at hresult
    cases hresult

/-- A process whose start call returns before the map is drained is terminated. -/
theorem shutdown_terminates_all_early :
    ∃ ts s, Run Step new ts s ∧ s.spawned.length = 1 ∧
      (∀ spawned ∈ s.spawned, spawned.terminated = true) ∧
      ∀ processId, s.running? processId = none := by
  have hnew : RunWhere Step InsertsBeforeDrain new [] new := .nil
  have hcalled := next hnew (.call (sampleParams "x".toList)) trivial rfl
  have hshutdown := next (next hcalled (.reserve 0) trivial rfl) .callShutdown
    trivial rfl
  have hspawned := next hshutdown (.spawnOk 0) trivial rfl
  have hinserted := next hspawned (.insert 0) (fun ⟨_, h⟩ => nomatch h) rfl
  have hdrained := next (next hinserted .drain trivial rfl) .terminateNext
    trivial rfl
  exact ⟨_, _, hdrained.1, rfl, shutdown_terminates_all hdrained.1 hdrained.2 rfl (by
    intro start hstart
    rw [List.mem_singleton.mp hstart]
    exact ⟨_, rfl⟩)⟩

/-- The map is drained while the process is being spawned: its entry is inserted afterwards, and stays
when `shutdown` and the start call have returned. -/
theorem shutdown_leaves_running :
    ∃ ts s, Run Step new ts s ∧ s.shutdown = .terminating [] ∧
      (∀ start ∈ s.starts, start.phase = .returned (.ok "x".toList)) ∧
      (∃ process, s.running? "x".toList = some process) ∧
      ∃ spawned ∈ s.spawned, spawned.terminated = false := by
  have hcalled := Run.next (Run.nil : Run Step new _ _) (.call (sampleParams "x".toList)) rfl
  have hreserved := Run.next hcalled (.reserve 0) rfl
  have hdrained := Run.next (Run.next hreserved .callShutdown rfl) .drain rfl
  have hinserted := Run.next (Run.next hdrained (.spawnOk 0) rfl) (.insert 0) rfl
  refine ⟨_, _, hinserted, rfl, ?_, ⟨_, rfl⟩, _, List.mem_singleton_self _, rfl⟩
  intro start hstart
  rw [List.mem_singleton.mp hstart]
  rfl

end LocalProcess

end Supercodex.ExecServer
