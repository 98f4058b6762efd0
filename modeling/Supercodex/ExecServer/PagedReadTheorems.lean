import Supercodex.Library.Effects
import Supercodex.ExecServer.ProcessRunTheorems

/-!
# Paged reads (`exec-server/src/local_process.rs`)

A client reads the output of a process page by page, and passes as `after_seq` of each call what comes
before the `next_seq` of the last response. Its tasks meanwhile record on the process, and old output is
evicted. Behind the cursor is only what was returned, or evicted while it was still ahead: the bytes from
it on were more than the limit.
-/

namespace Supercodex.ExecServer

open Retention RunningProcess

namespace RunningProcess

/-- A page: what it takes stands first in the output, and it takes something if there is anything. The
next number is that after its last chunk. -/
structure Page (output chunks : List ProcessOutputChunk) (nextSeq : ℕ) (page : List ProcessOutputChunk × ℕ)
    (taken : List ProcessOutputChunk) : Prop where
  chunks_eq : page.1 = chunks ++ taken
  isPrefix : taken <+: output
  nextSeq_nil : taken = [] → page.2 = nextSeq
  output_nil : taken = [] → chunks = [] → output = []
  nextSeq_last : ∀ last ∈ taken.getLast?, page.2 = last.seq + 1

/-- The loop of `exec_read` reads a page. -/
lemma readChunks_page (maxBytes : ℕ) (output chunks : List ProcessOutputChunk) (totalBytes nextSeq : ℕ) :
    ∃ taken, Page output chunks nextSeq (readChunks maxBytes output chunks totalBytes nextSeq) taken := by
  induction output generalizing chunks totalBytes nextSeq with
  | nil =>
    exact ⟨[], (List.append_nil _).symm, List.prefix_rfl, fun _ => rfl, fun _ _ => rfl, fun _ h => (nomatch h)⟩
  | cons retained output ih =>
    rw [readChunks]
    split_ifs with hfull hlast
    · refine ⟨[], (List.append_nil _).symm, List.nil_prefix, fun _ => rfl, fun _ hchunks => ?_, fun _ h => (nomatch h)⟩
      rw [hchunks] at hfull
      simp at hfull
    · refine ⟨[retained], rfl, ⟨output, rfl⟩, fun h => (nomatch h), fun h => (nomatch h), fun last h => ?_⟩
      cases h
      rfl
    · obtain ⟨taken, htaken⟩ := ih (chunks ++ [retained]) (totalBytes + retained.chunk.length) (retained.seq + 1)
      refine ⟨retained :: taken, ?_, (List.prefix_cons_inj retained).mpr htaken.isPrefix, fun h => (nomatch h),
        fun h => (nomatch h), fun last h => ?_⟩
      · rw [htaken.chunks_eq, List.append_assoc]
        rfl
      · rcases List.eq_nil_or_concat taken with rfl | ⟨before, other, rfl⟩
        · cases h
          exact htaken.nextSeq_nil rfl
        · apply htaken.nextSeq_last
          rw [List.concat_eq_append, List.getLast?_concat]
          rwa [List.concat_eq_append, ← List.cons_append, List.getLast?_concat] at h

end RunningProcess

/-! ## A client that reads page by page -/

/-- What is done to a running process under the lock of the map. -/
inductive EntryAction where
  | output (stream : ExecOutputStream) (chunk : List UInt8)
  | exit (exitCode : ℤ)
  | finishStream
  | maybeEmitClosed
  | read (maxBytes : Option ℕ)

/-- The output that an action brings. -/
def EntryAction.output? : EntryAction → Option (ExecOutputStream × List UInt8)
  | .output stream chunk => some (stream, chunk)
  | _ => none

/-- The running process after an action. -/
def RunningProcess.after (process : RunningProcess) : EntryAction → RunningProcess
  | .output stream chunk => (process.pushOutput stream chunk).1
  | .exit exitCode => (process.recordExit exitCode).1
  | .finishStream => process.finishOutputStream
  | .maybeEmitClosed => (process.maybeEmitClosed.map Prod.fst).getD process
  | .read _ => process

namespace LocalProcess

variable {s s' : LocalProcess} {session : ℕ} {source : OutputSource}

/-- The running processes of a map come from those of another by at most one action each. -/
def EntriesFrom (s s' : LocalProcess) : Prop :=
  ∀ processId process', s'.running? processId = some process' → ∃ process,
    s.running? processId = some process ∧ (process' = process ∨ ∃ action, process' = process.after action)

lemma EntriesFrom.of_eq (h : ∀ processId process, s'.running? processId = some process →
    s.running? processId = some process) : EntriesFrom s s' :=
  fun processId process hprocess => ⟨process, h processId process hprocess, .inl rfl⟩

lemma EntriesFrom.of_after {processId : ProcessId} {process : RunningProcess} (action : EntryAction)
    (hrunning : s.running? processId = some process) (hafter : ∀ other, s'.running? other =
      if other = processId then some (process.after action) else s.running? other) : EntriesFrom s s' := by
  intro other process' hprocess'
  rw [hafter] at hprocess'
  split_ifs at hprocess' with heq
  · cases hprocess'
    exact ⟨process, heq ▸ hrunning, .inr ⟨action, rfl⟩⟩
  · exact ⟨process', hprocess', .inl rfl⟩

lemma streamChunk_entries {chunk : List UInt8} (h : s.streamChunk session source chunk = some s') :
    EntriesFrom s s' := by
  simp only [streamChunk, Effects.bind_eq_some] at h
  obtain ⟨spawned, -, h⟩ := h
  split at h
  case h_2 => cases h
  split at h
  · cases h
    exact .of_eq fun _ _ => id
  rename_i process hrunning
  cases h
  exact .of_after (.output (spawned.stream source) chunk) hrunning fun other => by
    rw [publish, running?_modifySpawned, running?_setRunning]
    rfl

lemma finishOutputStream_entries (h : s.finishOutputStream session source = some s') : EntriesFrom s s' := by
  simp only [finishOutputStream, Effects.bind_eq_some] at h
  obtain ⟨spawned, -, h⟩ := h
  split at h
  case h_2 => cases h
  split at h
  · cases h
    exact .of_eq fun _ _ => id
  rename_i process hrunning
  cases h
  exact .of_after .finishStream hrunning fun other => by
    rw [running?_modifySpawned, running?_setRunning]
    rfl

lemma maybeEmitClosed_entries (processId : ProcessId) : EntriesFrom s (s.maybeEmitClosed processId) := by
  rcases s.maybeEmitClosed_cases processId with hnone | ⟨process, process', event, hrunning, hemit, heq⟩
  · rw [hnone]
    exact .of_eq fun _ _ => id
  · refine .of_after .maybeEmitClosed hrunning fun other => ?_
    rw [heq, publish, running?_modifySpawned, running?_setRunning, after, hemit]
    rfl

lemma watchExit_entries {exitCode : ℤ} (h : s.watchExit session exitCode = some s') : EntriesFrom s s' := by
  simp only [watchExit, Effects.bind_eq_some] at h
  obtain ⟨spawned, -, h⟩ := h
  split at h
  case h_2 => cases h
  split at h
  · cases h
    exact .of_eq fun _ _ => id
  rename_i process hrunning
  cases h
  exact .of_after (.exit exitCode) hrunning fun other => by
    rw [publish, running?_modifySpawned, running?_setRunning]
    rfl

lemma retentionElapsed_entries (h : s.retentionElapsed session = some s') : EntriesFrom s s' := by
  simp only [retentionElapsed, Effects.bind_eq_some] at h
  obtain ⟨spawned, -, h⟩ := h
  split at h
  case h_2 => cases h
  split at h
  · cases h
    exact .of_eq fun _ _ => id
  split_ifs at h
  · cases h
    refine .of_eq fun other process' hprocess' => ?_
    rw [dropEntry, terminateSession, running?_modifySpawned] at hprocess'
    have herased := (running?_erase other).symm.trans hprocess'
    split_ifs at herased
    exact herased
  · cases h
    exact .of_eq fun _ _ => id

/-- Whatever happens in the map, short of a start, does at most one of the actions to a process. -/
theorem step_entries {action : Action} (h : Step s action s') (hinsert : ∀ call, action ≠ .insert call) :
    EntriesFrom s s' := by
  cases action with
  | chunk session source chunk => exact streamChunk_entries h
  | finishStream session source => exact finishOutputStream_entries h
  | exit session exitCode => exact watchExit_entries h
  | retentionElapsed session => exact retentionElapsed_entries h
  | insert call => exact absurd rfl (hinsert call)
  | endOfStream session source =>
    simp only [Step, step, streamEnd, Effects.bind_eq_some] at h
    obtain ⟨spawned, -, h⟩ := h
    split at h
    · cases h
      exact .of_eq fun _ _ => id
    · cases h
  | streamMaybeEmitClosed session source =>
    simp only [Step, step, streamMaybeEmitClosed, Effects.bind_eq_some] at h
    obtain ⟨spawned, -, h⟩ := h
    split at h
    · cases h
      exact maybeEmitClosed_entries spawned.processId
    · cases h
  | exitMaybeEmitClosed session =>
    simp only [Step, step, exitMaybeEmitClosed, Effects.bind_eq_some] at h
    obtain ⟨spawned, -, h⟩ := h
    split at h
    · cases h
      exact maybeEmitClosed_entries spawned.processId
    · cases h
  | spawnOk call => exact .of_eq fun processId process hprocess => (spawnOk_spawns h).running processId ▸ hprocess
  | _ =>
    rcases step_cases h with hquiet | ⟨_, htask, _⟩ | ⟨call, hspawns⟩ | ⟨_, _, _, heq, _⟩
    · exact .of_eq hquiet.running
    · cases htask
    · exact .of_eq fun processId process hprocess => hspawns.running processId ▸ hprocess
    · cases heq

/-- A call reads the running process that it names, and fails if there is none. -/
theorem execRead_eq_ok_iff {params : ReadParams} {response : ReadResponse} : s.execRead params = .ok response ↔
    ∃ process, s.running? params.processId = some process ∧ process.read params = response := by
  rw [execRead, running?]
  rcases s.processes.lookup params.processId with _ | _ | process <;> simp

end LocalProcess

/-- A running process with a client: all output so far, what was returned of it, and the `next_seq` of the
last response. -/
structure PagedReader where
  processId : ProcessId
  process : RunningProcess
  produced : List ProcessOutputChunk
  returned : List ProcessOutputChunk
  nextSeq : ℕ

namespace PagedReader

/-- Nothing is read yet, so that the first call passes 0. -/
def start (processId : ProcessId) (process : RunningProcess) : PagedReader where
  processId := processId
  process := process
  produced := []
  returned := []
  nextSeq := 1

/-- The response to the next call. -/
def response (r : PagedReader) (maxBytes : Option ℕ) : ReadResponse :=
  r.process.read ⟨r.processId, some (r.nextSeq - 1), maxBytes⟩

/-- The client and the process after an action. -/
def step (r : PagedReader) (action : EntryAction) : PagedReader :=
  match action with
  | .output stream chunk =>
    { r with
      process := r.process.after action
      produced := r.produced ++ [⟨r.process.nextSeq, stream, chunk⟩] }
  | .read maxBytes =>
    { r with
      returned := r.returned ++ (r.response maxBytes).chunks
      nextSeq := (r.response maxBytes).nextSeq }
  | _ => { r with process := r.process.after action }

/-- A chunk that the client has not come to, and that is past the limit: with all that was produced after
it, it is too large to be retained. -/
def EvictedUnread (r : PagedReader) (chunk : ProcessOutputChunk) : Prop :=
  r.nextSeq ≤ chunk.seq ∧ ∃ before later, r.produced = before ++ chunk :: later ∧
    retainedOutputBytesPerProcess < RunningProcess.totalBytes (chunk :: later)

/-- The invariant of the client: output is numbered upwards, what is retained of it is the longest suffix
within the limit, and each chunk behind the cursor was returned or lost. -/
structure Keeps (lost : ProcessOutputChunk → Prop) (r : PagedReader) : Prop where
  longest : LongestSuffix RunningProcess.WithinLimit r.produced r.process.output
  retainedBytes : r.process.retainedBytes = RunningProcess.totalBytes r.process.output
  increasing : r.produced.Pairwise (·.seq < ·.seq)
  produced_lt : ∀ chunk ∈ r.produced, chunk.seq < r.process.nextSeq
  nextSeq_pos : 1 ≤ r.nextSeq
  nextSeq_le : r.nextSeq ≤ r.process.nextSeq
  returned_produced : ∀ chunk ∈ r.returned, chunk ∈ r.produced
  returned_lt : ∀ chunk ∈ r.returned, chunk.seq < r.nextSeq
  returned_increasing : r.returned.Pairwise (·.seq < ·.seq)
  behind : ∀ chunk ∈ r.produced, chunk.seq < r.nextSeq → chunk ∈ r.returned ∨ lost chunk

variable {r : PagedReader} {lost lost' : ProcessOutputChunk → Prop}

lemma start_keeps (processId : ProcessId) (params : ExecParams) (session : ℕ) :
    (start processId (LocalProcess.startedEntry params session)).Keeps lost where
  longest := .of_holds (Nat.zero_le _)
  retainedBytes := rfl
  increasing := List.Pairwise.nil
  produced_lt := fun _ h => nomatch h
  nextSeq_pos := le_rfl
  nextSeq_le := le_rfl
  returned_produced := fun _ h => nomatch h
  returned_lt := fun _ h => nomatch h
  returned_increasing := List.Pairwise.nil
  behind := fun _ h => nomatch h

section

variable (h : r.Keeps lost)
include h

lemma Keeps.imp (hlost : ∀ chunk, lost chunk → lost' chunk) : r.Keeps lost' :=
  { h with behind := fun chunk hchunk hlt => (h.behind chunk hchunk hlt).imp_right (hlost chunk) }

/-- What is ahead of the cursor is retained, as long as the limit lets it. -/
lemma Keeps.ahead {chunk : ProcessOutputChunk} (hchunk : chunk ∈ r.produced)
    (hle : r.nextSeq ≤ chunk.seq) : chunk ∈ r.process.output ∨ r.EvictedUnread chunk := by
  obtain ⟨before, later, hproduced⟩ := List.append_of_mem hchunk
  by_cases hwithin : RunningProcess.WithinLimit (chunk :: later)
  · have hsuffix := h.longest.longest _ ⟨before, hproduced.symm⟩ hwithin
    exact .inl (hsuffix.subset List.mem_cons_self)
  · exact .inr ⟨hle, before, later, hproduced, Nat.not_le.mp hwithin⟩

/-- Steps that keep the output do not concern the client. -/
lemma Keeps.of_output_eq {process : RunningProcess}
    (houtput : process.output = r.process.output) (hbytes : process.retainedBytes = r.process.retainedBytes)
    (hnextSeq : r.process.nextSeq ≤ process.nextSeq) : Keeps lost { r with process := process } :=
  { h with
    longest := houtput ▸ h.longest
    retainedBytes := by rw [houtput, hbytes, h.retainedBytes]
    produced_lt := fun chunk hchunk => (h.produced_lt chunk hchunk).trans_le hnextSeq
    nextSeq_le := h.nextSeq_le.trans hnextSeq }

lemma Keeps.output (stream : ExecOutputStream) (chunk : List UInt8) :
    (r.step (.output stream chunk)).Keeps lost := by
  let retained : ProcessOutputChunk := ⟨r.process.nextSeq, stream, chunk⟩
  have hbytes : r.process.retainedBytes + chunk.length =
      totalBytes (r.process.output ++ [retained]) := by
    rw [h.retainedBytes, totalBytes_concat]
  have hshorter : ∀ output, RunningProcess.WithinLimit (output ++ [retained]) →
      RunningProcess.WithinLimit output := by
    intro output houtput
    rw [RunningProcess.WithinLimit, totalBytes_concat] at houtput
    exact (Nat.le_add_right _ _).trans houtput
  obtain ⟨hkept, hcount⟩ := evict_longest hbytes
  refine ⟨h.longest.append hshorter hkept, hcount, ?_, fun c hc => ?_, h.nextSeq_pos,
    h.nextSeq_le.trans (Nat.le_succ _), fun c hc => List.mem_append_left _ (h.returned_produced c hc),
    h.returned_lt, h.returned_increasing, fun c hc hlt => ?_⟩
  · refine List.pairwise_append.mpr ⟨h.increasing, List.pairwise_singleton _ _, fun c hc other hother => ?_⟩
    rw [List.mem_singleton.mp hother]
    exact h.produced_lt c hc
  · rcases List.mem_append.mp hc with hc | hc
    · exact (h.produced_lt c hc).trans (Nat.lt_succ_self _)
    · rw [List.mem_singleton.mp hc]
      exact Nat.lt_succ_self _
  · rcases List.mem_append.mp hc with hc | hc
    · exact h.behind c hc hlt
    · -- the new chunk is ahead of the cursor
      rw [List.mem_singleton.mp hc] at hlt
      exact absurd hlt (Nat.not_lt.mpr h.nextSeq_le)

lemma Keeps.read (hunread : ∀ chunk, r.EvictedUnread chunk → lost chunk)
    (maxBytes : Option ℕ) : (r.step (.read maxBytes)).Keeps lost := by
  let output := r.process.output.filter fun chunk => chunk.seq > r.nextSeq - 1
  obtain ⟨taken, hpage⟩ := readChunks_page (maxBytes.getD (2 ^ 64 - 1)) output [] 0 r.process.nextSeq
  have hchunks : (r.response maxBytes).chunks = taken := hpage.chunks_eq
  have hpos := h.nextSeq_pos
  have hretained : ∀ chunk ∈ r.process.output, chunk ∈ r.produced := fun _ hchunk =>
    h.longest.suffix.subset hchunk
  -- a page is in order, from the cursor on
  have htaken : ∀ chunk ∈ taken, chunk ∈ r.process.output ∧ r.nextSeq ≤ chunk.seq := by
    intro chunk hchunk
    obtain ⟨hmem, hseq⟩ := List.mem_filter.mp (hpage.isPrefix.subset hchunk)
    have := of_decide_eq_true hseq
    exact ⟨hmem, by omega⟩
  have hsorted : output.Pairwise (·.seq < ·.seq) := (h.increasing.sublist h.longest.suffix.sublist).filter _
  have hnextSeq : r.nextSeq ≤ (r.response maxBytes).nextSeq ∧
      (r.response maxBytes).nextSeq ≤ r.process.nextSeq ∧
      (∀ chunk ∈ taken, chunk.seq < (r.response maxBytes).nextSeq) ∧
      ∀ chunk ∈ output, chunk.seq < (r.response maxBytes).nextSeq → chunk ∈ taken := by
    rcases List.eq_nil_or_concat taken with rfl | ⟨before, last, rfl⟩
    · have heq : (r.response maxBytes).nextSeq = r.process.nextSeq := hpage.nextSeq_nil rfl
      rw [heq, hpage.output_nil rfl rfl]
      exact ⟨h.nextSeq_le, le_rfl, fun _ hmem => (nomatch hmem), fun _ hmem => (nomatch hmem)⟩
    · rw [List.concat_eq_append] at *
      have heq : (r.response maxBytes).nextSeq = last.seq + 1 := hpage.nextSeq_last last List.getLast?_concat
      obtain ⟨hlast, hle⟩ := htaken last (List.mem_append_right _ List.mem_cons_self)
      obtain ⟨rest, hrest⟩ := hpage.isPrefix
      rw [← hrest, List.pairwise_append, List.pairwise_append] at hsorted
      rw [heq]
      refine ⟨hle.trans (Nat.le_succ _), h.produced_lt last (hretained last hlast), fun chunk hchunk => ?_,
        fun chunk hchunk hlt => ?_⟩
      · rcases List.mem_append.mp hchunk with hchunk | hchunk
        · exact (hsorted.1.2.2 chunk hchunk last List.mem_cons_self).trans (Nat.lt_succ_self _)
        · rw [List.mem_singleton.mp hchunk]
          exact Nat.lt_succ_self _
      · rw [← hrest] at hchunk
        refine (List.mem_append.mp hchunk).resolve_right fun hafter => ?_
        have := hsorted.2.2 last (List.mem_append_right _ List.mem_cons_self) chunk hafter
        omega
  obtain ⟨hcursor, hcounter, hbefore, hall⟩ := hnextSeq
  refine { h with
    nextSeq_pos := hpos.trans hcursor
    nextSeq_le := hcounter
    returned_produced := fun chunk hchunk => ?_
    returned_lt := fun chunk hchunk => ?_
    returned_increasing := ?_
    behind := fun chunk hchunk hlt => ?_ }
  · rcases List.mem_append.mp hchunk with hchunk | hchunk
    · exact h.returned_produced chunk hchunk
    · rw [hchunks] at hchunk
      exact hretained chunk (htaken chunk hchunk).1
  · rcases List.mem_append.mp hchunk with hchunk | hchunk
    · exact (h.returned_lt chunk hchunk).trans_le hcursor
    · rw [hchunks] at hchunk
      exact hbefore chunk hchunk
  · show (r.returned ++ (r.response maxBytes).chunks).Pairwise _
    rw [hchunks, List.pairwise_append]
    exact ⟨h.returned_increasing, hsorted.sublist hpage.isPrefix.sublist, fun chunk hchunk other hother =>
      (h.returned_lt chunk hchunk).trans_le (htaken other hother).2⟩
  · rcases Nat.lt_or_ge chunk.seq r.nextSeq with hbehind | hahead
    · exact (h.behind chunk hchunk hbehind).imp_left (List.mem_append_left _)
    rcases h.ahead hchunk hahead with hmem | hmem
    · -- all that is retained from the old cursor up to the new one is on the page
      refine .inl (List.mem_append_right _ ?_)
      rw [hchunks]
      refine hall chunk (List.mem_filter.mpr ⟨hmem, decide_eq_true ?_⟩) hlt
      omega
    · exact .inr (hunread chunk hmem)

lemma Keeps.step (hunread : ∀ chunk, r.EvictedUnread chunk → lost chunk)
    (action : EntryAction) : (r.step action).Keeps lost := by
  cases action with
  | output stream chunk => exact h.output stream chunk
  | read maxBytes => exact h.read hunread maxBytes
  | exit exitCode => exact h.of_output_eq rfl rfl (Nat.le_succ _)
  | finishStream =>
    apply h.of_output_eq <;> rw [after, finishOutputStream] <;> split_ifs
    all_goals rfl
  | maybeEmitClosed =>
    apply h.of_output_eq <;> rw [after, maybeEmitClosed] <;> split_ifs
    all_goals first | rfl | exact Nat.le_succ _

end

/-- The client after some actions, from the start of the process on. -/
def run (processId : ProcessId) (params : ExecParams) (session : ℕ) (actions : List EntryAction) : PagedReader :=
  actions.foldl PagedReader.step (start processId (LocalProcess.startedEntry params session))

variable (processId : ProcessId) (params : ExecParams) (session : ℕ) (actions : List EntryAction)

/-- The chunk was evicted unread after some of the actions. -/
def LostDuring (chunk : ProcessOutputChunk) : Prop :=
  ∃ earlier, earlier <+: actions ∧ (run processId params session earlier).EvictedUnread chunk

lemma run_keeps :
    (run processId params session actions).Keeps (LostDuring processId params session actions) := by
  induction actions using List.reverseRecOn with
  | nil => exact start_keeps processId params session
  | append_singleton actions action ih =>
    rw [run, List.foldl_append]
    refine (ih.imp fun chunk => ?_).step (fun chunk hchunk => ?_) action
    · rintro ⟨earlier, hearlier, hchunk⟩
      exact ⟨earlier, hearlier.trans (List.prefix_append _ _), hchunk⟩
    · exact ⟨actions, List.prefix_append _ _, hchunk⟩

lemma run_produced :
    (run processId params session actions).produced.map (fun chunk => (chunk.stream, chunk.chunk)) =
      actions.filterMap EntryAction.output? := by
  induction actions using List.reverseRecOn with
  | nil => rfl
  | append_singleton actions action ih =>
    rw [List.filterMap_append, ← ih, run, List.foldl_append]
    cases action <;> simp [step, run, EntryAction.output?]

end PagedReader

/-- Pages that follow one another return the output in order and lose nothing. Of the chunks that arrived,
the longest suffix within the limit is retained; each chunk was returned, or was past the limit before the
client came to it, or is retained beyond the last response. -/
theorem paged_reads_lose_nothing (processId : ProcessId) (params : ExecParams) (session : ℕ)
    (actions : List EntryAction) :
    let r := PagedReader.run processId params session actions
    r.produced.map (fun chunk => (chunk.stream, chunk.chunk)) = actions.filterMap EntryAction.output? ∧
      LongestSuffix RunningProcess.WithinLimit r.produced r.process.output ∧
      r.returned.Pairwise (·.seq < ·.seq) ∧ (∀ chunk ∈ r.returned, chunk ∈ r.produced) ∧
      ∀ chunk ∈ r.produced, chunk ∈ r.returned ∨
        PagedReader.LostDuring processId params session actions chunk ∨
          r.nextSeq ≤ chunk.seq ∧ chunk ∈ r.process.output := by
  intro r
  have hkeeps := PagedReader.run_keeps processId params session actions
  refine ⟨PagedReader.run_produced processId params session actions, hkeeps.longest,
    hkeeps.returned_increasing, hkeeps.returned_produced, fun chunk hchunk => ?_⟩
  rcases Nat.lt_or_ge chunk.seq r.nextSeq with hbehind | hahead
  · exact (hkeeps.behind chunk hchunk hbehind).imp_right .inl
  · rcases hkeeps.ahead hchunk hahead with hmem | hmem
    · exact .inr (.inr ⟨hahead, hmem⟩)
    · exact .inr (.inl ⟨actions, List.prefix_rfl, hmem⟩)

end Supercodex.ExecServer
