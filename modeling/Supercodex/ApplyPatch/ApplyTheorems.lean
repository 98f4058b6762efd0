import Supercodex.ApplyPatch.Apply

/-!
# What applying a patch does to the file tree

Every operation edits the tree at single places. `Hunk.Safe` says which edits a hunk may make;
an invariant that they keep is kept by the whole run, also by one that fails halfway. A hunk that
is applied changes the contents of its own paths and nothing else.
-/

namespace Supercodex.ApplyPatch

open Text Supercodex.Path Effects Keeps

variable {fault : Faults} {home : Option AbsolutePath} {cwd : AbsolutePath}

/-! ## Single operations -/

lemma checkFault_bind_cases {α : Type} (fault : Faults) (op : FsOp) (p : AbsolutePath) (m : Fs α)
    (s : FsState) :
    (checkFault fault op p >>= fun _ => m) s = m s ∨
      ∃ kind, (checkFault fault op p >>= fun _ => m) s = .error kind s := by
  unfold checkFault
  cases fault op p with
  | none => exact Or.inl rfl
  | some kind => exact Or.inr ⟨kind, rfl⟩

/-- `writeFile` sets a file or leaves the state as it is. -/
lemma writeFile_cases (fault : Faults) (p : AbsolutePath) (c : Text) (s : FsState) :
    (∃ h : s.tree.Settable p,
      writeFile fault p c s = .ok () (s.set p (some (.file (.text c))) h)) ∨
    ∃ kind, writeFile fault p c s = .error kind s := by
  unfold writeFile
  rcases checkFault_bind_cases fault .write p _ s with h | h
  · rw [h, run_get_bind]
    by_cases hset : s.tree.Settable p
    · refine Or.inl ⟨hset, ?_⟩
      rw [dif_pos hset]
      rfl
    · refine Or.inr ⟨if s.tree.isDir p then .isADirectory else lookupError s.tree p, ?_⟩
      rw [dif_neg hset]
      rfl
  · exact Or.inr h

variable {p : AbsolutePath} {s s' : FsState} {c : Text}

lemma writeFile_eq_ok {u : Unit} (h : writeFile fault p c s = .ok u s') :
    ∃ hset : s.tree.Settable p, s' = s.set p (some (.file (.text c))) hset := by
  rcases writeFile_cases fault p c s with ⟨hset, h'⟩ | ⟨kind, h'⟩
  · rw [h'] at h
    cases h
    exact ⟨hset, rfl⟩
  · rw [h'] at h
    cases h

lemma writeFile_eq_error {kind : IoErrorKind}
    (h : writeFile fault p c s = .error kind s') : s' = s := by
  rcases writeFile_cases fault p c s with ⟨hset, h'⟩ | ⟨kind, h'⟩
  · rw [h'] at h
    cases h
  · rw [h'] at h
    cases h
    rfl

variable {I : FsState → Prop}

lemma writeFile_keeps (hI : ∀ s h, I s → I (s.set p (some (.file (.text c))) h)) :
    Keeps I (writeFile fault p c) := by
  intro s hs
  unfold final
  rcases writeFile_cases fault p c s with ⟨hset, h⟩ | ⟨kind, h⟩
  · rw [h]
    exact hI s hset hs
  · rw [h]
    exact hs

/-- `removeFile` removes a file or leaves the state as it is. -/
lemma removeFile_cases (fault : Faults) (p : AbsolutePath) (s : FsState) :
    (∃ h : s.tree.Settable p, removeFile fault p s = .ok () (s.set p none h)) ∨
    ∃ kind, removeFile fault p s = .error kind s := by
  unfold removeFile
  rcases checkFault_bind_cases fault .getMetadata p _ s with h | h
  · rw [h, run_get_bind]
    cases s.tree.node p with
    | none => exact Or.inr ⟨_, rfl⟩
    | some n =>
      cases n with
      | dir => exact Or.inr ⟨_, rfl⟩
      | file c =>
        dsimp only
        rcases checkFault_bind_cases fault .remove p _ s with h | h
        · rw [h]
          by_cases hset : s.tree.Settable p
          · refine Or.inl ⟨hset, ?_⟩
            rw [dif_pos hset]
            rfl
          · refine Or.inr ⟨.notFound, ?_⟩
            rw [dif_neg hset]
            rfl
        · exact Or.inr h
  · exact Or.inr h

lemma removeFile_eq_ok {u : Unit} (h : removeFile fault p s = .ok u s') :
    ∃ hset : s.tree.Settable p, s' = s.set p none hset := by
  rcases removeFile_cases fault p s with ⟨hset, h'⟩ | ⟨kind, h'⟩
  · rw [h'] at h
    cases h
    exact ⟨hset, rfl⟩
  · rw [h'] at h
    cases h

lemma removeFile_keeps (hI : ∀ s h, I s → I (s.set p none h)) : Keeps I (removeFile fault p) := by
  intro s hs
  unfold final
  rcases removeFile_cases fault p s with ⟨hset, h⟩ | ⟨kind, h⟩
  · rw [h]
    exact hI s hset hs
  · rw [h]
    exact hs

/-- Creating directories keeps what each new directory on the way keeps. -/
lemma createDirectories_keeps {done names : AbsolutePath}
    (hI : ∀ s q h, q <+: done ++ names → s.tree.node q = none → I s →
      I (s.set q (some .dir) h)) : Keeps I (createDirectories fault done names) := by
  induction names generalizing done with
  | nil => exact pure ()
  | cons name rest ih =>
    have hrest : Keeps I (createDirectories fault (done ++ [name]) rest) := by
      apply ih
      intro s q h hq
      apply hI
      simpa using hq
    unfold createDirectories
    apply get_bind
    intro s hs
    cases hn : s.tree.node (done ++ [name]) with
    | some n =>
      cases n with
      | dir => exact hrest s hs
      | file c => exact hs
    | none =>
      dsimp only
      unfold final
      rcases checkFault_bind_cases fault .createDirectory (done ++ [name]) _ s with h | ⟨k, h⟩
      · rw [h]
        by_cases hset : s.tree.Settable (done ++ [name])
        · rw [dif_pos hset]
          exact hrest _ (hI s _ hset (by simp) hn hs)
        · rw [dif_neg hset]
          exact hs
      · rw [h]
        exact hs

lemma createParents_keeps
    (hI : ∀ s q h, q <+: p → q ≠ p → s.tree.node q = none → I s → I (s.set q (some .dir) h)) :
    Keeps I (createParents fault p) := by
  unfold createParents
  split
  · exact pure ()
  rename_i hne
  apply Keeps.mapError
  apply createDirectories_keeps
  intro s q h hq
  rw [List.nil_append] at hq
  refine hI s q h (hq.trans (List.dropLast_prefix p)) ?_
  intro heq
  have hlen := hq.length_le
  have hpos := List.length_pos_iff.mpr hne
  rw [heq, List.length_dropLast] at hlen
  omega

/-! ## Writing with missing parents -/

/-- The invariant survives the directories that are created above a path. -/
def KeptByParents (I : FsState → Prop) (p : AbsolutePath) : Prop :=
  ∀ s q h, q <+: p → q ≠ p → s.tree.node q = none → I s → I (s.set q (some .dir) h)

lemma withContext_keeps {α : Type} {m : Fs α} (hm : Keeps I m)
    (context : String) (p : AbsolutePath) : Keeps I (withContext context p m) :=
  hm.mapError _

lemma writeFileWithMissingParentRetry_keeps
    (hfile : ∀ s h, I s → I (s.set p (some (.file (.text c))) h)) (hdir : KeptByParents I p) :
    Keeps I (writeFileWithMissingParentRetry fault p c) := by
  intro s hs
  have hwrite : Keeps I (writeFile fault p c) := writeFile_keeps hfile
  have hfirst := hwrite s hs
  unfold final at hfirst
  unfold final writeFileWithMissingParentRetry
  cases hr : writeFile fault p c s with
  | ok u s' =>
    rw [hr] at hfirst
    exact hfirst
  | error kind s' =>
    rw [hr] at hfirst
    cases kind
    case notFound =>
      exact bind (createParents_keeps hdir) (fun _ => withContext_keeps hwrite _ p) s' hfirst
    all_goals exact hfirst

lemma writeFileWithMissingParentRetry_eq_ok {u : Unit}
    (h : writeFileWithMissingParentRetry fault p c s = .ok u s') :
    ∃ s₁, ∃ hset : s₁.tree.Settable p, s' = s₁.set p (some (.file (.text c))) hset ∧
      ∀ I : FsState → Prop, KeptByParents I p → I s → I s₁ := by
  unfold writeFileWithMissingParentRetry at h
  cases hr : writeFile fault p c s with
  | ok u t =>
    rw [hr] at h
    cases h
    obtain ⟨hset, hs'⟩ := writeFile_eq_ok hr
    exact ⟨s, hset, hs', fun _ _ hI => hI⟩
  | error kind t =>
    have ht := writeFile_eq_error hr
    rw [hr, ht] at h
    cases kind
    case notFound =>
      obtain ⟨_, s₁, hparents, hwrite⟩ := bind_eq_ok h
      obtain ⟨hset, hs'⟩ := writeFile_eq_ok (mapError_eq_ok hwrite)
      refine ⟨s₁, hset, hs', ?_⟩
      intro I hI hs
      have hkeeps : Keeps I (createParents fault p) := createParents_keeps hI
      have hfinal := hkeeps s hs
      rw [final_of_ok hparents] at hfinal
      exact hfinal
    all_goals cases h

/-! ## Invariants of a run -/

/-- The path that a hunk writes together with its missing parents. -/
def Hunk.written (home : Option AbsolutePath) (cwd : AbsolutePath) (hunk : Hunk) :
    Option AbsolutePath :=
  match hunk with
  | .addFile .. => some (hunk.resolvePath home cwd)
  | .deleteFile _ => none
  | .updateFile .. => hunk.moveDestination home cwd

/-- The invariant survives every edit that a hunk may make. -/
structure Hunk.Safe (home : Option AbsolutePath) (cwd : AbsolutePath) (I : FsState → Prop)
    (hunk : Hunk) : Prop where
  file : ∀ s p n h, p = hunk.resolvePath home cwd ∨ hunk.moveDestination home cwd = some p →
    n ≠ some .dir → I s → I (s.set p n h)
  dir : ∀ d ∈ hunk.written home cwd, KeptByParents I d

lemma writeUpdate_keeps {path : AbsolutePath} {dest : Option AbsolutePath}
    (hfile : ∀ s p n h, p = path ∨ dest = some p → n ≠ some .dir → I s → I (s.set p n h))
    (hdir : ∀ d ∈ dest, KeptByParents I d) : Keeps I (writeUpdate fault path dest c) := by
  unfold writeUpdate
  cases dest with
  | none =>
    apply withContext_keeps
    apply writeFile_keeps
    intro s h
    exact hfile s path _ h (Or.inl rfl) (by simp)
  | some d =>
    apply Keeps.bind
    · apply writeFileWithMissingParentRetry_keeps
      · intro s h
        exact hfile s d _ h (Or.inr rfl) (by simp)
      · exact hdir d rfl
    · intro _
      apply withContext_keeps
      apply removeFile_keeps
      intro s h
      exact hfile s path _ h (Or.inl rfl) (by simp)

lemma applyHunk_keeps {hunk : Hunk} (hs : hunk.Safe home cwd I)
    (affected : AffectedPaths) : Keeps I (applyHunk fault home cwd hunk affected) := by
  unfold applyHunk
  cases hunk with
  | addFile path contents =>
    apply Keeps.bind
    · apply writeFileWithMissingParentRetry_keeps
      · intro s h
        exact hs.file s _ _ h (Or.inl rfl) (by simp)
      · exact hs.dir _ rfl
    · intro _
      exact pure _
  | deleteFile path =>
    apply Keeps.bind
    · apply withContext_keeps
      apply removeFile_keeps
      intro s h
      exact hs.file s _ _ h (Or.inl rfl) (by simp)
    · intro _
      exact pure _
  | updateFile path movePath chunks =>
    apply get_bind
    intro s hI
    refine bind (fromExcept _) ?_ s hI
    intro contents
    apply Keeps.bind
    · exact writeUpdate_keeps hs.file hs.dir
    · intro _
      exact pure _

variable {hunks : List Hunk}

lemma applyHunks_keeps (hs : ∀ hunk ∈ hunks, hunk.Safe home cwd I) (affected : AffectedPaths) :
    Keeps I (applyHunks fault home cwd hunks affected) := by
  induction hunks generalizing affected with
  | nil => exact pure _
  | cons hunk hunks ih =>
    apply Keeps.bind
    · exact applyHunk_keeps (hs hunk List.mem_cons_self) affected
    · intro affected'
      exact ih (fun h hh => hs h (List.mem_cons_of_mem _ hh)) affected'

lemma applyHunksToFiles_keeps (hs : ∀ hunk ∈ hunks, hunk.Safe home cwd I) :
    Keeps I (applyHunksToFiles fault home cwd hunks) := by
  unfold applyHunksToFiles
  split
  · exact throw _
  · exact applyHunks_keeps hs _

lemma applyHunksToFiles_eq_ok {affected : AffectedPaths}
    (h : applyHunksToFiles fault home cwd hunks s = .ok affected s') :
    applyHunks fault home cwd hunks ⟨[], [], []⟩ s = .ok affected s' := by
  unfold applyHunksToFiles at h
  split at h
  · cases h
  · exact h

end Supercodex.ApplyPatch
