import Supercodex.ApplyPatch.PredictionTheorems

/-!
# Which writes the safety check covers

The check asks the policy about the changes of an action, one for each path. A run over the hunks
also writes the destinations of renames whose change was replaced by a later hunk for the same
path, and creates missing directories above new files. If the policy lets these be written, it
lets everything be written that a run touches; and a run that returns touches all of them.
-/

namespace Supercodex.ApplyPatch

open Text Supercodex.Path Effects Permissions

variable {fault : Faults} {home : Option AbsolutePath} {tree : FileTree} {cwd : AbsolutePath}

/-! ## The map of changes -/

lemma mem_insert {changes : Changes} {path : AbsolutePath} {change : ApplyPatchFileChange}
    {c : AbsolutePath × ApplyPatchFileChange} :
    c ∈ changes.insert path change ↔ (c ∈ changes ∧ c.1 ≠ path) ∨ c = (path, change) := by
  unfold Changes.insert
  simp

variable {hunks : List Hunk}

lemma verifyHunks_keeps {acc changes : Changes}
    (h : verifyHunks fault home tree cwd hunks acc = .ok changes)
    {c : AbsolutePath × ApplyPatchFileChange} (hc : c ∈ acc) :
    ((∀ hunk ∈ hunks, hunk.resolvePath home cwd ≠ c.1) → c ∈ changes) ∧
      ∃ change, (c.1, change) ∈ changes := by
  induction hunks generalizing acc c with
  | nil =>
    cases h
    exact ⟨fun _ => hc, c.2, hc⟩
  | cons hunk hunks ih =>
    obtain ⟨change, -, h⟩ := verifyHunks_cons_eq_ok h
    by_cases heq : c.1 = hunk.resolvePath home cwd
    · refine ⟨fun hne => absurd heq.symm (hne hunk List.mem_cons_self), ?_⟩
      rw [heq]
      have hmem : (hunk.resolvePath home cwd, change) ∈
          acc.insert (hunk.resolvePath home cwd) change := mem_insert.mpr (Or.inr rfl)
      exact (ih h hmem).2
    · have hmem : c ∈ acc.insert (hunk.resolvePath home cwd) change :=
        mem_insert.mpr (Or.inl ⟨hc, heq⟩)
      obtain ⟨hlast, hkey⟩ := ih h hmem
      exact ⟨fun hne => hlast fun hunk' hh => hne hunk' (List.mem_cons_of_mem _ hh), hkey⟩

variable {hunk : Hunk}

/-- Every hunk has its path in the map, and its own change if no later hunk has the path. -/
lemma verifyHunks_mem {before after : List Hunk} {acc changes : Changes}
    (h : verifyHunks fault home tree cwd (before ++ hunk :: after) acc = .ok changes) :
    (∃ change, (hunk.resolvePath home cwd, change) ∈ changes) ∧
      ((∀ later ∈ after, later.resolvePath home cwd ≠ hunk.resolvePath home cwd) →
        ∃ change, (hunk.resolvePath home cwd, change) ∈ changes ∧
          change.movePath = hunk.moveDestination home cwd) := by
  induction before generalizing acc with
  | cons first before ih =>
    rw [List.cons_append] at h
    obtain ⟨change, -, h⟩ := verifyHunks_cons_eq_ok h
    exact ih h
  | nil =>
    rw [List.nil_append] at h
    obtain ⟨change, hchange, h⟩ := verifyHunks_cons_eq_ok h
    have hmem : (hunk.resolvePath home cwd, change) ∈
        acc.insert (hunk.resolvePath home cwd) change := mem_insert.mpr (Or.inr rfl)
    obtain ⟨hlast, hkey⟩ := verifyHunks_keeps h hmem
    exact ⟨hkey, fun hne => ⟨change, hlast hne, movePath_of_changeOf hchange⟩⟩

/-! ## What a run touches -/

/-- The directories of the tree are still there, and all that was touched may be written. -/
def OnlyTouched (tree : FileTree) (writable : AbsolutePath → Prop) (s : FsState) : Prop :=
  (∀ a, tree.node a = some .dir → s.tree.node a = some .dir) ∧ ∀ p ∈ s.touched, writable p

/-- Every directory was there before or has been touched. -/
def DirsTouched (tree : FileTree) (s : FsState) : Prop :=
  ∀ a, s.tree.node a = some .dir → tree.node a = some .dir ∨ a ∈ s.touched

/-- A hunk touches only what may be written if its paths and the missing directories above what
it writes may be written. -/
lemma Hunk.safe_onlyTouched {writable : AbsolutePath → Prop}
    (hpath : writable (hunk.resolvePath home cwd))
    (hdest : ∀ dest ∈ hunk.moveDestination home cwd, writable dest)
    (hdirs : ∀ d ∈ hunk.written home cwd, ∀ q, q <+: d → q ≠ d → tree.node q ≠ some .dir →
      writable q) :
    hunk.Safe home cwd (OnlyTouched tree writable) := by
  constructor
  · intro s p n h hp _ ⟨hkept, htouched⟩
    refine ⟨?_, ?_⟩
    · intro a ha
      have hne : a ≠ p := by
        intro heq
        exact h.2.2 (heq ▸ hkept a ha)
      show Function.update s.tree.node p n a = _
      rw [Function.update_of_ne hne, hkept a ha]
    · intro q hq
      rcases List.mem_append.mp hq with hq | hq
      · exact htouched q hq
      rw [List.mem_singleton.mp hq]
      rcases hp with hp | hp
      · exact hp ▸ hpath
      · exact hdest p hp
  · intro d hd s q h hqd hne hnone ⟨hkept, htouched⟩
    refine ⟨?_, ?_⟩
    · intro a ha
      show Function.update s.tree.node q _ a = _
      by_cases heq : a = q
      · rw [heq, Function.update_self]
      · rw [Function.update_of_ne heq, hkept a ha]
    · intro p hp
      rcases List.mem_append.mp hp with hp | hp
      · exact htouched p hp
      rw [List.mem_singleton.mp hp]
      apply hdirs d hd q hqd hne
      intro hdir
      rw [hkept q hdir] at hnone
      cases hnone

lemma dirsTouched_keptByParents (d : AbsolutePath) : KeptByParents (DirsTouched tree) d := by
  intro s q h _ _ _ hs a ha
  by_cases heq : a = q
  · rw [heq]
    exact Or.inr (List.mem_append_right _ (List.mem_singleton_self q))
  · change Function.update s.tree.node q _ a = _ at ha
    rw [Function.update_of_ne heq] at ha
    exact (hs a ha).imp id (List.mem_append_left _)

lemma Hunk.safe_dirsTouched (hunk : Hunk) : hunk.Safe home cwd (DirsTouched tree) := by
  refine ⟨?_, fun d _ => dirsTouched_keptByParents d⟩
  intro s p n h _ hn hs a ha
  change Function.update s.tree.node p n a = _ at ha
  have hne : a ≠ p := by
    intro heq
    rw [heq, Function.update_self] at ha
    exact hn ha
  rw [Function.update_of_ne hne] at ha
  exact (hs a ha).imp id (List.mem_append_left _)

lemma Hunk.safe_touched (hunk : Hunk) (p : AbsolutePath) :
    hunk.Safe home cwd (fun s => p ∈ s.touched) :=
  ⟨fun _ _ _ _ _ _ hs => List.mem_append_left _ hs,
    fun _ _ _ _ _ _ _ _ hs => List.mem_append_left _ hs⟩

/-- A path has been written, and the directories above it are old or touched. -/
def WrittenWithParents (tree : FileTree) (d : AbsolutePath) (s : FsState) : Prop :=
  d ∈ s.touched ∧ ∀ q, q <+: d → q ≠ d → tree.node q = some .dir ∨ q ∈ s.touched

variable {s s' : FsState}

lemma writtenWithParents_of_retry {d : AbsolutePath} {c : Text} {u : Unit}
    (hs : DirsTouched tree s) (h : writeFileWithMissingParentRetry fault d c s = .ok u s') :
    WrittenWithParents tree d s' := by
  obtain ⟨s₁, hset, rfl, hkeep⟩ := writeFileWithMissingParentRetry_eq_ok h
  have hs₁ : DirsTouched tree s₁ := hkeep _ (dirsTouched_keptByParents d) hs
  refine ⟨List.mem_append_right _ (List.mem_singleton_self d), ?_⟩
  intro q hqd hne
  exact (hs₁ q (s₁.tree.isDir_of_settable hset hqd hne)).imp id (List.mem_append_left _)

lemma writtenWithParents_of_applyHunk {affected affected' : AffectedPaths} (hs : DirsTouched tree s)
    (h : applyHunk fault home cwd hunk affected s = .ok affected' s') :
    ∀ d ∈ hunk.written home cwd, WrittenWithParents tree d s' := by
  intro d hd
  cases hunk with
  | addFile path contents =>
    cases hd
    obtain ⟨_, s₁, hwrite, hpure⟩ := bind_eq_ok h
    cases hpure
    exact writtenWithParents_of_retry hs hwrite
  | deleteFile path => cases hd
  | updateFile path movePath chunks =>
    obtain ⟨new, -, hwrite⟩ := applyHunk_updateFile_eq_ok h
    have hdest : (Hunk.updateFile path movePath chunks).moveDestination home cwd = some d := hd
    rw [hdest] at hwrite
    obtain ⟨_, s₃, hdestWrite, hremove⟩ := bind_eq_ok hwrite
    obtain ⟨hmem, hparents⟩ := writtenWithParents_of_retry hs hdestWrite
    -- the removal of the original only adds to what was touched
    obtain ⟨hset, rfl⟩ := removeFile_eq_ok (mapError_eq_ok hremove)
    exact ⟨List.mem_append_left _ hmem,
      fun q hqd hne => (hparents q hqd hne).imp id (List.mem_append_left _)⟩

lemma writtenWithParents_of_applyHunks {affected affected' : AffectedPaths}
    (hs : DirsTouched tree s)
    (h : applyHunks fault home cwd hunks affected s = .ok affected' s') :
    ∀ hunk ∈ hunks, ∀ d ∈ hunk.written home cwd, WrittenWithParents tree d s' := by
  induction hunks generalizing affected s with
  | nil => simp
  | cons first hunks ih =>
    obtain ⟨affected₁, s₁, hfirst, hrun⟩ := bind_eq_ok h
    have hs₁ : DirsTouched tree s₁ := by
      have hkeeps : Keeps (DirsTouched tree) (applyHunk fault home cwd first affected) :=
        applyHunk_keeps first.safe_dirsTouched affected
      rw [← final_of_ok hfirst]
      exact hkeeps s hs
    have hgrow : ∀ p ∈ s₁.touched, p ∈ s'.touched := by
      intro p hp
      have hkeeps : Keeps (fun s => p ∈ s.touched) (applyHunks fault home cwd hunks affected₁) :=
        applyHunks_keeps (fun hunk _ => hunk.safe_touched p) affected₁
      rw [← final_of_ok hrun]
      exact hkeeps s₁ hp
    intro hunk hmem d hd
    rcases List.mem_cons.mp hmem with rfl | hmem
    · obtain ⟨hd', hparents⟩ := writtenWithParents_of_applyHunk hs hfirst d hd
      exact ⟨hgrow d hd', fun q hqd hne => (hparents q hqd hne).imp id (hgrow q)⟩
    · exact ih hs₁ hrun hunk hmem d hd

/-! ## Covered patches -/

/-- The policy also lets be written what the check does not ask about: the destination of a
rename whose path a later hunk names again, and the missing directories above what is written. -/
structure Covered (policy : FileSystemSandboxPolicy) (env : Env) (policyCwd cwd : AbsolutePath)
    (hunks : List Hunk) : Prop where
  moves : ∀ before hunk after, hunks = before ++ hunk :: after →
    (∃ later ∈ after, later.resolvePath env.home cwd = hunk.resolvePath env.home cwd) →
    ∀ dest ∈ hunk.moveDestination env.home cwd,
      policy.canWritePathWithCwd env policyCwd dest = true
  parents : ∀ hunk ∈ hunks, ∀ d ∈ hunk.written env.home cwd, ∀ q, q <+: d → q ≠ d →
    env.tree.node q ≠ some .dir → policy.canWritePathWithCwd env policyCwd q = true

variable {policy : FileSystemSandboxPolicy}

/-- `Covered` over the finitely many hunks, so that it can be decided. -/
lemma covered_iff {env : Env} {policyCwd : AbsolutePath} :
    Covered policy env policyCwd cwd hunks ↔
      (∀ i : Fin hunks.length,
        (∃ later ∈ hunks.drop (i + 1), later.resolvePath env.home cwd = hunks[i].resolvePath env.home cwd) →
        ∀ dest ∈ hunks[i].moveDestination env.home cwd, policy.canWritePathWithCwd env policyCwd dest = true) ∧
      ∀ hunk ∈ hunks, ∀ d ∈ hunk.written env.home cwd, ∀ q ∈ d.inits, q ≠ d →
        env.tree.node q ≠ some .dir → policy.canWritePathWithCwd env policyCwd q = true := by
  constructor
  · rintro ⟨hmoves, hparents⟩
    refine ⟨fun i => hmoves (hunks.take i) hunks[i] _ ?_, fun hunk hmem d hd q hq =>
      hparents hunk hmem d hd q ((List.mem_inits q d).mp hq)⟩
    rw [Fin.getElem_fin, List.getElem_cons_drop, List.take_append_drop]
  · rintro ⟨hmoves, hparents⟩
    refine ⟨?_, fun hunk hmem d hd q hq => hparents hunk hmem d hd q ((List.mem_inits q d).mpr hq)⟩
    rintro before hunk after rfl
    simpa using hmoves ⟨before.length, by simp⟩

instance (policy : FileSystemSandboxPolicy) (env : Env) (policyCwd cwd : AbsolutePath) (hunks : List Hunk) :
    Decidable (Covered policy env policyCwd cwd hunks) := decidable_of_iff _ covered_iff.symm

lemma Hunk.written_of_moveDestination {dest : AbsolutePath}
    (h : hunk.moveDestination home cwd = some dest) : hunk.written home cwd = some dest := by
  cases hunk with
  | addFile path contents | deleteFile path => cases h
  | updateFile path movePath chunks => exact h

/-- A run over covered hunks touches only what may be written. -/
lemma touched_writable {env : Env} {policyCwd : AbsolutePath}
    {action : ApplyPatchAction}
    (hverify : verifyHunks fault env.home env.tree action.cwd hunks [] = .ok action.changes)
    (hconstrained : isWritePatchConstrainedToWritablePaths action policy env policyCwd = true)
    (hcovered : Covered policy env policyCwd action.cwd hunks) :
    ∀ p ∈ (final (applyHunksToFiles fault env.home action.cwd hunks) ⟨env.tree, []⟩).touched,
      policy.canWritePathWithCwd env policyCwd p = true := by
  let writable := fun p => policy.canWritePathWithCwd env policyCwd p = true
  -- what the check has asked the policy
  have hcheck : ∀ path change, (path, change) ∈ action.changes →
      writable path ∧ ∀ dest ∈ change.movePath, writable dest := by
    intro path change hc
    unfold isWritePatchConstrainedToWritablePaths at hconstrained
    have := List.all_eq_true.mp hconstrained (path, change) hc
    rw [Bool.and_eq_true, Option.all_eq_true] at this
    exact this
  have hsafe : ∀ hunk ∈ hunks,
      hunk.Safe env.home action.cwd (OnlyTouched env.tree writable) := by
    intro hunk hmem
    obtain ⟨before, after, hsplit⟩ := List.append_of_mem hmem
    rw [hsplit] at hverify
    obtain ⟨⟨change, hkey⟩, hlast⟩ := verifyHunks_mem hverify
    refine Hunk.safe_onlyTouched (hcheck _ _ hkey).1 ?_ (hcovered.parents hunk hmem)
    intro dest hdest
    by_cases hlater : ∃ later ∈ after,
        later.resolvePath env.home action.cwd = hunk.resolvePath env.home action.cwd
    · exact hcovered.moves before hunk after hsplit hlater dest hdest
    · push Not at hlater
      obtain ⟨change', hmem', hmove⟩ := hlast hlater
      exact (hcheck _ _ hmem').2 dest (hmove ▸ hdest)
  have hkeeps : Keeps (OnlyTouched env.tree writable)
      (applyHunksToFiles fault env.home action.cwd hunks) := applyHunksToFiles_keeps hsafe
  exact (hkeeps ⟨env.tree, []⟩ ⟨fun _ ha => ha, by simp⟩).2

lemma covered_of_touched {env : Env}
    {policyCwd : AbsolutePath} {affected : AffectedPaths}
    (hrun : applyHunksToFiles fault env.home cwd hunks ⟨env.tree, []⟩ = .ok affected s')
    (htouched : ∀ p ∈ s'.touched, policy.canWritePathWithCwd env policyCwd p = true) :
    Covered policy env policyCwd cwd hunks := by
  have hinit : DirsTouched env.tree ⟨env.tree, []⟩ := fun _ ha => Or.inl ha
  have hwritten := writtenWithParents_of_applyHunks hinit (applyHunksToFiles_eq_ok hrun)
  constructor
  · intro before hunk after hsplit _ dest hdest
    have hmem : hunk ∈ hunks := by
      rw [hsplit]
      exact List.mem_append_right _ List.mem_cons_self
    exact htouched dest (hwritten hunk hmem dest (Hunk.written_of_moveDestination hdest)).1
  · intro hunk hmem d hd q hqd hne hnot
    rcases (hwritten hunk hmem d hd).2 q hqd hne with hdir | hq
    · exact absurd hdir hnot
    · exact htouched q hq

/-- A run of a verified and checked patch touches only paths that the policy lets be written if
the patch is covered; and only then, if the run returns. -/
theorem checked_patch_touches_writable
    (extract : Text → Except ExtractHeredocError (Text × Option Text)) (fault : Faults)
    (policy : FileSystemSandboxPolicy) (env : Env) (policyCwd cwd : AbsolutePath)
    (argv : List Text) (action : ApplyPatchAction) (body : Text) (workdir : Option Text)
    (args args' : ApplyPatchArgs)
    (hverified : maybeParseApplyPatchVerified extract fault env.home env.tree argv cwd =
      .body action)
    (hconstrained : isWritePatchConstrainedToWritablePaths action policy env policyCwd = true)
    (hbody : patchBody extract argv = some (.ok (body, workdir)))
    (hargs : parsePatch body = .ok args) (hsettled : BodySettled body)
    (hargs' : parsePatch action.patch = .ok args') :
    (Covered policy env policyCwd action.cwd args.hunks →
      ∀ p ∈ (final (applyHunksToFiles fault env.home action.cwd args'.hunks)
        ⟨env.tree, []⟩).touched, policy.canWritePathWithCwd env policyCwd p = true) ∧
    ∀ affected s', applyHunksToFiles fault env.home action.cwd args'.hunks ⟨env.tree, []⟩ =
        .ok affected s' →
      (∀ p ∈ s'.touched, policy.canWritePathWithCwd env policyCwd p = true) →
      Covered policy env policyCwd action.cwd args.hunks := by
  obtain ⟨hhunks, hverify⟩ := verified_hunks hverified hbody hargs hsettled hargs'
  rw [hhunks]
  constructor
  · intro hcovered
    exact touched_writable hverify hconstrained hcovered
  · intro affected s' hrun htouched
    exact covered_of_touched hrun htouched

/-! ## A rename behind the back of the check -/

/-- A workspace `/w` with a file `a`. -/
def workspaceEnv : Env where
  home := none
  currentDir := none
  tmpdir := none
  tree := .ofNodes [(["w".toList], .dir),
    (["w".toList, "a".toList], .file (.text "x\n".toList))]

/-- Write access to `/w`. -/
def workspacePolicy : FileSystemSandboxPolicy := .restricted [⟨.path ["w".toList], .write⟩]

/-- A patch that moves `a` to `b`, adds `a` again and adds a file in a directory that is missing. -/
def workspacePatch : Text :=
  ("*** Begin Patch\n*** Update File: a\n*** Move to: b\n@@\n-x\n+y\n" ++
    "*** Add File: a\n+z\n*** Add File: d/e\n+q\n*** End Patch").toList

/-- The check sees neither `b` nor the directory `d`, which the run writes too. -/
theorem checked_patch_touches_writable_workspace :
    let action : ApplyPatchAction :=
      ⟨[(["w".toList, "a".toList], .add "z\n".toList), (["w".toList, "d".toList, "e".toList], .add "q\n".toList)],
        workspacePatch, ["w".toList]⟩
    let hunks : List Hunk := [.updateFile "a".toList (some "b".toList) [⟨none, ["x".toList], ["y".toList], false⟩],
      .addFile "a".toList "z\n".toList, .addFile "d/e".toList "q\n".toList]
    let touched := (final (applyHunksToFiles noFaults none ["w".toList] hunks) ⟨workspaceEnv.tree, []⟩).touched
    maybeParseApplyPatchVerified noShell noFaults none workspaceEnv.tree
        ["apply_patch".toList, workspacePatch] ["w".toList] = .body action ∧
      ["w".toList, "b".toList] ∈ touched ∧ ["w".toList, "d".toList] ∈ touched ∧
      ∀ p ∈ touched, workspacePolicy.canWritePathWithCwd workspaceEnv ["w".toList] p = true := by
  intro action hunks touched
  let args : ApplyPatchArgs := ⟨workspacePatch, hunks, none⟩
  have hverified : maybeParseApplyPatchVerified noShell noFaults none workspaceEnv.tree
      ["apply_patch".toList, workspacePatch] ["w".toList] = .body action := by decide +kernel
  have hparse : parsePatch workspacePatch = .ok args := by decide +kernel
  have hcovered : Covered workspacePolicy workspaceEnv ["w".toList] ["w".toList] hunks := by decide +kernel
  exact ⟨hverified, by decide +kernel, by decide +kernel,
    (checked_patch_touches_writable noShell noFaults workspacePolicy workspaceEnv
      ["w".toList] ["w".toList] ["apply_patch".toList, workspacePatch] action workspacePatch none args args
      hverified (by decide +kernel) rfl hparse (by decide +kernel) hparse).1 hcovered⟩

/-- A patch that moves `a` out of the workspace and then adds `a` again. -/
def shadowedMovePatch : Text :=
  ("*** Begin Patch\n*** Update File: a\n*** Move to: /evil\n@@\n-x\n+y\n" ++
    "*** Add File: a\n+z\n*** End Patch").toList

/-- The check sees the added file only; the run writes `/evil` as well. -/
theorem shadowed_move_is_not_checked :
    let action : ApplyPatchAction :=
      ⟨[(["w".toList, "a".toList], .add "z\n".toList)], shadowedMovePatch, ["w".toList]⟩
    let hunks : List Hunk := [.updateFile "a".toList (some "/evil".toList)
      [⟨none, ["x".toList], ["y".toList], false⟩], .addFile "a".toList "z\n".toList]
    maybeParseApplyPatchVerified noShell noFaults none workspaceEnv.tree
        ["apply_patch".toList, shadowedMovePatch] ["w".toList] = .body action ∧
      isWritePatchConstrainedToWritablePaths action workspacePolicy workspaceEnv ["w".toList] =
        true ∧
      parsePatch action.patch = .ok ⟨shadowedMovePatch, hunks, none⟩ ∧
      ["evil".toList] ∈ (final (applyHunksToFiles noFaults none ["w".toList] hunks)
        ⟨workspaceEnv.tree, []⟩).touched ∧
      workspacePolicy.canWritePathWithCwd workspaceEnv ["w".toList] ["evil".toList] = false := by
  intro action hunks
  refine ⟨by decide +kernel, by decide +kernel, by decide +kernel, by decide +kernel, by decide +kernel⟩

end Supercodex.ApplyPatch
