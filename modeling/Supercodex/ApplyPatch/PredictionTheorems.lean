import Supercodex.ApplyPatch.ApplyTheorems
import Supercodex.ApplyPatch.Invocation
import Supercodex.ApplyPatch.ParserTheorems

/-!
# Predicted and applied changes

Verification reads every file before anything is written, application reads each one when its turn
comes. If no two hunks share a path, both read the same contents, and the run leaves each path as
predicted. The prediction is made from the first parse of the patch and the run from the second,
so the lines of the hunks must come back unchanged.
-/

namespace Supercodex.ApplyPatch

open Text Supercodex.Path Effects

variable {fault : Faults} {home : Option AbsolutePath} {cwd : AbsolutePath}

/-! ## Reading -/

variable {p : AbsolutePath} {tree : FileTree}

lemma readText_eq_ok {t : Text}
    (h : readText fault tree p = .ok t) : fault .read p = none ∧ tree.contents p = some (.text t) := by
  unfold readText at h
  cases hf : fault .read p with
  | some kind => simp [hf] at h
  | none =>
    refine ⟨rfl, ?_⟩
    simp only [hf] at h
    unfold FileTree.contents
    cases hn : tree.node p with
    | none => simp [hn] at h
    | some n =>
      cases n with
      | dir => simp [hn] at h
      | file c =>
        cases c with
        | binary bytes => simp [hn] at h
        | text t' =>
          simp only [hn] at h
          cases h
          rfl

lemma readText_of_contents {t : Text}
    (hf : fault .read p = none) (h : tree.contents p = some (.text t)) :
    readText fault tree p = .ok t := by
  unfold FileTree.contents at h
  split at h
  · rename_i c hn
    cases h
    simp [readText, hf, hn]
  · cases h

lemma deriveNewContents_congr {tree tree' : FileTree} {chunks : List UpdateFileChunk} {new : Text}
    (h : deriveNewContentsFromChunks fault tree p chunks = .ok new)
    (hsame : tree'.contents p = tree.contents p) :
    deriveNewContentsFromChunks fault tree' p chunks = .ok new := by
  unfold deriveNewContentsFromChunks at h ⊢
  cases hr : readText fault tree p with
  | error kind =>
    rw [hr] at h
    cases h
  | ok t =>
    obtain ⟨hf, hc⟩ := readText_eq_ok hr
    rw [hr] at h
    rw [readText_of_contents hf (hsame.trans hc)]
    exact h

/-! ## One hunk -/

/-- The contents of a tree. -/
abbrev ContentsMap := AbsolutePath → Option Contents

/-- The contents after a change to the file at `path`. -/
def ContentsMap.apply (before : ContentsMap) (path : AbsolutePath) :
    ApplyPatchFileChange → ContentsMap
  | .add content => Function.update before path (some (.text content))
  | .delete _ => Function.update before path none
  | .update none new => Function.update before path (some (.text new))
  | .update (some dest) new =>
    Function.update (Function.update before dest (some (.text new))) path none

lemma contents_keptByParents (before : ContentsMap) (p : AbsolutePath) :
    KeptByParents (fun s => s.tree.contents = before) p := by
  intro s q h _ _ hnone hs
  show (s.tree.set q (some .dir) h).contents = before
  rw [FileTree.contents_set_dir _ h hnone, hs]

variable {s s' : FsState}

lemma contents_writeFile {c : Text} {u : Unit} (h : writeFile fault p c s = .ok u s') :
    s'.tree.contents = Function.update s.tree.contents p (some (.text c)) := by
  obtain ⟨hset, rfl⟩ := writeFile_eq_ok h
  exact s.tree.contents_set_file (.text c) hset

lemma contents_removeFile {u : Unit} (h : removeFile fault p s = .ok u s') :
    s'.tree.contents = Function.update s.tree.contents p none := by
  obtain ⟨hset, rfl⟩ := removeFile_eq_ok h
  exact s.tree.contents_set_none hset

lemma contents_writeFileWithMissingParentRetry {c : Text}
    {u : Unit} (h : writeFileWithMissingParentRetry fault p c s = .ok u s') :
    s'.tree.contents = Function.update s.tree.contents p (some (.text c)) := by
  obtain ⟨s₁, hset, rfl, hkeep⟩ := writeFileWithMissingParentRetry_eq_ok h
  have hsame : s₁.tree.contents = s.tree.contents :=
    hkeep _ (contents_keptByParents s.tree.contents p) rfl
  rw [← hsame]
  exact s₁.tree.contents_set_file (.text c) hset

variable {change : ApplyPatchFileChange}

lemma applyHunk_updateFile_eq_ok {path : Text} {movePath : Option Text} {chunks : List UpdateFileChunk}
    {affected affected' : AffectedPaths}
    (h : applyHunk fault home cwd (.updateFile path movePath chunks) affected s = .ok affected' s') :
    let hunk := Hunk.updateFile path movePath chunks
    ∃ new, deriveNewContentsFromChunks fault s.tree (hunk.resolvePath home cwd) chunks = .ok new ∧
      writeUpdate fault (hunk.resolvePath home cwd) (hunk.moveDestination home cwd) new s = .ok () s' := by
  unfold applyHunk at h
  dsimp only at h
  rw [run_get_bind] at h
  obtain ⟨new, s₁, hlift, hrest⟩ := bind_eq_ok h
  obtain ⟨hderive, rfl⟩ := fromExcept_eq_ok hlift
  obtain ⟨_, s₂, hwrite, hpure⟩ := bind_eq_ok hrest
  cases hpure
  exact ⟨new, hderive, hwrite⟩

/-- A hunk that is applied makes the change that was predicted from a tree with the same contents
at the hunk's path. -/
lemma applyHunk_eq_ok {hunk : Hunk} {affected affected' : AffectedPaths}
    (hchange : changeOf fault home tree cwd hunk = .ok change)
    (hsame : s.tree.contents (hunk.resolvePath home cwd) =
      tree.contents (hunk.resolvePath home cwd))
    (h : applyHunk fault home cwd hunk affected s = .ok affected' s') :
    s'.tree.contents =
      ContentsMap.apply s.tree.contents (hunk.resolvePath home cwd) change := by
  cases hunk with
  | addFile path contents =>
    cases hchange
    obtain ⟨_, s₁, hwrite, hpure⟩ := bind_eq_ok h
    cases hpure
    exact contents_writeFileWithMissingParentRetry hwrite
  | deleteFile path =>
    obtain ⟨_, s₁, hremove, hpure⟩ := bind_eq_ok h
    cases hpure
    unfold changeOf at hchange
    dsimp only at hchange
    split at hchange
    · cases hchange
      exact contents_removeFile (mapError_eq_ok hremove)
    · cases hchange
  | updateFile path movePath chunks =>
    obtain ⟨new, hderive, hwrite⟩ := applyHunk_updateFile_eq_ok h
    -- the file has the contents that were verified, so the same text is derived
    have hchange' : change = .update ((Hunk.updateFile path movePath chunks).moveDestination home
        cwd) new := by
      unfold changeOf at hchange
      dsimp only at hchange
      rw [deriveNewContents_congr hderive hsame.symm] at hchange
      cases hchange
      rfl
    rw [hchange']
    unfold writeUpdate at hwrite
    cases hdest : (Hunk.updateFile path movePath chunks).moveDestination home cwd with
    | none =>
      rw [hdest] at hwrite
      exact contents_writeFile (mapError_eq_ok hwrite)
    | some dest =>
      rw [hdest] at hwrite
      obtain ⟨_, s₃, hdestWrite, hremove⟩ := bind_eq_ok hwrite
      rw [contents_removeFile (mapError_eq_ok hremove),
        contents_writeFileWithMissingParentRetry hdestWrite]
      rfl

/-! ## All hunks -/

/-- The path of a hunk and the destination it moves to. -/
def Hunk.paths (home : Option AbsolutePath) (cwd : AbsolutePath) (hunk : Hunk) :
    List AbsolutePath :=
  hunk.resolvePath home cwd :: (hunk.moveDestination home cwd).toList

/-- The paths of all hunks. -/
def hunkPaths (home : Option AbsolutePath) (cwd : AbsolutePath) (hunks : List Hunk) :
    List AbsolutePath :=
  hunks.flatMap (Hunk.paths home cwd)

/-- Each path is left as its change says, and all others as they were. -/
structure AppliedAsPredicted (before after : ContentsMap) (changes : Changes) : Prop where
  add : ∀ path content, (path, .add content) ∈ changes → after path = some (.text content)
  delete : ∀ path content, (path, .delete content) ∈ changes → after path = none
  update : ∀ path new, (path, .update none new) ∈ changes → after path = some (.text new)
  move : ∀ path dest new, (path, .update (some dest) new) ∈ changes →
    after dest = some (.text new) ∧ after path = none
  frame : ∀ p, (∀ c ∈ changes, p ≠ c.1 ∧ c.2.movePath ≠ some p) → after p = before p

/-- The changes of hunks with distinct paths, in order. -/
inductive Predicted (fault : Faults) (home : Option AbsolutePath) (tree : FileTree)
    (cwd : AbsolutePath) : List Hunk → Changes → Prop
  | nil : Predicted fault home tree cwd [] []
  | cons {hunk hunks change changes} (hchange : changeOf fault home tree cwd hunk = .ok change)
      (hrest : Predicted fault home tree cwd hunks changes) :
      Predicted fault home tree cwd (hunk :: hunks) ((hunk.resolvePath home cwd, change) :: changes)

lemma movePath_of_changeOf {hunk : Hunk} (h : changeOf fault home tree cwd hunk = .ok change) :
    change.movePath = hunk.moveDestination home cwd := by
  cases hunk with
  | addFile path contents =>
    cases h
    rfl
  | deleteFile path =>
    unfold changeOf at h
    dsimp only at h
    split at h
    · cases h
      rfl
    · cases h
  | updateFile path movePath chunks =>
    unfold changeOf at h
    dsimp only at h
    cases hd : deriveNewContentsFromChunks fault tree
        ((Hunk.updateFile path movePath chunks).resolvePath home cwd) chunks with
    | error e =>
      rw [hd] at h
      cases h
    | ok new =>
      rw [hd] at h
      cases h
      rfl

variable {hunks : List Hunk}

lemma Predicted.mem_paths {changes : Changes}
    (h : Predicted fault home tree cwd hunks changes) {c : AbsolutePath × ApplyPatchFileChange}
    (hc : c ∈ changes) (hp : p = c.1 ∨ c.2.movePath = some p) :
    p ∈ hunkPaths home cwd hunks := by
  induction h with
  | nil => simp at hc
  | cons hchange hrest ih =>
    unfold hunkPaths
    rw [List.flatMap_cons, List.mem_append]
    rcases List.mem_cons.mp hc with rfl | hc
    · left
      unfold Hunk.paths
      rw [List.mem_cons, Option.mem_toList]
      rcases hp with hp | hp
      · exact Or.inl hp
      · right
        rw [movePath_of_changeOf hchange] at hp
        exact hp
    · right
      exact ih hc

lemma ContentsMap.apply_of_ne {before : ContentsMap} {path p : AbsolutePath}
    (hp : p ≠ path) (hm : change.movePath ≠ some p) :
    before.apply path change p = before p := by
  cases change with
  | add content | delete content => exact Function.update_of_ne hp _ _
  | update movePath new =>
    cases movePath with
    | none => exact Function.update_of_ne hp _ _
    | some dest =>
      have hd : p ≠ dest := by
        intro heq
        exact hm (heq ▸ rfl)
      show Function.update (Function.update before dest _) path none p = before p
      rw [Function.update_of_ne hp, Function.update_of_ne hd]

/-- A run over hunks with distinct paths leaves every path as predicted. The induction is over
the hunks, with the contents of the paths that are still to come as they were verified. -/
lemma applyHunks_eq_ok {changes : Changes}
    (hpred : Predicted fault home tree cwd hunks changes)
    (hnodup : (hunkPaths home cwd hunks).Nodup) {affected affected' : AffectedPaths}

    (hsame : ∀ p ∈ hunkPaths home cwd hunks, s.tree.contents p = tree.contents p)
    (h : applyHunks fault home cwd hunks affected s = .ok affected' s') :
    AppliedAsPredicted s.tree.contents s'.tree.contents changes := by
  induction hpred generalizing affected s with
  | nil =>
    cases h
    exact ⟨by simp, by simp, by simp, by simp, fun _ _ => rfl⟩
  | @cons hunk hunks change changes hchange hrest ih =>
    obtain ⟨affected₁, s₁, hhunk, hrun⟩ := bind_eq_ok h
    unfold hunkPaths at hnodup hsame
    rw [List.flatMap_cons] at hnodup
    simp only [List.flatMap_cons, List.mem_append] at hsame
    obtain ⟨hown, htail, hdisj⟩ := List.nodup_append'.mp hnodup
    let path := hunk.resolvePath home cwd
    have hpath : path ∈ hunk.paths home cwd := List.mem_cons_self
    have hmove := movePath_of_changeOf hchange
    have hstep := applyHunk_eq_ok hchange (hsame path (Or.inl hpath)) hhunk
    -- the paths of the other hunks are not touched by this one
    have hother : ∀ p ∈ hunkPaths home cwd hunks, p ≠ path ∧ change.movePath ≠ some p := by
      intro p hp
      constructor
      · intro heq
        exact hdisj hpath (heq ▸ hp)
      · intro heq
        rw [hmove] at heq
        refine hdisj ?_ hp
        exact List.mem_cons_of_mem _ (Option.mem_toList.mpr heq)
    have hsame₁ : ∀ p ∈ hunkPaths home cwd hunks, s₁.tree.contents p = tree.contents p := by
      intro p hp
      rw [hstep, ContentsMap.apply_of_ne (hother p hp).1 (hother p hp).2]
      exact hsame p (Or.inr hp)
    have hrest' := ih htail hsame₁ hrun
    -- and the paths of this one not by the others
    have hkept : ∀ p ∈ hunk.paths home cwd, s'.tree.contents p = s₁.tree.contents p := by
      intro p hp
      apply hrest'.frame
      intro c hc
      have hnot : p ∉ hunkPaths home cwd hunks := fun hmem => hdisj hp hmem
      constructor
      · intro heq
        exact hnot (hrest.mem_paths hc (Or.inl heq))
      · intro heq
        exact hnot (hrest.mem_paths hc (Or.inr heq))
    have hownPath := hkept path hpath
    rw [hstep] at hownPath
    constructor
    · intro p content hc
      rcases List.mem_cons.mp hc with heq | hc
      · cases heq
        rw [hownPath]
        exact Function.update_self _ _ _
      · exact hrest'.add p content hc
    · intro p content hc
      rcases List.mem_cons.mp hc with heq | hc
      · cases heq
        rw [hownPath]
        exact Function.update_self _ _ _
      · exact hrest'.delete p content hc
    · intro p new hc
      rcases List.mem_cons.mp hc with heq | hc
      · cases heq
        rw [hownPath]
        exact Function.update_self _ _ _
      · exact hrest'.update p new hc
    · intro p dest new hc
      rcases List.mem_cons.mp hc with heq | hc
      · cases heq
        have hdest : dest ∈ hunk.paths home cwd :=
          List.mem_cons_of_mem _ (Option.mem_toList.mpr hmove.symm)
        have hne : dest ≠ path := by
          intro heq
          unfold Hunk.paths at hown
          rw [← hmove] at hown
          refine (List.nodup_cons.mp hown).1 ?_
          show path ∈ [dest]
          rw [heq]
          exact List.mem_singleton_self path
        constructor
        · rw [hkept dest hdest, hstep]
          show Function.update (Function.update s.tree.contents dest (some (.text new))) path none
            dest = _
          rw [Function.update_of_ne hne, Function.update_self]
        · rw [hownPath]
          exact Function.update_self _ _ _
      · exact hrest'.move p dest new hc
    · intro p hp
      have hhead := hp _ List.mem_cons_self
      rw [hrest'.frame p (fun c hc => hp c (List.mem_cons_of_mem _ hc)), hstep,
        ContentsMap.apply_of_ne hhead.1 hhead.2]

/-! ## Verified patches -/

section
variable {extract : Text → Except ExtractHeredocError (Text × Option Text)} {tree : FileTree}

lemma maybeParseApplyPatchVerified_eq_body {argv : List Text}
    {action : ApplyPatchAction}
    (h : maybeParseApplyPatchVerified extract fault home tree argv cwd = .body action) :
    ∃ body workdir args, patchBody extract argv = some (.ok (body, workdir)) ∧
      parsePatch body = .ok args ∧ action.patch = args.patch ∧
      verifyHunks fault home tree action.cwd args.hunks [] = .ok action.changes := by
  unfold maybeParseApplyPatchVerified at h
  split at h
  · cases h
  split at h
  · rename_i args hargs
    unfold maybeParseApplyPatch at hargs
    split at hargs
    · cases hargs
    · cases hargs
    · cases hargs
    rename_i body workdir hbody
    split at hargs
    · rename_i source hsource
      cases hargs
      dsimp only at h
      split at h
      · rename_i changes hchanges
        cases h
        exact ⟨body, workdir, source, hbody, hsource, rfl, hchanges⟩
      · cases h
    · cases hargs
  all_goals cases h

lemma verifyHunks_cons_eq_ok {hunk : Hunk} {acc changes : Changes}
    (h : verifyHunks fault home tree cwd (hunk :: hunks) acc = .ok changes) :
    ∃ change, changeOf fault home tree cwd hunk = .ok change ∧
      verifyHunks fault home tree cwd hunks (acc.insert (hunk.resolvePath home cwd) change) = .ok changes := by
  cases hchange : changeOf fault home tree cwd hunk with
  | error e =>
    rw [verifyHunks, hchange] at h
    cases h
  | ok change =>
    rw [verifyHunks, hchange] at h
    exact ⟨change, rfl, h⟩

/-- The map of changes of hunks with distinct paths holds one change for each hunk. -/
lemma predicted_of_verifyHunks {acc changes : Changes}
    (h : verifyHunks fault home tree cwd hunks acc = .ok changes)
    (hnodup : (hunkPaths home cwd hunks).Nodup)
    (hacc : ∀ c ∈ acc, c.1 ∉ hunkPaths home cwd hunks) :
    ∃ new, changes = acc ++ new ∧ Predicted fault home tree cwd hunks new := by
  induction hunks generalizing acc with
  | nil =>
    cases h
    exact ⟨[], by simp, .nil⟩
  | cons hunk hunks ih =>
    obtain ⟨change, hc, h⟩ := verifyHunks_cons_eq_ok h
    unfold hunkPaths at hnodup hacc
    rw [List.flatMap_cons] at hnodup
    simp only [List.flatMap_cons, List.mem_append, not_or] at hacc
    obtain ⟨-, htail, hdisj⟩ := List.nodup_append'.mp hnodup
    have hpath : hunk.resolvePath home cwd ∈ hunk.paths home cwd := List.mem_cons_self
    -- no earlier change is replaced
    have hfilter : acc.filter (·.1 ≠ hunk.resolvePath home cwd) = acc := by
      rw [List.filter_eq_self]
      intro c hmem
      have hne : c.1 ≠ hunk.resolvePath home cwd := by
        intro heq
        exact (hacc c hmem).1 (heq ▸ hpath)
      simpa using hne
    unfold Changes.insert at h
    rw [hfilter] at h
    obtain ⟨new, hnew, hpred⟩ := ih h htail (by
      intro c hmem
      rcases List.mem_append.mp hmem with hmem | hmem
      · exact (hacc c hmem).2
      · rw [List.mem_singleton.mp hmem]
        exact fun hin => hdisj hpath hin)
    exact ⟨(hunk.resolvePath home cwd, change) :: new, by simp [hnew], .cons hc hpred⟩

/-- The run applies the hunks that were verified, to the changes that were predicted. -/
lemma verified_hunks {argv : List Text} {action : ApplyPatchAction}
    {body : Text} {workdir : Option Text} {args args' : ApplyPatchArgs}
    (hverified : maybeParseApplyPatchVerified extract fault home tree argv cwd = .body action)
    (hbody : patchBody extract argv = some (.ok (body, workdir)))
    (hargs : parsePatch body = .ok args) (hsettled : BodySettled body)
    (hargs' : parsePatch action.patch = .ok args') :
    args'.hunks = args.hunks ∧
      verifyHunks fault home tree action.cwd args.hunks [] = .ok action.changes := by
  obtain ⟨body₁, workdir₁, args₁, hbody₁, hargs₁, hpatch, hverify⟩ :=
    maybeParseApplyPatchVerified_eq_body hverified
  rw [hbody, Option.some.injEq, Except.ok.injEq, Prod.mk.injEq] at hbody₁
  rw [← hbody₁.1, hargs, Except.ok.injEq] at hargs₁
  rw [← hargs₁] at hpatch hverify
  obtain ⟨args₂, hargs₂, hhunks⟩ := parsePatch_patch_of_bodySettled hargs hsettled
  rw [← hpatch, hargs', Except.ok.injEq] at hargs₂
  rw [hargs₂]
  exact ⟨hhunks, hverify⟩

/-- Every run of the application on the verified tree that returns leaves each path as the
verification predicted. -/
theorem applied_as_predicted (extract : Text → Except ExtractHeredocError (Text × Option Text))
    (fault : Faults) (home : Option AbsolutePath) (tree : FileTree) (argv : List Text)
    (cwd : AbsolutePath) (action : ApplyPatchAction) (body : Text) (workdir : Option Text)
    (args : ApplyPatchArgs)
    (hverified : maybeParseApplyPatchVerified extract fault home tree argv cwd = .body action)
    (hbody : patchBody extract argv = some (.ok (body, workdir)))
    (hargs : parsePatch body = .ok args)
    (hdistinct : (hunkPaths home action.cwd args.hunks).Nodup) (hsettled : BodySettled body) :
    ∀ args' affected s', parsePatch action.patch = .ok args' →
      applyHunksToFiles fault home action.cwd args'.hunks ⟨tree, []⟩ = .ok affected s' →
      AppliedAsPredicted tree.contents s'.tree.contents action.changes := by
  intro args' affected s' hargs' happly
  obtain ⟨hhunks, hverify⟩ := verified_hunks hverified hbody hargs hsettled hargs'
  rw [hhunks] at happly
  obtain ⟨changes, hchanges, hpred⟩ := predicted_of_verifyHunks hverify hdistinct (by simp)
  rw [hchanges]
  exact applyHunks_eq_ok hpred hdistinct (fun _ _ => rfl) (applyHunksToFiles_eq_ok happly)

end

/-! ## Carriage returns -/

/-- No script is a call of `apply_patch`. -/
def noShell (_ : Text) : Except ExtractHeredocError (Text × Option Text) :=
  .error .commandDidNotStartWithApplyPatch

/-- Every operation does what the tree allows. -/
def noFaults : Faults := fun _ _ => none

/-- A command that adds a file `f` with the one line `line`. -/
def addFileCommand (line : Text) : List Text :=
  ["apply_patch".toList,
    "*** Begin Patch\n*** Add File: f\n+".toList ++ line ++ "\n*** End Patch".toList]

/-- Two files. -/
def twoFiles : FileTree :=
  .ofNodes [(["a".toList], .file (.text "x\n".toList)), (["b".toList], .file (.text "old\n".toList))]

/-- A patch that adds a file, moves one and deletes one. -/
def threeHunksPatch : Text :=
  ("*** Begin Patch\n*** Add File: f\n+new\n*** Update File: a\n*** Move to: c\n@@\n-x\n+y\n" ++
    "*** Delete File: b\n*** End Patch").toList

/-- The three changes are made as predicted. -/
theorem applied_as_predicted_threeHunks :
    let action : ApplyPatchAction := ⟨[(["f".toList], .add "new\n".toList),
      (["a".toList], .update (some ["c".toList]) "y\n".toList), (["b".toList], .delete "old\n".toList)],
      threeHunksPatch, []⟩
    let hunks : List Hunk := [.addFile "f".toList "new\n".toList,
      .updateFile "a".toList (some "c".toList) [⟨none, ["x".toList], ["y".toList], false⟩], .deleteFile "b".toList]
    maybeParseApplyPatchVerified noShell noFaults none twoFiles ["apply_patch".toList, threeHunksPatch] [] =
      .body action ∧ ∃ affected s', applyHunksToFiles noFaults none [] hunks ⟨twoFiles, []⟩ = .ok affected s' ∧
        AppliedAsPredicted twoFiles.contents s'.tree.contents action.changes := by
  intro action hunks
  have hverified : maybeParseApplyPatchVerified noShell noFaults none twoFiles
      ["apply_patch".toList, threeHunksPatch] [] = .body action := by decide +kernel
  let args : ApplyPatchArgs := ⟨threeHunksPatch, hunks, none⟩
  have hparse : parsePatch action.patch = .ok args := by decide +kernel
  refine ⟨hverified, _, _, rfl, ?_⟩
  exact applied_as_predicted noShell noFaults none twoFiles ["apply_patch".toList, threeHunksPatch] [] action
    _ none args hverified rfl (by decide +kernel) (by decide +kernel) (by decide +kernel) args _ _ hparse rfl

/-- A line that ends in two carriage returns is predicted with one and written with none. -/
theorem applied_without_carriage_return :
    let action : ApplyPatchAction := ⟨[(["f".toList], .add "x\r\n".toList)],
      "*** Begin Patch\n*** Add File: f\n+x\r\n*** End Patch".toList, []⟩
    let hunks : List Hunk := [.addFile "f".toList "x\n".toList]
    let run := applyHunksToFiles noFaults none [] hunks ⟨.empty, []⟩
    maybeParseApplyPatchVerified noShell noFaults none .empty (addFileCommand "x\r\r".toList) [] =
      .body action ∧ (parsePatch action.patch).map (·.hunks) = .ok hunks ∧
      (hunkPaths none [] hunks).Nodup ∧ ∃ affected s', run = .ok affected s' ∧
        ¬ AppliedAsPredicted FileTree.empty.contents s'.tree.contents action.changes := by
  intro action hunks run
  refine ⟨by decide, by decide, by decide, _, _, rfl, ?_⟩
  intro h
  have hadd := h.add ["f".toList] "x\r\n".toList List.mem_cons_self
  revert hadd
  decide

end Supercodex.ApplyPatch
