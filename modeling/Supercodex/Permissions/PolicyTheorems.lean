import Supercodex.Library.FirstOccurrences
import Supercodex.Permissions.Policy

/-!
# Writable roots and the policy they come from

Resolving a path picks the most specific entry; `getWritableRootsWithCwd` turns the writable
entries into roots and the entries below them into carve-outs. The two agree on every path, up to
the subpaths that a root protects without an entry.
-/

namespace Supercodex.Permissions

open Supercodex.Path PathRule FileSystemAccessMode

/-! ## Paths without duplicates -/

lemma dedupAbsolutePaths_eq (paths : List AbsolutePath) :
    dedupAbsolutePaths paths = firstOccurrences paths := rfl

variable {p : AbsolutePath}

@[simp] lemma mem_dedupAbsolutePaths {paths : List AbsolutePath} :
    p ∈ dedupAbsolutePaths paths ↔ p ∈ paths := by
  rw [dedupAbsolutePaths_eq, FirstOccurrences.mem_iff]

/-! ## Access by resolved entries -/

/-- The access that resolved entries give a path. -/
def access (rules : List ResolvedFileSystemEntry) (p : AbsolutePath) : FileSystemAccessMode :=
  FileSystemSandboxPolicy.accessOf (PathRule.resolve rules p)

variable {rules : List ResolvedFileSystemEntry}

lemma access_of_decides {e : ResolvedFileSystemEntry} (h : PathRule.Decides rules p e)
    : access rules p = e.mode := by
  unfold access
  rw [h.resolve_eq]
  rfl

lemma exists_decides_of_access (h : access rules p ≠ .none)
    : ∃ e, PathRule.Decides rules p e ∧ e.mode = access rules p := by
  unfold access at h ⊢
  cases hr : resolve rules p with
  | none =>
    rw [hr] at h
    exact absurd rfl h
  | some e => exact ⟨e, decides_of_resolve hr, rfl⟩

lemma access_of_none_mem {u : ResolvedFileSystemEntry}
    (hu : u ∈ rules) (hmode : u.mode = .none) : access rules u.path = .none := by
  obtain ⟨e, -, hd⟩ := exists_decides hu (List.prefix_refl u.path)
  rw [access_of_decides hd]
  rcases hd.longest u hu (List.prefix_refl _) with hlt | ⟨-, hle⟩
  · have := hd.covers.length_le
    omega
  · rw [hmode] at hle
    revert hle
    cases e.mode <;> decide

/-! ## Globs -/

/-- No entry is a glob. -/
def NoGlobs (entries : List FileSystemSandboxEntry) : Prop :=
  ∀ e ∈ entries, ∀ pattern, e.path ≠ .globPattern pattern

lemma getUnreadableGlobs_eq_nil {policy : FileSystemSandboxPolicy} {env : Env} {cwd : AbsolutePath}
    (h : NoGlobs policy.entries) : getUnreadableGlobsWithCwd env cwd policy = [] := by
  unfold getUnreadableGlobsWithCwd
  split
  · rfl
  rw [List.filterMap_eq_nil_iff]
  intro e he
  have hne := h e (List.mem_of_mem_filter he)
  split
  · rename_i pattern hpath
    exact absurd hpath (hne pattern)
  · rfl
  · rfl

/-! ## Protected subpaths -/

/-- `d` is one of the subpaths that a writable root protects by default: `.git`, `.agents` and
`.codex`, and the directory that a `.git` file names. -/
def IsDefaultSubpath (env : Env) (root d : AbsolutePath) : Prop :=
  d = root ++ [dotGit] ∨ d = root ++ [dotAgents] ∨ d = root ++ [dotCodex] ∨
    (env.tree.isFile (root ++ [dotGit]) = true ∧ resolveGitdirFromFile env root = some d)

lemma isDefaultSubpath_of_mem {env : Env} {root d : AbsolutePath} {protectMissing : Bool}
    (h : d ∈ defaultReadOnlySubpathsForWritableRoot env root protectMissing) :
    IsDefaultSubpath env root d := by
  unfold defaultReadOnlySubpathsForWritableRoot at h
  simp only [mem_dedupAbsolutePaths, List.mem_append] at h
  unfold IsDefaultSubpath
  rcases h with (h | h) | h
  · split at h
    · rename_i hfile
      rw [List.mem_append, Option.mem_toList, List.mem_singleton] at h
      rcases h with h | h
      · exact Or.inr (Or.inr (Or.inr ⟨hfile, h⟩))
      · exact Or.inl h
    · split at h
      · exact Or.inl (List.mem_singleton.mp h)
      · simp at h
  · split at h
    · exact Or.inr (Or.inl (List.mem_singleton.mp h))
    · simp at h
  · split at h
    · exact Or.inr (Or.inr (Or.inl (List.mem_singleton.mp h)))
    · simp at h

namespace FileSystemSandboxPolicy

variable {policy : FileSystemSandboxPolicy} {env : Env} {cwd p : AbsolutePath}

/-! ## Resolved access -/

section

variable (hkind : policy.kind = .restricted)
include hkind

lemma resolveAccess_of_restricted :
    policy.resolveAccessWithCwd env cwd p = access (policy.resolvedEntriesWithCwd env cwd) p := by
  unfold resolveAccessWithCwd
  rw [hkind]
  rfl

lemma resolveAccess_of_decides {e : ResolvedFileSystemEntry}
    (he : PathRule.Decides (policy.resolvedEntriesWithCwd env cwd) p e) :
    policy.resolveAccessWithCwd env cwd p = e.mode := by
  rw [resolveAccess_of_restricted hkind, access_of_decides he]

/-- Any access but `none` comes from a deciding entry. -/
lemma exists_decides_of_ne_none (h : policy.resolveAccessWithCwd env cwd p ≠ .none) :
    ∃ e, PathRule.Decides (policy.resolvedEntriesWithCwd env cwd) p e ∧
      e.mode = policy.resolveAccessWithCwd env cwd p := by
  rw [resolveAccess_of_restricted hkind] at h ⊢
  exact exists_decides_of_access h

end

lemma canWritePath_iff :
    policy.canWritePathWithCwd env cwd p = true ↔
      policy.resolveAccessWithCwd env cwd p = .write := by
  unfold canWritePathWithCwd
  rw [canWrite_iff]

lemma canReadPath_iff :
    policy.canReadPathWithCwd env cwd p = true ↔
      policy.resolveAccessWithCwd env cwd p ≠ .none := by
  unfold canReadPathWithCwd
  rw [canRead_iff]

lemma canReadPath_of_canWritePath (h : policy.canWritePathWithCwd env cwd p = true) :
    policy.canReadPathWithCwd env cwd p = true := by
  rw [canWritePath_iff] at h
  rw [canReadPath_iff, h]
  simp

lemma mem_getUnreadableRoots {u : AbsolutePath} (hkind : policy.kind = .restricted) :
    u ∈ policy.getUnreadableRootsWithCwd env cwd ↔
      (∃ e ∈ policy.resolvedEntriesWithCwd env cwd, e.path = u ∧ e.mode = .none) ∧
        policy.canReadPathWithCwd env cwd u = false ∧ u ≠ [] := by
  unfold getUnreadableRootsWithCwd
  rw [if_neg (by simp [hkind]), mem_dedupAbsolutePaths, List.mem_map]
  simp only [List.mem_filter, Bool.and_eq_true, decide_eq_true_eq, Bool.not_eq_true']
  constructor
  · intro ⟨e, ⟨hmem, ⟨hmode, hread⟩, hne⟩, hu⟩
    rw [← hu]
    exact ⟨⟨e, hmem, rfl, hmode⟩, hread, hne⟩
  · intro ⟨⟨e, hmem, hu, hmode⟩, hread, hne⟩
    rw [← hu] at hread hne
    exact ⟨e, ⟨hmem, ⟨hmode, hread⟩, hne⟩, hu⟩

lemma exists_unreadable_below (hkind : policy.kind = .restricted) {r : ResolvedFileSystemEntry}
    (hr : r ∈ policy.resolvedEntriesWithCwd env cwd)
    (hread : policy.canReadPathWithCwd env cwd r.path = true) (hrp : r.path <+: p)
    (hdenied : policy.canReadPathWithCwd env cwd p = false) :
    ∃ u ∈ policy.getUnreadableRootsWithCwd env cwd, r.path <+: u ∧ u <+: p := by
  obtain ⟨e, -, hd⟩ := exists_decides hr hrp
  have hmode : e.mode = .none := by
    rw [← Bool.not_eq_true, canReadPath_iff, not_not, resolveAccess_of_decides hkind hd] at hdenied
    exact hdenied
  have hself : policy.canReadPathWithCwd env cwd e.path = false := by
    rw [← Bool.not_eq_true, canReadPath_iff, not_not, resolveAccess_of_decides hkind hd.self]
    exact hmode
  have habove : r.path <+: e.path := hd.prefix_of_covers hr hrp
  refine ⟨e.path, (mem_getUnreadableRoots hkind).mpr ⟨⟨e, hd.mem, rfl, hmode⟩, hself, ?_⟩,
    habove, hd.covers⟩
  -- an entry at the root of the disk would deny the entry above as well
  intro hroot
  rw [hroot, List.prefix_nil] at habove
  rw [habove, ← hroot, hself] at hread
  cases hread

lemma exists_entry_of_mem_getReadableRoots {r : AbsolutePath}
    (h : r ∈ policy.getReadableRootsWithCwd env cwd) :
    ∃ e ∈ policy.resolvedEntriesWithCwd env cwd, e.path = r ∧
      policy.canReadPathWithCwd env cwd r = true := by
  unfold getReadableRootsWithCwd at h
  split at h
  · cases h
  rw [mem_dedupAbsolutePaths, List.mem_map] at h
  obtain ⟨e, he, rfl⟩ := h
  simp only [List.mem_filter, Bool.and_eq_true] at he
  exact ⟨e, he.1, rfl, he.2.2⟩

lemma canReadPath_of_fullDiskRead (hfull : policy.hasFullDiskReadAccess = true)
    (p : AbsolutePath) : policy.canReadPathWithCwd env cwd p = true := by
  unfold hasFullDiskReadAccess at hfull
  cases hkind : policy.kind with
  | unrestricted | externalSandbox => simp [canReadPathWithCwd, resolveAccessWithCwd, hkind]
  | restricted =>
    simp only [hkind, Bool.and_eq_true, Bool.not_eq_true', hasRootAccess,
      hasDeniedReadRestrictions, decide_true, Bool.true_and, List.any_eq_true,
      List.any_eq_false, decide_eq_true_eq] at hfull
    obtain ⟨⟨entry, hentry, hroot, -⟩, hnone⟩ := hfull
    have hmem : (⟨[], entry.access⟩ : ResolvedFileSystemEntry) ∈
        policy.resolvedEntriesWithCwd env cwd := by
      refine List.mem_filterMap.mpr ⟨entry, hentry, ?_⟩
      rw [hroot]
      rfl
    obtain ⟨e, -, hd⟩ := exists_decides hmem (List.nil_prefix (l := p))
    rw [canReadPath_iff, resolveAccess_of_decides hkind hd]
    obtain ⟨source, hsource, heq⟩ := List.mem_filterMap.mp hd.mem
    rw [Option.map_eq_some_iff] at heq
    obtain ⟨path, -, rfl⟩ := heq
    exact hnone source hsource

/-! ## Roots and carve-outs -/

lemma mem_explicitCarveouts {root c : AbsolutePath} :
    c ∈ policy.explicitCarveouts env cwd root ↔
      ∃ e ∈ policy.resolvedEntriesWithCwd env cwd, e.path = c ∧ e.mode ≠ .write ∧
        policy.canWritePathWithCwd env cwd c = false ∧ c ≠ root ∧ root <+: c := by
  unfold explicitCarveouts
  simp only [List.mem_map, List.mem_filter, Bool.and_eq_true, Bool.not_eq_true', decide_eq_true_eq,
    List.isPrefixOf_iff_prefix, ← Bool.not_eq_true, canWrite_iff]
  constructor
  · rintro ⟨e, ⟨hmem, ⟨hmode, hw⟩, hne, hpre⟩, hc⟩
    rw [← hc]
    exact ⟨e, hmem, rfl, hmode, hw, hne, hpre⟩
  · rintro ⟨e, hmem, hc, hmode, hw, hne, hpre⟩
    rw [← hc] at hw hne hpre
    exact ⟨e, ⟨hmem, ⟨hmode, hw⟩, hne, hpre⟩, hc⟩

/-- A writable root is a write entry that is not overridden, with its default and explicit carveouts. -/
lemma mem_getWritableRoots (hfull : policy.hasFullDiskWriteAccess = false) {w : WritableRoot} :
    w ∈ policy.getWritableRootsWithCwd env cwd ↔
      (∃ e ∈ policy.resolvedEntriesWithCwd env cwd, e.path = w.root ∧ e.mode = .write ∧
        policy.canWritePathWithCwd env cwd w.root = true) ∧
      w.readOnlySubpaths = dedupAbsolutePaths (policy.defaultCarveouts env cwd w.root ++
        policy.explicitCarveouts env cwd w.root) := by
  unfold getWritableRootsWithCwd
  simp only [hfull, Bool.false_eq_true, if_false, List.mem_map, mem_dedupAbsolutePaths,
    List.mem_filter, Bool.and_eq_true, canWrite_iff]
  constructor
  · rintro ⟨root, ⟨e, ⟨hmem, hmode, hw⟩, hroot⟩, heq⟩
    rw [← heq]
    exact ⟨⟨e, hmem, hroot, hmode, hroot ▸ hw⟩, rfl⟩
  · rintro ⟨⟨e, hmem, hroot, hmode, hw⟩, hsub⟩
    refine ⟨w.root, ⟨e, ⟨hmem, hmode, hroot ▸ hw⟩, hroot⟩, ?_⟩
    cases w
    rw [← hsub]

lemma hasFullDiskWriteAccess_of_mem {w : WritableRoot}
    (hw : w ∈ policy.getWritableRootsWithCwd env cwd) : policy.hasFullDiskWriteAccess = false := by
  cases hfull : policy.hasFullDiskWriteAccess with
  | false => rfl
  | true =>
    unfold getWritableRootsWithCwd at hw
    rw [if_pos hfull] at hw
    cases hw

lemma isPathWritable_iff (w : WritableRoot) :
    w.isPathWritable p = true ↔ w.root <+: p ∧ ∀ c ∈ w.readOnlySubpaths, ¬ c <+: p := by
  unfold WritableRoot.isPathWritable
  simp [List.isPrefixOf_iff_prefix]

lemma canWritePath_of_not_carved (hkind : policy.kind = .restricted) {root : AbsolutePath}
    (hroot : policy.canWritePathWithCwd env cwd root = true) (hp : root <+: p)
    (hcarve : ∀ c ∈ policy.explicitCarveouts env cwd root, ¬ c <+: p) :
    policy.canWritePathWithCwd env cwd p = true := by
  rw [canWritePath_iff] at hroot
  obtain ⟨er, hdr, hmr⟩ := exists_decides_of_ne_none hkind (by rw [hroot]; simp)
  rw [hroot] at hmr
  -- the entry that decides for `p` lies at or below the one that decides for the root
  obtain ⟨e, -, hd⟩ := exists_decides hdr.mem (hdr.covers.trans hp)
  rw [canWritePath_iff, resolveAccess_of_decides hkind hd]
  by_contra hmode
  by_cases habove : e.path <+: root
  · -- then it decides for the root as well
    have hd' := hd.between habove hp
    rw [hdr.unique hd'] at hmr
    exact hmode hmr
  · -- else it is a carve-out of the root
    have hbelow : root <+: e.path := (List.prefix_or_prefix_of_prefix hp hd.covers).resolve_right
      habove
    refine hcarve e.path ?_ hd.covers
    rw [mem_explicitCarveouts]
    refine ⟨e, hd.mem, rfl, hmode, ?_, ?_, hbelow⟩
    · rw [← Bool.not_eq_true, canWritePath_iff, resolveAccess_of_decides hkind hd.self]
      exact hmode
    · intro heq
      rw [heq] at habove
      exact habove (List.prefix_refl root)

lemma exists_root_of_canWritePath (hkind : policy.kind = .restricted)
    (hfull : policy.hasFullDiskWriteAccess = false)
    (hp : policy.canWritePathWithCwd env cwd p = true) :
    ∃ w ∈ policy.getWritableRootsWithCwd env cwd, w.root <+: p ∧
      ∀ c ∈ policy.explicitCarveouts env cwd w.root, ¬ c <+: p := by
  rw [canWritePath_iff] at hp
  obtain ⟨e, hd, hmode⟩ := exists_decides_of_ne_none hkind (by rw [hp]; simp)
  rw [hp] at hmode
  let subpaths := dedupAbsolutePaths (policy.defaultCarveouts env cwd e.path ++
    policy.explicitCarveouts env cwd e.path)
  refine ⟨⟨e.path, subpaths⟩,
    (mem_getWritableRoots hfull).mpr ⟨⟨e, hd.mem, rfl, hmode, ?_⟩, rfl⟩, hd.covers, ?_⟩
  · rw [canWritePath_iff, resolveAccess_of_decides hkind hd.self, hmode]
  · intro c hc hcp
    rw [mem_explicitCarveouts] at hc
    obtain ⟨e', hmem, hpath, -, -, hne, hbelow⟩ := hc
    -- a carve-out above `p` would be more specific than the deciding entry
    have habove : e'.path <+: e.path := hd.prefix_of_covers hmem (hpath ▸ hcp)
    rw [hpath] at habove
    exact hne (habove.eq_of_length (Nat.le_antisymm habove.length_le hbelow.length_le))

/-- The roots allow only what the policy allows, and all of it outside the default subpaths of a
root above the path. -/
theorem getWritableRoots_agree (policy : FileSystemSandboxPolicy) (env : Env)
    (cwd p : AbsolutePath) (hkind : policy.kind = .restricted)
    (hfull : policy.hasFullDiskWriteAccess = false) :
    ((∃ w ∈ policy.getWritableRootsWithCwd env cwd, w.isPathWritable p = true) →
      policy.canWritePathWithCwd env cwd p = true) ∧
    (policy.canWritePathWithCwd env cwd p = true →
      (∃ w ∈ policy.getWritableRootsWithCwd env cwd, w.isPathWritable p = true) ∨
      ∃ w ∈ policy.getWritableRootsWithCwd env cwd, w.root <+: p ∧
        ∃ d ∈ w.readOnlySubpaths, IsDefaultSubpath env w.root d ∧ d <+: p) := by
  constructor
  · intro ⟨w, hw, hwp⟩
    obtain ⟨⟨e, -, hroot, -, hwrite⟩, hsub⟩ := (mem_getWritableRoots hfull).mp hw
    obtain ⟨hcov, hcarve⟩ := (isPathWritable_iff w).mp hwp
    apply canWritePath_of_not_carved hkind hwrite hcov
    intro c hc
    apply hcarve
    rw [hsub, mem_dedupAbsolutePaths]
    exact List.mem_append_right _ hc
  · intro hp
    obtain ⟨w, hw, hcov, hcarve⟩ := exists_root_of_canWritePath hkind hfull hp
    by_cases hwp : w.isPathWritable p = true
    · exact Or.inl ⟨w, hw, hwp⟩
    -- what hides the path is no explicit carve-out, so it is a default one
    obtain ⟨-, hsub⟩ := (mem_getWritableRoots hfull).mp hw
    rw [isPathWritable_iff] at hwp
    push Not at hwp
    obtain ⟨d, hd, hdp⟩ := hwp hcov
    refine Or.inr ⟨w, hw, hcov, d, hd, ?_, hdp⟩
    rw [hsub, mem_dedupAbsolutePaths, List.mem_append] at hd
    rcases hd with hd | hd
    · exact isDefaultSubpath_of_mem (List.mem_of_mem_filter hd)
    · exact absurd hdp (hcarve d hd)

end FileSystemSandboxPolicy

/-! ## A worktree whose git directory lies in the workspace -/

/-- A workspace `/w` with a `.git` file that names `/w/gd`. -/
def worktreeEnv : Env where
  home := none
  currentDir := none
  tmpdir := none
  tree := .ofNodes [(["w".toList], .dir), (["w".toList, dotGit], .file (.text "gitdir: gd".toList)),
    (["w".toList, "gd".toList], .dir)]

/-- Write access to `/w`. -/
def worktreePolicy : FileSystemSandboxPolicy :=
  .restricted [⟨.path ["w".toList], .write⟩]

/-- The policy lets the workspace's `gd` be written, the roots do not, and it is none of the
three named subpaths. -/
theorem gitdir_not_writable_by_roots :
    let p : AbsolutePath := ["w".toList, "gd".toList, "x".toList]
    worktreePolicy.kind = .restricted ∧ worktreePolicy.hasFullDiskWriteAccess = false ∧
      worktreePolicy.canWritePathWithCwd worktreeEnv [] p = true ∧
      (∀ w ∈ worktreePolicy.getWritableRootsWithCwd worktreeEnv [], w.isPathWritable p = false) ∧
      ∀ w ∈ worktreePolicy.getWritableRootsWithCwd worktreeEnv [],
        ∀ name ∈ [dotGit, dotAgents, dotCodex], ¬ w.root ++ [name] <+: p := by
  decide

/-- For the worktree both directions of the agreement apply. -/
theorem getWritableRoots_agree_worktree :
    let p : AbsolutePath := ["w".toList, "a".toList]
    (worktreePolicy.canWritePathWithCwd worktreeEnv [] p = true →
      (∃ w ∈ worktreePolicy.getWritableRootsWithCwd worktreeEnv [], w.isPathWritable p = true) ∨
      ∃ w ∈ worktreePolicy.getWritableRootsWithCwd worktreeEnv [], w.root <+: p ∧
        ∃ d ∈ w.readOnlySubpaths, IsDefaultSubpath worktreeEnv w.root d ∧ d <+: p) :=
  (FileSystemSandboxPolicy.getWritableRoots_agree worktreePolicy worktreeEnv []
    ["w".toList, "a".toList] rfl (by decide)).2

end Supercodex.Permissions
