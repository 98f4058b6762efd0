import Supercodex.Path.AbsolutePath
import Supercodex.Library.FileTree
import Supercodex.Library.MostSpecific

/-!
# File-system sandbox policies (`protocol/src/permissions.rs`)

A policy lists paths with the access they give. Entries are resolved to absolute paths first; the
most specific entry above a path then decides, and of equally specific ones the mode with the
higher conflict precedence. The file tree has no links, so `normalize_effective_absolute_path` and
`canonicalize` return the path they are given.
-/

namespace Supercodex.Permissions

open Supercodex.Path Text

/-- What resolving a policy reads besides the policy: the home and the current directory,
`TMPDIR`, and the file tree. -/
structure Env where
  home : Option AbsolutePath
  currentDir : Option AbsolutePath
  tmpdir : Option Text
  tree : FileTree

/-- `FileSystemAccessMode`, in the order of conflict precedence. -/
inductive FileSystemAccessMode where
  | read
  | write
  | none
deriving DecidableEq

namespace FileSystemAccessMode

/-- The rank by which the derived `Ord` compares modes. -/
def rank : FileSystemAccessMode → ℕ
  | read => 0
  | write => 1
  | none => 2

instance : LinearOrder FileSystemAccessMode :=
  LinearOrder.lift' rank (by intro a b; cases a <;> cases b <;> simp [rank])

/-- `FileSystemAccessMode::can_read`. -/
def canRead : FileSystemAccessMode → Bool
  | none => false
  | _ => true

/-- `FileSystemAccessMode::can_write`. -/
def canWrite : FileSystemAccessMode → Bool
  | write => true
  | _ => false

/-- How much an access permits: nothing, reading, or writing too. -/
def capability : FileSystemAccessMode → ℕ
  | none => 0
  | read => 1
  | write => 2

@[simp] lemma canWrite_iff (m : FileSystemAccessMode) : m.canWrite = true ↔ m = write := by
  cases m <;> simp [canWrite]

@[simp] lemma canRead_iff (m : FileSystemAccessMode) : m.canRead = true ↔ m ≠ none := by
  cases m <;> simp [canRead]

end FileSystemAccessMode

/-- `FileSystemSpecialPath`. -/
inductive FileSystemSpecialPath where
  | root
  | minimal
  | currentWorkingDirectory
  | projectRoots (subpath : Option Text)
  | tmpdir
  | slashTmp
  | unknown (path : Text) (subpath : Option Text)
deriving DecidableEq

/-- `FileSystemPath`. -/
inductive FileSystemPath where
  | path (path : AbsolutePath)
  | globPattern (pattern : Text)
  | special (value : FileSystemSpecialPath)
deriving DecidableEq

/-- `FileSystemSandboxEntry`. -/
structure FileSystemSandboxEntry where
  path : FileSystemPath
  access : FileSystemAccessMode
deriving DecidableEq

/-- `FileSystemSandboxKind`. -/
inductive FileSystemSandboxKind where
  | restricted
  | unrestricted
  | externalSandbox
deriving DecidableEq

/-- `FileSystemSandboxPolicy`. -/
structure FileSystemSandboxPolicy where
  kind : FileSystemSandboxKind
  globScanMaxDepth : Option ℕ
  entries : List FileSystemSandboxEntry
deriving DecidableEq

/-- `ResolvedFileSystemEntry`: an absolute path with its access. -/
abbrev ResolvedFileSystemEntry := PathRule Text FileSystemAccessMode

/-- `WritableRoot`. -/
structure WritableRoot where
  root : AbsolutePath
  readOnlySubpaths : List AbsolutePath
deriving DecidableEq

/-- `WritableRoot::is_path_writable`. -/
def WritableRoot.isPathWritable (w : WritableRoot) (path : AbsolutePath) : Bool :=
  w.root.isPrefixOf path && !w.readOnlySubpaths.any (·.isPrefixOf path)

/-- `dedup_absolute_paths`: the first occurrence of each path stays. -/
def dedupAbsolutePaths (paths : List AbsolutePath) : List AbsolutePath :=
  paths.foldl (fun deduped path => if path ∈ deduped then deduped else deduped ++ [path]) []

/-! ## Entries -/

section
variable (env : Env) (cwd : AbsolutePath)

/-- `resolve_file_system_special_path`. -/
def resolveFileSystemSpecialPath : FileSystemSpecialPath → Option AbsolutePath
  | .root | .minimal | .unknown _ _ => none
  | .currentWorkingDirectory => some cwd
  | .projectRoots (some subpath) => some (resolvePathAgainstBase env.home subpath cwd)
  | .projectRoots none => some cwd
  | .tmpdir =>
    env.tmpdir.bind fun tmpdir =>
      if tmpdir = [] then none else fromAbsolutePath env.home env.currentDir tmpdir
  | .slashTmp =>
    let slashTmp : AbsolutePath := ["tmp".toList]
    if env.tree.isDir slashTmp then some slashTmp else none

/-- `resolve_file_system_path`. -/
def resolveFileSystemPath : FileSystemPath → Option AbsolutePath
  | .path path => some path
  | .globPattern _ => none
  | .special value => resolveFileSystemSpecialPath env cwd value

/-- `resolve_entry_path`: the root of the file system has a path too. -/
def resolveEntryPath : FileSystemPath → Option AbsolutePath
  | .special .root => some []
  | path => resolveFileSystemPath env cwd path

end

/-- `==` of subpaths. -/
def sameSubpath : Option Text → Option Text → Bool
  | some left, some right => samePath left right
  | none, none => true
  | _, _ => false

/-- `special_paths_share_target`. -/
def specialPathsShareTarget : FileSystemSpecialPath → FileSystemSpecialPath → Bool
  | .root, .root | .minimal, .minimal | .currentWorkingDirectory, .currentWorkingDirectory
  | .tmpdir, .tmpdir | .slashTmp, .slashTmp => true
  | .currentWorkingDirectory, .projectRoots none
  | .projectRoots none, .currentWorkingDirectory => true
  | .projectRoots left, .projectRoots right => sameSubpath left right
  | .unknown left leftSubpath, .unknown right rightSubpath =>
    left = right && sameSubpath leftSubpath rightSubpath
  | _, _ => false

/-- `special_path_matches_absolute_path`. -/
def specialPathMatchesAbsolutePath (value : FileSystemSpecialPath) (path : AbsolutePath) : Bool :=
  match value with
  | .root => path = []
  | .slashTmp => path = ["tmp".toList]
  | _ => false

/-- `file_system_paths_share_target`. -/
def fileSystemPathsShareTarget : FileSystemPath → FileSystemPath → Bool
  | .path left, .path right => left = right
  | .special left, .special right => specialPathsShareTarget left right
  | .path path, .special value | .special value, .path path =>
    specialPathMatchesAbsolutePath value path
  | .globPattern left, .globPattern right => left = right
  | .globPattern _, _ | _, .globPattern _ => false

/-! ## Protected subpaths -/

def dotGit : Text := ".git".toList
def dotAgents : Text := ".agents".toList
def dotCodex : Text := ".codex".toList

/-- `str::split_once(':')`, the part behind the colon. -/
def afterColon (t : Text) : Option Text :=
  match t.dropWhile (· ≠ ':') with
  | [] => none
  | _ :: rest => some rest

/-- `resolve_gitdir_from_file` for the `.git` file in `base`. -/
def resolveGitdirFromFile (env : Env) (base : AbsolutePath) : Option AbsolutePath :=
  (env.tree.readToString (base ++ [dotGit])).bind fun contents =>
    (afterColon (trim contents)).bind fun gitdirRaw =>
      if trim gitdirRaw = [] then none
      else
        let gitdirPath := resolvePathAgainstBase env.home (trim gitdirRaw) base
        if env.tree.pathExists gitdirPath then some gitdirPath else none

/-- `default_read_only_subpaths_for_writable_root`. -/
def defaultReadOnlySubpathsForWritableRoot (env : Env) (root : AbsolutePath)
    (protectMissingDotCodex : Bool) : List AbsolutePath :=
  let git :=
    if env.tree.isFile (root ++ [dotGit]) then
      (resolveGitdirFromFile env root).toList ++ [root ++ [dotGit]]
    else if env.tree.isDir (root ++ [dotGit]) then [root ++ [dotGit]]
    else []
  let agents := if env.tree.isDir (root ++ [dotAgents]) then [root ++ [dotAgents]] else []
  let codex :=
    if protectMissingDotCodex || env.tree.isDir (root ++ [dotCodex]) then [root ++ [dotCodex]]
    else []
  dedupAbsolutePaths (git ++ agents ++ codex)

/-! ## Policies -/

namespace FileSystemSandboxPolicy

/-- `FileSystemSandboxPolicy::restricted`. -/
def restricted (entries : List FileSystemSandboxEntry) : FileSystemSandboxPolicy :=
  ⟨.restricted, none, entries⟩

variable (policy : FileSystemSandboxPolicy)

/-- `has_root_access`. -/
def hasRootAccess (predicate : FileSystemAccessMode → Bool) : Bool :=
  policy.kind = .restricted &&
    policy.entries.any fun entry => entry.path = .special .root && predicate entry.access

/-- `has_denied_read_restrictions`. -/
def hasDeniedReadRestrictions : Bool :=
  policy.kind = .restricted && policy.entries.any fun entry => entry.access = .none

/-- `has_same_target_write_override`. -/
def hasSameTargetWriteOverride (entry : FileSystemSandboxEntry) : Bool :=
  policy.entries.any fun candidate =>
    candidate.access.canWrite && entry.access < candidate.access &&
      fileSystemPathsShareTarget candidate.path entry.path

/-- Does an entry of the policy narrow a write grant for the whole disk? -/
def narrowsWrite (entry : FileSystemSandboxEntry) : Bool :=
  !entry.access.canWrite &&
    match entry.path with
    | .path _ => !policy.hasSameTargetWriteOverride entry
    | .globPattern _ => true
    | .special .root => entry.access = .none
    | .special .minimal | .special (.unknown _ _) => false
    | .special _ => !policy.hasSameTargetWriteOverride entry

/-- `has_write_narrowing_entries`. -/
def hasWriteNarrowingEntries : Bool :=
  policy.kind = .restricted && policy.entries.any policy.narrowsWrite

/-- `has_full_disk_read_access`. -/
def hasFullDiskReadAccess : Bool :=
  match policy.kind with
  | .unrestricted | .externalSandbox => true
  | .restricted =>
    policy.hasRootAccess FileSystemAccessMode.canRead && !policy.hasDeniedReadRestrictions

/-- `has_full_disk_write_access`. -/
def hasFullDiskWriteAccess : Bool :=
  match policy.kind with
  | .unrestricted | .externalSandbox => true
  | .restricted =>
    policy.hasRootAccess FileSystemAccessMode.canWrite && !policy.hasWriteNarrowingEntries

/-- `include_platform_defaults`. -/
def includePlatformDefaults : Bool :=
  !policy.hasFullDiskReadAccess && policy.kind = .restricted &&
    policy.entries.any fun entry => entry.path = .special .minimal && entry.access.canRead

variable (env : Env) (cwd : AbsolutePath)

/-- `resolved_entries_with_cwd`. -/
def resolvedEntriesWithCwd : List ResolvedFileSystemEntry :=
  policy.entries.filterMap fun entry =>
    (resolveEntryPath env cwd entry.path).map fun path => ⟨path, entry.access⟩

/-- The access of a path that no entry or the entry `e` decides. -/
def accessOf (e : Option ResolvedFileSystemEntry) : FileSystemAccessMode :=
  e.elim .none (·.mode)

/-- `resolve_access_with_cwd`. -/
def resolveAccessWithCwd (path : AbsolutePath) : FileSystemAccessMode :=
  match policy.kind with
  | .unrestricted | .externalSandbox => .write
  | .restricted => accessOf (PathRule.resolve (policy.resolvedEntriesWithCwd env cwd) path)

/-- `can_read_path_with_cwd`. -/
def canReadPathWithCwd (path : AbsolutePath) : Bool :=
  (policy.resolveAccessWithCwd env cwd path).canRead

/-- `can_write_path_with_cwd`. -/
def canWritePathWithCwd (path : AbsolutePath) : Bool :=
  (policy.resolveAccessWithCwd env cwd path).canWrite

/-- `get_readable_roots_with_cwd`. -/
def getReadableRootsWithCwd : List AbsolutePath :=
  if policy.hasFullDiskReadAccess then []
  else
    dedupAbsolutePaths (((policy.resolvedEntriesWithCwd env cwd).filter fun entry =>
      entry.mode.canRead && policy.canReadPathWithCwd env cwd entry.path).map (·.path))

/-- The read-only subpaths that a writable root gets without an entry of its own. -/
def defaultCarveouts (root : AbsolutePath) : List AbsolutePath :=
  (defaultReadOnlySubpathsForWritableRoot env root (cwd = root)).filter fun path =>
    !(policy.resolvedEntriesWithCwd env cwd).any (·.path = path)

/-- The entries that keep a part of a writable root from being written. -/
def explicitCarveouts (root : AbsolutePath) : List AbsolutePath :=
  ((policy.resolvedEntriesWithCwd env cwd).filter fun entry =>
    !entry.mode.canWrite && !policy.canWritePathWithCwd env cwd entry.path &&
      (entry.path ≠ root && root.isPrefixOf entry.path)).map (·.path)

/-- `get_writable_roots_with_cwd`. Without links a carve-out is the entry's own path, below
every spelling of the root. -/
def getWritableRootsWithCwd : List WritableRoot :=
  if policy.hasFullDiskWriteAccess then []
  else
    (dedupAbsolutePaths (((policy.resolvedEntriesWithCwd env cwd).filter fun entry =>
      entry.mode.canWrite && policy.canWritePathWithCwd env cwd entry.path).map (·.path))).map
      fun root => ⟨root, dedupAbsolutePaths
        (policy.defaultCarveouts env cwd root ++ policy.explicitCarveouts env cwd root)⟩

/-- `get_unreadable_roots_with_cwd`. -/
def getUnreadableRootsWithCwd : List AbsolutePath :=
  if policy.kind ≠ .restricted then []
  else
    dedupAbsolutePaths (((policy.resolvedEntriesWithCwd env cwd).filter fun entry =>
      entry.mode = .none && !policy.canReadPathWithCwd env cwd entry.path &&
        entry.path ≠ []).map (·.path))

end FileSystemSandboxPolicy

/-- `get_unreadable_globs_with_cwd`, up to the order of the patterns. -/
def getUnreadableGlobsWithCwd (env : Env) (cwd : AbsolutePath)
    (policy : FileSystemSandboxPolicy) : List Text :=
  if policy.kind ≠ .restricted then []
  else
    (policy.entries.filter (·.access = .none)).filterMap fun entry =>
      match entry.path with
      | .globPattern pattern => some (toText (resolvePathAgainstBase env.home pattern cwd))
      | .path _ | .special _ => none

end Supercodex.Permissions
