import Supercodex.Permissions.Policy
import Supercodex.Library.Overlay
import Mathlib.Data.List.Sort

/-!
# The bubblewrap mounts (`linux-sandbox/src/bwrap.rs`)

The arguments for bubblewrap are mounts in the order in which it performs them: a read-only base,
masks over denied directories around writable roots, the writable roots by depth, each with its
read-only and its denied subpaths, and masks over the remaining denied paths. The file tree has no
links, so every path is its own mount target.
-/

namespace Supercodex.LinuxSandbox

open Supercodex.Path Permissions

/-- An option of bubblewrap with its operands. -/
inductive BwrapArg where
  | roBind (src dst : AbsolutePath)
  | bind (src dst : AbsolutePath)
  | roBindData (dst : AbsolutePath)
  | tmpfs (dst : AbsolutePath)
  | dev (dst : AbsolutePath)
  | dir (dst : AbsolutePath)
  | perms (mode : Text)
  | remountRo (dst : AbsolutePath)
deriving DecidableEq

/-- Why no arguments could be built. -/
inductive BwrapError where
  | openDevNull
  | globScan (message : Text)
deriving DecidableEq

def slashDev : AbsolutePath := ["dev".toList]
def slashProc : AbsolutePath := ["proc".toList]
def devNull : AbsolutePath := ["dev".toList, "null".toList]

/-- `LINUX_PLATFORM_DEFAULT_READ_ROOTS`. -/
def linuxPlatformDefaultReadRoots : List AbsolutePath :=
  [ ["bin".toList], ["sbin".toList], ["usr".toList], ["etc".toList], ["lib".toList],
    ["lib64".toList], ["nix".toList, "store".toList],
    ["run".toList, "current-system".toList, "sw".toList] ]

/-- `path_depth`: the root counts as a component. -/
def pathDepth (path : AbsolutePath) : ℕ := path.length + 1

/-- `sort_by_key` with the depth of a path, which is stable. -/
def sortByDepth (paths : List AbsolutePath) : List AbsolutePath :=
  paths.insertionSort fun a b => pathDepth a ≤ pathDepth b

/-- `Path::ancestors`. -/
def ancestors (path : AbsolutePath) : List AbsolutePath := path.inits.reverse

/-! ## Arguments for one path -/

section
variable (env : Env)

/-- `append_mount_target_parent_dir_args`. -/
def mountTargetParentDirArgs (mountTarget anchor : AbsolutePath) : List BwrapArg :=
  let mountTargetDir :=
    if env.tree.isDir mountTarget then some mountTarget
    else if mountTarget = [] then none
    else some mountTarget.dropLast
  match mountTargetDir with
  | some dir => ((ancestors dir).takeWhile (· ≠ anchor)).reverse.map .dir
  | none => []

/-- `find_first_non_existent_component`. The root of the tree always exists. -/
def findFirstNonExistentComponent (targetPath : AbsolutePath) : Option AbsolutePath :=
  targetPath.inits.find? fun current => !env.tree.pathExists current

/-- `is_within_allowed_write_paths`. -/
def isWithinAllowedWritePaths (path : AbsolutePath) (allowedWritePaths : List AbsolutePath) :
    Bool :=
  allowedWritePaths.any (·.isPrefixOf path)

variable (allowedWritePaths : List AbsolutePath)

/-- The branch for a missing path in `append_read_only_subpath_args` and in
`append_unreadable_root_args`. -/
def missingPathArgs (path : AbsolutePath) : List BwrapArg :=
  match findFirstNonExistentComponent env path with
  | some firstMissingComponent =>
    if isWithinAllowedWritePaths firstMissingComponent allowedWritePaths then
      [.roBind devNull firstMissingComponent]
    else []
  | none => []

/-- `append_read_only_subpath_args`. -/
def readOnlySubpathArgs (subpath : AbsolutePath) : List BwrapArg :=
  if !env.tree.pathExists subpath then missingPathArgs env allowedWritePaths subpath
  else if isWithinAllowedWritePaths subpath allowedWritePaths then [.roBind subpath subpath]
  else []

/-- `append_existing_unreadable_path_args`. -/
def existingUnreadablePathArgs (unreadableRoot : AbsolutePath) :
    Except BwrapError (List BwrapArg) :=
  if env.tree.isDir unreadableRoot then
    let writableDescendants := sortByDepth (allowedWritePaths.filter fun path =>
      path ≠ unreadableRoot && unreadableRoot.isPrefixOf path)
    let mode := if writableDescendants.isEmpty then "000".toList else "111".toList
    .ok ([.perms mode, .tmpfs unreadableRoot] ++
      writableDescendants.flatMap (mountTargetParentDirArgs env · unreadableRoot) ++
      [.remountRo unreadableRoot])
  else if env.tree.pathExists devNull then
    .ok [.perms "000".toList, .roBindData unreadableRoot]
  else .error .openDevNull

/-- `append_unreadable_root_args`. -/
def unreadableRootArgs (unreadableRoot : AbsolutePath) : Except BwrapError (List BwrapArg) :=
  if !env.tree.pathExists unreadableRoot then
    .ok (missingPathArgs env allowedWritePaths unreadableRoot)
  else existingUnreadablePathArgs env allowedWritePaths unreadableRoot

/-- `append_unreadable_root_args` for one path after another. -/
def unreadableRootsArgs (unreadableRoots : List AbsolutePath) :
    Except BwrapError (List BwrapArg) := do
  let args ← unreadableRoots.mapM (unreadableRootArgs env allowedWritePaths)
  return args.flatten

/-! ## Arguments for one writable root -/

/-- The last of the deepest unreadable roots above a path. -/
def maskingRoot (unreadableRoots : List AbsolutePath) (root : AbsolutePath) :
    Option AbsolutePath :=
  (unreadableRoots.filter (·.isPrefixOf root)).foldl (fun best path =>
    match best with
    | none => some path
    | some best => if pathDepth best ≤ pathDepth path then some path else some best) none

/-- The directories to recreate in a mask before a writable root is bound below it. -/
def maskedParentDirArgs (unreadableRoots : List AbsolutePath) (root : AbsolutePath) :
    List BwrapArg :=
  match maskingRoot unreadableRoots root with
  | some maskingRoot => mountTargetParentDirArgs env root maskingRoot
  | none => []

/-- The turn of the loop over the writable roots. -/
def writableRootArgs (unreadableRoots : List AbsolutePath) (writableRoot : WritableRoot) :
    Except BwrapError (List BwrapArg) := do
  let root := writableRoot.root
  let readOnlySubpaths :=
    sortByDepth (writableRoot.readOnlySubpaths.filter fun path => path ∉ unreadableRoots)
  let nestedUnreadableRoots := sortByDepth (unreadableRoots.filter fun path => root.isPrefixOf path)
  let masks ← unreadableRootsArgs env allowedWritePaths nestedUnreadableRoots
  return maskedParentDirArgs env unreadableRoots root ++ [.bind root root] ++
    readOnlySubpaths.flatMap (readOnlySubpathArgs env allowedWritePaths) ++ masks

end

/-! ## The whole view -/

section
variable (policy : FileSystemSandboxPolicy) (env : Env) (cwd : AbsolutePath)

/-- The platform defaults that a policy makes readable. -/
def includedPlatformDefaults : List AbsolutePath :=
  if policy.includePlatformDefaults then
    linuxPlatformDefaultReadRoots.filter (env.tree.pathExists ·)
  else []

/-- The mounts below the writable roots. -/
def baseArgs : List BwrapArg :=
  if policy.hasFullDiskReadAccess then [.roBind [] [], .dev slashDev]
  else
    let readableRoots := ((policy.getReadableRootsWithCwd env cwd ++
      includedPlatformDefaults policy env).insertionSort (· ≤ ·)).dedup
    if [] ∈ readableRoots then [.roBind [] [], .dev slashDev]
    else [.tmpfs [], .dev slashDev] ++
      (readableRoots.filter (env.tree.pathExists ·)).map fun root => .roBind root root

/-- The writable roots that exist. With full write access and denied globs it is the whole disk. -/
def existingWritableRoots : List WritableRoot :=
  let writableRoots :=
    (policy.getWritableRootsWithCwd env cwd).filter fun w => env.tree.pathExists w.root
  if writableRoots.isEmpty && policy.hasFullDiskWriteAccess &&
      !(getUnreadableGlobsWithCwd env cwd policy).isEmpty then
    [⟨[], []⟩]
  else writableRoots

/-- The writable roots in the order in which they are mounted. -/
def sortedWritableRoots : List WritableRoot :=
  (existingWritableRoots policy env cwd).insertionSort fun a b =>
    pathDepth a.root ≤ pathDepth b.root

/-- `expand_unreadable_globs_with_ripgrep`, which scans the disk by `ripgrepFiles`. -/
def expandUnreadableGlobsWithRipgrep
    (ripgrepFiles : List Text → AbsolutePath → Option ℕ → Except BwrapError (List AbsolutePath))
    (patterns : List Text) (maxDepth : Option ℕ) : Except BwrapError (List AbsolutePath) :=
  if patterns.isEmpty || maxDepth = some 0 then .ok [] else ripgrepFiles patterns cwd maxDepth

/-- The denied paths, sorted and without duplicates. -/
def sortedUnreadableRoots (expanded : List AbsolutePath) : List AbsolutePath :=
  ((policy.getUnreadableRootsWithCwd env cwd ++ expanded).insertionSort (· ≤ ·)).dedup

/-- `create_filesystem_args`. -/
def createFilesystemArgs
    (ripgrepFiles : List Text → AbsolutePath → Option ℕ → Except BwrapError (List AbsolutePath))
    (globScanMaxDepth : Option ℕ) : Except BwrapError (List BwrapArg) := do
  let expanded ← expandUnreadableGlobsWithRipgrep cwd ripgrepFiles
    (getUnreadableGlobsWithCwd env cwd policy) globScanMaxDepth
  let unreadableRoots := sortedUnreadableRoots policy env cwd expanded
  let allowedWritePaths := (existingWritableRoots policy env cwd).map (·.root)
  let unreadableAncestorsOfWritableRoots := sortByDepth (unreadableRoots.filter fun path =>
    !allowedWritePaths.any (·.isPrefixOf path) && allowedWritePaths.any (path.isPrefixOf ·))
  let ancestorMasks ← unreadableRootsArgs env allowedWritePaths unreadableAncestorsOfWritableRoots
  let rootArgs ← (sortedWritableRoots policy env cwd).mapM
    (writableRootArgs env allowedWritePaths unreadableRoots)
  let rootlessUnreadableRoots := sortByDepth (unreadableRoots.filter fun path =>
    !allowedWritePaths.any fun root => root.isPrefixOf path || path.isPrefixOf root)
  let rootlessMasks ← unreadableRootsArgs env allowedWritePaths rootlessUnreadableRoots
  return baseArgs policy env cwd ++ ancestorMasks ++ rootArgs.flatten ++ rootlessMasks

end

/-! ## What the sandboxed process sees -/

/-- How a path of the host shows in the sandbox. -/
inductive Exposure where
  | writable
  | readOnly
  /-- Other data or devices stand in its place. -/
  | replaced
  | hidden
deriving DecidableEq

/-- The layer that an option puts over the tree. -/
def BwrapArg.layer : BwrapArg → Option (Layer Text Exposure)
  | .roBind src dst => some ⟨dst, if src = dst then .readOnly else .replaced⟩
  | .bind src dst => some ⟨dst, if src = dst then .writable else .replaced⟩
  | .roBindData dst => some ⟨dst, .replaced⟩
  | .dev dst => some ⟨dst, .replaced⟩
  | .tmpfs dst => some ⟨dst, .hidden⟩
  | .dir _ | .perms _ | .remountRo _ => none

/-- How a path shows after all mounts have been performed in order. -/
def exposure (args : List BwrapArg) (p : AbsolutePath) : Option Exposure :=
  Layer.view (args.filterMap BwrapArg.layer) p

end Supercodex.LinuxSandbox
