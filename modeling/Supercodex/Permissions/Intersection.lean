import Supercodex.Permissions.PolicyTheorems
import Mathlib.Data.PNat.Defs

/-!
# Intersections of permission profiles (`sandboxing/src/policy_transforms.rs`)

A granted profile is cut down to a requested one entry by entry: an entry that grants access stays
if the request covers it at the entry's own path, and the entries of both profiles that deny access
stay where they overlap with one that was kept.
-/

namespace Supercodex.Permissions

open Supercodex.Path Text

/-- `NetworkPermissions`. -/
structure NetworkPermissions where
  enabled : Option Bool
deriving DecidableEq

/-- `FileSystemPermissions`. -/
structure FileSystemPermissions where
  entries : List FileSystemSandboxEntry
  globScanMaxDepth : Option ℕ+
deriving DecidableEq

/-- `PermissionProfile`. -/
structure PermissionProfile where
  network : Option NetworkPermissions
  fileSystem : Option FileSystemPermissions
deriving DecidableEq

/-- `FileSystemPermissions::default`. -/
def FileSystemPermissions.default : FileSystemPermissions := ⟨[], none⟩

/-- The entries of a profile. -/
def PermissionProfile.entries (profile : PermissionProfile) : List FileSystemSandboxEntry :=
  profile.fileSystem.elim [] (·.entries)

/-- The restricted policy with the entries of a profile. -/
def PermissionProfile.policy (profile : PermissionProfile) : FileSystemSandboxPolicy :=
  .restricted profile.entries

/-- Does a profile enable the network? -/
def PermissionProfile.networkEnabled (profile : PermissionProfile) : Bool :=
  profile.network = some ⟨some true⟩

section
variable (buildGlobMatcher : Text → Option (Text → Bool)) (env : Env) (cwd : AbsolutePath)

/-! ## Denied reads -/

/-- `ReadDenyMatcher::is_read_denied` of the matcher for a policy; a policy that denies no reads
has none. -/
def isReadDenied (policy : FileSystemSandboxPolicy) (path : AbsolutePath) : Bool :=
  let patterns := getUnreadableGlobsWithCwd env cwd policy
  policy.hasDeniedReadRestrictions &&
    -- a malformed pattern denies everything
    (patterns.any (fun pattern => (buildGlobMatcher pattern).isNone) ||
      (policy.getUnreadableRootsWithCwd env cwd).any (·.isPrefixOf path) ||
      patterns.any fun pattern => (buildGlobMatcher pattern).any (· (toText path)))

/-! ## Entries -/

/-- `resolve_permission_path`. -/
def resolvePermissionPath (path : FileSystemPath) : Option AbsolutePath :=
  match path with
  | .path path => some path
  | .globPattern _ => none
  | .special .root => some []
  | .special value => resolveFileSystemSpecialPath env cwd value

/-- `access_covers`. -/
def accessCovers (requested granted : FileSystemAccessMode) : Bool :=
  match granted with
  | .read => requested.canRead
  | .write => requested.canWrite
  | .none => false

/-- `materialize_cwd_dependent_entry`. -/
def materializeCwdDependentEntry (entry : FileSystemSandboxEntry) : FileSystemSandboxEntry :=
  match entry.path with
  | .special .currentWorkingDirectory | .special (.projectRoots _) =>
    match resolvePermissionPath env cwd entry.path with
    | some path => ⟨.path path, entry.access⟩
    | none => entry
  | .globPattern pattern =>
    ⟨.globPattern (toText (resolvePathAgainstBase env.home pattern cwd)), entry.access⟩
  | .path _ | .special _ => entry

/-- `paths_overlap`. -/
def pathsOverlap (left right : AbsolutePath) : Bool :=
  right.isPrefixOf left || left.isPrefixOf right

/-- The characters that end the static part of a glob. -/
def isGlobChar (c : Char) : Bool := c = '*' || c = '?' || c = '[' || c = ']'

/-- `glob_static_prefix_path`. -/
def globStaticPrefixPath (pattern : Text) : Option AbsolutePath :=
  let resolved := toText (resolvePathAgainstBase env.home pattern cwd)
  let start := resolved.takeWhile (!isGlobChar ·)
  if start = [] then none
  else if start = resolved || start.getLast? = some '/' || start.getLast? = some '\\' then
    fromAbsolutePath env.home env.currentDir start
  -- the parent directory; `.` is no component of an absolute path
  else some (normalizePath [] ((components start).filter (· ≠ .curDir)).dropLast)

/-- `deny_entry_constrains_accepted_grant`. -/
def denyEntryConstrainsAcceptedGrant (denyEntry : FileSystemSandboxEntry)
    (acceptedEntries : List FileSystemSandboxEntry) : Bool :=
  (acceptedEntries.filter (·.access.canRead)).any fun entry =>
    (resolvePermissionPath env cwd entry.path).any fun grantPath =>
      match denyEntry.path with
      | .globPattern pattern =>
        (globStaticPrefixPath env cwd pattern).any (pathsOverlap · grantPath)
      | .path _ | .special _ =>
        (resolvePermissionPath env cwd denyEntry.path).any (pathsOverlap · grantPath)

/-- The entry at the end of a list that does not hold it yet. -/
def pushNew (entries : List FileSystemSandboxEntry) (entry : FileSystemSandboxEntry) :
    List FileSystemSandboxEntry :=
  if entry ∈ entries then entries else entries ++ [entry]

/-- The entries that `retain_constraining_deny_entries` returns. -/
def constrainingDenyEntries (sourceEntries acceptedEntries : List FileSystemSandboxEntry) :
    List FileSystemSandboxEntry :=
  ((sourceEntries.filter (·.access = .none)).filter fun entry =>
    denyEntryConstrainsAcceptedGrant env cwd entry acceptedEntries).map
    (materializeCwdDependentEntry env cwd)

/-- `granted_file_system_entry_within_request`. -/
def grantedFileSystemEntryWithinRequest (requested : FileSystemPermissions)
    (grantedEntry : FileSystemSandboxEntry) : Bool :=
  let requestedPolicy := FileSystemSandboxPolicy.restricted requested.entries
  grantedEntry.access.canRead &&
    match resolvePermissionPath env cwd grantedEntry.path with
    | some path =>
      !isReadDenied buildGlobMatcher env cwd requestedPolicy path &&
        accessCovers (requestedPolicy.resolveAccessWithCwd env cwd path) grantedEntry.access
    | none =>
      requested.entries.any fun requestedEntry =>
        accessCovers requestedEntry.access grantedEntry.access &&
          requestedEntry.path = grantedEntry.path

/-! ## Scan depth -/

/-- `GlobScanDepth`. -/
inductive GlobScanDepth where
  | bounded (depth : ℕ)
  | unbounded

/-- `effective_glob_scan_depth`. -/
def effectiveGlobScanDepth (entries : List FileSystemSandboxEntry) (depth : Option ℕ) :
    Option GlobScanDepth :=
  let hasGlob := entries.any fun entry =>
    entry.access = .none &&
      match entry.path with
      | .globPattern _ => true
      | _ => false
  if hasGlob then some (depth.elim .unbounded .bounded) else none

/-- `merge_glob_scan_max_depth`. -/
def mergeGlobScanMaxDepth (leftEntries : List FileSystemSandboxEntry) (leftDepth : Option ℕ)
    (rightEntries : List FileSystemSandboxEntry) (rightDepth : Option ℕ) : Option ℕ :=
  match effectiveGlobScanDepth leftEntries leftDepth,
    effectiveGlobScanDepth rightEntries rightDepth with
  | some .unbounded, _ | _, some .unbounded => none
  | some (.bounded left), some (.bounded right) => some (max left right)
  | some (.bounded depth), none | none, some (.bounded depth) => some depth
  | none, none => none

/-! ## Intersection -/

/-- The granted entries that stay. -/
def acceptedEntries (requested granted : FileSystemPermissions) : List FileSystemSandboxEntry :=
  ((granted.entries.filter
    (grantedFileSystemEntryWithinRequest buildGlobMatcher env cwd requested)).map
    (materializeCwdDependentEntry env cwd)).foldl pushNew []

/-- The file-system part of `intersect_permission_profiles`. -/
def intersectFileSystem (requested granted : FileSystemPermissions) : FileSystemPermissions :=
  let accepted := acceptedEntries buildGlobMatcher env cwd requested granted
  let requestedRetained := constrainingDenyEntries env cwd requested.entries accepted
  let grantedRetained := constrainingDenyEntries env cwd granted.entries accepted
  { entries := grantedRetained.foldl pushNew (requestedRetained.foldl pushNew accepted)
    globScanMaxDepth :=
      (mergeGlobScanMaxDepth requestedRetained (requested.globScanMaxDepth.map (↑))
        grantedRetained (granted.globScanMaxDepth.map (↑))).bind fun depth =>
          if h : 0 < depth then some ⟨depth, h⟩ else none }

/-- `intersect_permission_profiles`. -/
def intersectPermissionProfiles (requested granted : PermissionProfile) : PermissionProfile where
  fileSystem :=
    (requested.fileSystem.map fun requestedFileSystem =>
      intersectFileSystem buildGlobMatcher env cwd requestedFileSystem
        (granted.fileSystem.getD .default)).filter fun fileSystem => !fileSystem.entries.isEmpty
  network :=
    if requested.networkEnabled && granted.networkEnabled then some ⟨some true⟩ else none

end

end Supercodex.Permissions
