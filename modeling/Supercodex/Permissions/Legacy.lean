import Supercodex.Permissions.Policy

/-!
# Legacy sandbox policies

`SandboxPolicy` of `protocol/src/protocol.rs` with its writable roots, and the conversions of
`protocol/src/permissions.rs` between it and the split file-system policy.
`default_read_only_subpaths_for_writable_root` stands in both files with the same body.
-/

namespace Supercodex.Permissions

open Supercodex.Path

/-- `NetworkAccess`. -/
inductive NetworkAccess where
  | restricted
  | enabled
deriving DecidableEq

/-- `NetworkSandboxPolicy`. -/
inductive NetworkSandboxPolicy where
  | restricted
  | enabled
deriving DecidableEq

/-- `NetworkSandboxPolicy::is_enabled`. -/
def NetworkSandboxPolicy.isEnabled (policy : NetworkSandboxPolicy) : Bool := policy = .enabled

/-- `ReadOnlyAccess`. -/
inductive ReadOnlyAccess where
  | restricted (includePlatformDefaults : Bool) (readableRoots : List AbsolutePath)
  | fullAccess
deriving DecidableEq

/-- `SandboxPolicy`. -/
inductive SandboxPolicy where
  | dangerFullAccess
  | readOnly (access : ReadOnlyAccess) (networkAccess : Bool)
  | externalSandbox (networkAccess : NetworkAccess)
  | workspaceWrite (writableRoots : List AbsolutePath) (readOnlyAccess : ReadOnlyAccess)
      (networkAccess excludeTmpdirEnvVar excludeSlashTmp : Bool)
deriving DecidableEq

namespace SandboxPolicy

/-- `SandboxPolicy::has_full_network_access`. -/
def hasFullNetworkAccess : SandboxPolicy → Bool
  | dangerFullAccess => true
  | externalSandbox networkAccess => networkAccess = .enabled
  | readOnly _ networkAccess => networkAccess
  | workspaceWrite _ _ networkAccess _ _ => networkAccess

/-- `NetworkSandboxPolicy::from(&SandboxPolicy)`. -/
def networkSandboxPolicy (policy : SandboxPolicy) : NetworkSandboxPolicy :=
  if policy.hasFullNetworkAccess then .enabled else .restricted

/-- `/tmp`, where it is a directory and not excluded. -/
def slashTmpRoot (env : Env) (excludeSlashTmp : Bool) : List AbsolutePath :=
  let slashTmp : AbsolutePath := ["tmp".toList]
  if !excludeSlashTmp && env.tree.isDir slashTmp then [slashTmp] else []

/-- `$TMPDIR`, where it is set and not excluded. -/
def tmpdirRoot (env : Env) (excludeTmpdirEnvVar : Bool) : List AbsolutePath :=
  match excludeTmpdirEnvVar, env.tmpdir with
  | false, some tmpdir =>
    if tmpdir = [] then [] else (fromAbsolutePath env.home env.currentDir tmpdir).toList
  | _, _ => []

/-- The roots that `SandboxPolicy::get_writable_roots_with_cwd` collects. -/
def rootPaths (env : Env) (cwd : AbsolutePath) (writableRoots : List AbsolutePath)
    (excludeTmpdirEnvVar excludeSlashTmp : Bool) : List AbsolutePath :=
  writableRoots ++ [cwd] ++ slashTmpRoot env excludeSlashTmp ++ tmpdirRoot env excludeTmpdirEnvVar

/-- `SandboxPolicy::get_writable_roots_with_cwd`. -/
def getWritableRootsWithCwd (env : Env) (cwd : AbsolutePath) : SandboxPolicy → List WritableRoot
  | workspaceWrite writableRoots _ _ excludeTmpdirEnvVar excludeSlashTmp =>
    (rootPaths env cwd writableRoots excludeTmpdirEnvVar excludeSlashTmp).map fun root =>
      ⟨root, defaultReadOnlySubpathsForWritableRoot env root (cwd = root)⟩
  | _ => []

end SandboxPolicy

/-! ## From the legacy policy -/

/-- An entry for a special path. -/
def specialEntry (value : FileSystemSpecialPath) (access : FileSystemAccessMode) :
    FileSystemSandboxEntry := ⟨.special value, access⟩

/-- An entry for a path. -/
def pathEntry (access : FileSystemAccessMode) (path : AbsolutePath) : FileSystemSandboxEntry :=
  ⟨.path path, access⟩

/-- The read entries that stand for a `ReadOnlyAccess`, where `cwdEntry` is added to restricted
access. -/
def readEntries (cwdEntry : List FileSystemSandboxEntry) :
    ReadOnlyAccess → List FileSystemSandboxEntry
  | .fullAccess => [specialEntry .root .read]
  | .restricted includePlatformDefaults readableRoots =>
    cwdEntry ++ (if includePlatformDefaults then [specialEntry .minimal .read] else []) ++
      readableRoots.map (pathEntry .read)

/-- `append_path_entry_if_missing`. -/
def appendPathEntryIfMissing (entries : List FileSystemSandboxEntry) (path : AbsolutePath)
    (access : FileSystemAccessMode) : List FileSystemSandboxEntry :=
  if entries.any fun entry => entry.access = access && entry.path = .path path then entries
  else entries ++ [pathEntry access path]

/-- `append_default_read_only_path_if_no_explicit_rule`. -/
def appendDefaultReadOnlyPathIfNoExplicitRule (entries : List FileSystemSandboxEntry)
    (path : AbsolutePath) : List FileSystemSandboxEntry :=
  if entries.any fun entry => entry.path = .path path then entries
  else appendPathEntryIfMissing entries path .read

/-- The paths that the conversion of a workspace-write policy protects, in order: those of the
workspace, then those of the listed roots. -/
def protectedPaths (env : Env) (cwd : AbsolutePath) (writableRoots : List AbsolutePath) :
    List AbsolutePath :=
  defaultReadOnlySubpathsForWritableRoot env cwd true ++
    writableRoots.flatMap (defaultReadOnlySubpathsForWritableRoot env · false)

namespace FileSystemSandboxPolicy

/-- `FileSystemSandboxPolicy::unrestricted`. -/
def unrestricted : FileSystemSandboxPolicy := ⟨.unrestricted, none, []⟩

/-- `FileSystemSandboxPolicy::external_sandbox`. -/
def externalSandbox : FileSystemSandboxPolicy := ⟨.externalSandbox, none, []⟩

/-- `FileSystemSandboxPolicy::from(&SandboxPolicy)`. -/
def fromSandboxPolicy : SandboxPolicy → FileSystemSandboxPolicy
  | .dangerFullAccess => unrestricted
  | .externalSandbox _ => externalSandbox
  | .readOnly access _ =>
    restricted (readEntries [specialEntry .currentWorkingDirectory .read] access)
  | .workspaceWrite writableRoots readOnlyAccess _ excludeTmpdirEnvVar excludeSlashTmp =>
    restricted (readEntries [] readOnlyAccess ++
      [specialEntry .currentWorkingDirectory .write] ++
      (if excludeSlashTmp then [] else [specialEntry .slashTmp .write]) ++
      (if excludeTmpdirEnvVar then [] else [specialEntry .tmpdir .write]) ++
      writableRoots.map (pathEntry .write))

/-- The entries that `from_legacy_sandbox_policy` retains: read entries for paths that the legacy
roots let write are dropped. -/
def retained (legacyRoots : List WritableRoot) (entry : FileSystemSandboxEntry) : Bool :=
  entry.access ≠ .read ||
    match entry.path with
    | .path path => !legacyRoots.any (·.isPathWritable path)
    | .globPattern _ | .special _ => true

/-- `FileSystemSandboxPolicy::from_legacy_sandbox_policy`. -/
def fromLegacySandboxPolicy (env : Env) (cwd : AbsolutePath) (sandboxPolicy : SandboxPolicy) :
    FileSystemSandboxPolicy :=
  let policy := fromSandboxPolicy sandboxPolicy
  match sandboxPolicy with
  | .workspaceWrite writableRoots _ _ _ _ =>
    let kept := policy.entries.filter (retained (sandboxPolicy.getWritableRootsWithCwd env cwd))
    { policy with
      entries := (protectedPaths env cwd writableRoots).foldl
        appendDefaultReadOnlyPathIfNoExplicitRule kept }
  | _ => policy

end FileSystemSandboxPolicy

/-! ## Back to the legacy policy -/

/-- What the loop of `to_legacy_sandbox_policy` collects. -/
structure Bridge where
  includePlatformDefaults : Bool := false
  workspaceRootWritable : Bool := false
  writableRoots : List AbsolutePath := []
  readableRoots : List AbsolutePath := []
  tmpdirWritable : Bool := false
  slashTmpWritable : Bool := false
  unbridgeableRootWrite : Bool := false

namespace Bridge

/-- A readable root is added, if the entry lets read and its path resolves. -/
def addReadable (b : Bridge) (access : FileSystemAccessMode) (path : Option AbsolutePath) :
    Bridge :=
  if access.canRead then { b with readableRoots := b.readableRoots ++ path.toList } else b

/-- One round of the loop. -/
def step (env : Env) (cwd : AbsolutePath) (fullDiskRead : Bool) (b : Bridge)
    (entry : FileSystemSandboxEntry) : Bridge :=
  match entry.path with
  | .globPattern _ => b
  | .path path =>
    if entry.access.canWrite then
      if cwd = path then { b with workspaceRootWritable := true }
      else { b with writableRoots := b.writableRoots ++ [path] }
    else b.addReadable entry.access (some path)
  | .special value =>
    match value with
    | .root =>
      match entry.access with
      | .none => b
      | .read => if fullDiskRead then b else { b with readableRoots := b.readableRoots ++ [[]] }
      | .write => { b with unbridgeableRootWrite := true }
    | .minimal => if entry.access.canRead then { b with includePlatformDefaults := true } else b
    | .currentWorkingDirectory =>
      if entry.access.canWrite then { b with workspaceRootWritable := true }
      else b.addReadable entry.access (resolveFileSystemSpecialPath env cwd value)
    | .projectRoots subpath =>
      if subpath.isNone && entry.access.canWrite then { b with workspaceRootWritable := true }
      else
        let path := resolveFileSystemSpecialPath env cwd value
        if entry.access.canWrite then { b with writableRoots := b.writableRoots ++ path.toList }
        else b.addReadable entry.access path
    | .tmpdir =>
      if entry.access.canWrite then { b with tmpdirWritable := true }
      else b.addReadable entry.access (resolveFileSystemSpecialPath env cwd value)
    | .slashTmp =>
      if entry.access.canWrite then { b with slashTmpWritable := true }
      else b.addReadable entry.access (resolveFileSystemSpecialPath env cwd value)
    | .unknown _ _ => b

end Bridge

namespace FileSystemSandboxPolicy

/-- The error of `to_legacy_sandbox_policy`. -/
def unbridgeable : String :=
  "permissions profile requests filesystem writes outside the workspace root, which is not " ++
    "supported until the runtime enforces FileSystemSandboxPolicy directly"

/-- The legacy policy without restrictions on the disk. -/
def fullDiskPolicy (network : NetworkSandboxPolicy) : SandboxPolicy :=
  if network.isEnabled then .dangerFullAccess else .externalSandbox .restricted

/-- `FileSystemSandboxPolicy::to_legacy_sandbox_policy`. -/
def toLegacySandboxPolicy (policy : FileSystemSandboxPolicy) (env : Env)
    (network : NetworkSandboxPolicy) (cwd : AbsolutePath) : Except String SandboxPolicy :=
  match policy.kind with
  | .externalSandbox =>
    .ok (.externalSandbox (if network.isEnabled then .enabled else .restricted))
  | .unrestricted => .ok (fullDiskPolicy network)
  | .restricted =>
    let fullDiskRead := policy.hasFullDiskReadAccess
    let b := policy.entries.foldl (Bridge.step env cwd fullDiskRead) {}
    if policy.hasFullDiskWriteAccess then .ok (fullDiskPolicy network)
    else
      let readOnlyAccess :=
        if fullDiskRead then .fullAccess
        else .restricted b.includePlatformDefaults (dedupAbsolutePaths b.readableRoots)
      if b.workspaceRootWritable then
        .ok (.workspaceWrite (dedupAbsolutePaths b.writableRoots) readOnlyAccess network.isEnabled
          (!b.tmpdirWritable) (!b.slashTmpWritable))
      else if b.unbridgeableRootWrite || !b.writableRoots.isEmpty || b.tmpdirWritable ||
          b.slashTmpWritable then .error unbridgeable
      else .ok (.readOnly readOnlyAccess network.isEnabled)

/-- `FileSystemSemanticSignature`. -/
structure SemanticSignature where
  hasFullDiskReadAccess : Bool
  hasFullDiskWriteAccess : Bool
  includePlatformDefaults : Bool
  readableRoots : List AbsolutePath
  writableRoots : List WritableRoot
  unreadableRoots : List AbsolutePath
  unreadableGlobs : List Text
deriving DecidableEq

/-- `semantic_signature`. -/
def semanticSignature (policy : FileSystemSandboxPolicy) (env : Env) (cwd : AbsolutePath) :
    SemanticSignature where
  hasFullDiskReadAccess := policy.hasFullDiskReadAccess
  hasFullDiskWriteAccess := policy.hasFullDiskWriteAccess
  includePlatformDefaults := policy.includePlatformDefaults
  readableRoots := policy.getReadableRootsWithCwd env cwd
  writableRoots := policy.getWritableRootsWithCwd env cwd
  unreadableRoots := policy.getUnreadableRootsWithCwd env cwd
  unreadableGlobs := getUnreadableGlobsWithCwd env cwd policy

/-- `needs_direct_runtime_enforcement`. -/
def needsDirectRuntimeEnforcement (policy : FileSystemSandboxPolicy) (env : Env)
    (network : NetworkSandboxPolicy) (cwd : AbsolutePath) : Bool :=
  policy.kind = .restricted &&
    match policy.toLegacySandboxPolicy env network cwd with
    | .error _ => true
    | .ok legacy =>
      policy.semanticSignature env cwd ≠
        (fromLegacySandboxPolicy env cwd legacy).semanticSignature env cwd

end FileSystemSandboxPolicy

end Supercodex.Permissions
