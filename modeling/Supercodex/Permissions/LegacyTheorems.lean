import Supercodex.Permissions.Legacy
import Supercodex.Permissions.PolicyTheorems

/-!
# Writing under a converted legacy policy

A converted workspace-write policy has three groups of entries: what may be read, the roots, and the
protected paths that were added. Its roots are those of the legacy policy; what differs is where the
protected paths stand.
-/

namespace Supercodex.Permissions

open Supercodex.Path FirstOccurrences FileSystemAccessMode

/-! ## The entries of a converted policy -/

/-- Is there an entry for the path itself? -/
def hasPathEntry (entries : List FileSystemSandboxEntry) (path : AbsolutePath) : Bool :=
  entries.any fun entry => entry.path = .path path

lemma append_of_hasPathEntry {entries : List FileSystemSandboxEntry} {path : AbsolutePath}
    (h : hasPathEntry entries path = true) :
    appendDefaultReadOnlyPathIfNoExplicitRule entries path = entries := if_pos h

lemma append_of_not_hasPathEntry {entries : List FileSystemSandboxEntry} {path : AbsolutePath}
    (h : hasPathEntry entries path = false) :
    appendDefaultReadOnlyPathIfNoExplicitRule entries path = entries ++ [pathEntry .read path] := by
  have hmissing : ¬(entries.any fun entry =>
      entry.access = .read && entry.path = .path path) = true := by
    rw [List.any_eq_true]
    rintro ⟨entry, hentry, hpath⟩
    rw [Bool.and_eq_true] at hpath
    have : hasPathEntry entries path = true := List.any_eq_true.mpr ⟨entry, hentry, hpath.2⟩
    rw [h] at this
    cases this
  show (if hasPathEntry entries path = true then entries
    else appendPathEntryIfMissing entries path .read) = _
  rw [h, if_neg (by decide), appendPathEntryIfMissing, if_neg hmissing]

/-- The paths that are added to the entries: the first occurrences without an entry of their own. -/
def addedPaths (entries : List FileSystemSandboxEntry) (paths : List AbsolutePath) :
    List AbsolutePath :=
  (dedupAbsolutePaths paths).filter fun path => !hasPathEntry entries path

lemma hasPathEntry_append_map (entries : List FileSystemSandboxEntry) (paths : List AbsolutePath)
    (path : AbsolutePath) (access : FileSystemAccessMode) :
    hasPathEntry (entries ++ paths.map (pathEntry access)) path =
      (hasPathEntry entries path || decide (path ∈ paths)) := by
  unfold hasPathEntry
  rw [List.any_append, List.any_map]
  congr 1
  rw [Bool.eq_iff_iff, List.any_eq_true, decide_eq_true_eq]
  constructor
  · rintro ⟨other, hother, heq⟩
    have hsame : other = path := by simpa [pathEntry] using heq
    exact hsame ▸ hother
  · intro h
    exact ⟨path, h, by simp [pathEntry]⟩

/-- The loops of the conversion add each protected path that has no entry, once. -/
lemma foldl_append_eq (entries : List FileSystemSandboxEntry) (paths : List AbsolutePath) :
    paths.foldl appendDefaultReadOnlyPathIfNoExplicitRule entries =
      entries ++ (addedPaths entries paths).map (pathEntry .read) := by
  induction paths using List.reverseRecOn with
  | nil => simp [addedPaths, dedupAbsolutePaths]
  | append_singleton paths path ih =>
    rw [List.foldl_concat, ih]
    have hadded : path ∈ addedPaths entries paths ↔
        path ∈ paths ∧ hasPathEntry entries path = false := by
      simp [addedPaths]
    by_cases hentry : hasPathEntry entries path = true
    · -- the entry was there from the start
      rw [append_of_hasPathEntry (by rw [hasPathEntry_append_map, hentry, Bool.true_or])]
      simp only [addedPaths, dedupAbsolutePaths_eq, concat_eq]
      split
      · rfl
      · rw [List.filter_append, List.filter_singleton, hentry]
        simp
    · rw [Bool.not_eq_true] at hentry
      by_cases hmem : path ∈ paths
      · -- the path was added before
        rw [append_of_hasPathEntry]
        · simp only [addedPaths, dedupAbsolutePaths_eq, concat_eq]
          rw [if_pos (mem_iff.mpr hmem)]
        · rw [hasPathEntry_append_map, decide_eq_true (hadded.mpr ⟨hmem, hentry⟩), Bool.or_true]
      · rw [append_of_not_hasPathEntry]
        · simp only [addedPaths, dedupAbsolutePaths_eq, concat_eq]
          rw [if_neg (by rwa [mem_iff]), List.filter_append, List.filter_singleton,
            hentry]
          simp
        · rw [hasPathEntry_append_map, hentry, Bool.false_or, decide_eq_false]
          exact fun h => hmem (hadded.mp h).1

/-- A legacy workspace-write policy, by its fields. -/
structure WorkspaceWrite where
  writableRoots : List AbsolutePath
  readOnlyAccess : ReadOnlyAccess
  networkAccess : Bool
  excludeTmpdirEnvVar : Bool
  excludeSlashTmp : Bool

namespace WorkspaceWrite

open FileSystemSandboxPolicy SandboxPolicy

variable (l : WorkspaceWrite) (env : Env) (cwd : AbsolutePath)

/-- The legacy policy. -/
def policy : SandboxPolicy :=
  .workspaceWrite l.writableRoots l.readOnlyAccess l.networkAccess l.excludeTmpdirEnvVar
    l.excludeSlashTmp

/-- The converted policy. -/
def split : FileSystemSandboxPolicy := fromLegacySandboxPolicy env cwd l.policy

/-- The roots of the legacy policy. -/
def roots : List AbsolutePath :=
  rootPaths env cwd l.writableRoots l.excludeTmpdirEnvVar l.excludeSlashTmp

/-- The roots in the order of the converted policy's entries. -/
def splitRoots : List AbsolutePath :=
  cwd :: (slashTmpRoot env l.excludeSlashTmp ++ tmpdirRoot env l.excludeTmpdirEnvVar ++
    l.writableRoots)

/-- The protected paths of a root. -/
def protects (root : AbsolutePath) : List AbsolutePath :=
  defaultReadOnlySubpathsForWritableRoot env root (cwd = root)

/-- Does some root of the legacy policy let write the path? -/
def legacyAllows (path : AbsolutePath) : Bool :=
  (l.policy.getWritableRootsWithCwd env cwd).any (·.isPathWritable path)

/-- The read entries that are retained. -/
def keptReads : List FileSystemSandboxEntry :=
  (readEntries [] l.readOnlyAccess).filter (retained (l.policy.getWritableRootsWithCwd env cwd))

/-- The write entries. -/
def writes : List FileSystemSandboxEntry :=
  [specialEntry .currentWorkingDirectory .write] ++
    (if l.excludeSlashTmp then [] else [specialEntry .slashTmp .write]) ++
    (if l.excludeTmpdirEnvVar then [] else [specialEntry .tmpdir .write]) ++
    l.writableRoots.map (pathEntry .write)

/-- The protected paths that get an entry. -/
def added : List AbsolutePath :=
  addedPaths (l.keptReads env cwd ++ l.writes) (protectedPaths env cwd l.writableRoots)

/-- What the read entries resolve to. -/
def readRoots : List AbsolutePath :=
  match l.readOnlyAccess with
  | .fullAccess => [[]]
  | .restricted _ readableRoots => readableRoots.filter (!l.legacyAllows env cwd ·)

variable {path : AbsolutePath}

lemma mem_splitRoots :
    path ∈ l.splitRoots env cwd ↔ path ∈ l.roots env cwd := by
  simp only [splitRoots, roots, rootPaths, List.mem_cons, List.mem_append, List.not_mem_nil,
    or_false]
  tauto

lemma legacyAllows_iff :
    l.legacyAllows env cwd path = true ↔
      ∃ root ∈ l.roots env cwd, root <+: path ∧ ∀ d ∈ protects env cwd root, ¬d <+: path := by
  unfold legacyAllows
  simp only [policy, SandboxPolicy.getWritableRootsWithCwd, List.any_map, List.any_eq_true,
    Function.comp_apply, isPathWritable_iff]
  rfl

lemma access_of_mem_readEntries {entry : FileSystemSandboxEntry}
    {cwdEntry : List FileSystemSandboxEntry} (hcwd : ∀ e ∈ cwdEntry, e.access = .read) {access : ReadOnlyAccess}
    (h : entry ∈ readEntries cwdEntry access) : entry.access = .read := by
  cases access with
  | fullAccess => rw [List.mem_singleton.mp h, specialEntry]
  | restricted includePlatformDefaults readableRoots =>
    simp only [readEntries, List.mem_append, List.mem_map] at h
    rcases h with (h | h) | ⟨path, -, rfl⟩
    · exact hcwd entry h
    · split at h
      · rw [List.mem_singleton.mp h, specialEntry]
      · cases h
    · rfl

lemma of_mem_writes {entry : FileSystemSandboxEntry} (h : entry ∈ l.writes) :
    entry.access = .write ∧ entry.path ≠ .special .root ∧ entry.path ≠ .special .minimal := by
  unfold writes at h
  simp only [List.mem_append, List.mem_singleton, List.mem_map] at h
  rcases h with ((rfl | h) | h) | ⟨path, -, rfl⟩
  · simp [specialEntry]
  · split at h
    · cases h
    · simp [List.mem_singleton.mp h, specialEntry]
  · split at h
    · cases h
    · simp [List.mem_singleton.mp h, specialEntry]
  · simp [pathEntry]

lemma split_entries :
    (l.split env cwd).entries =
      l.keptReads env cwd ++ l.writes ++ (l.added env cwd).map (pathEntry .read) := by
  have hwrites : l.writes.filter (retained (l.policy.getWritableRootsWithCwd env cwd)) =
      l.writes := by
    rw [List.filter_eq_self]
    intro entry hentry
    simp [retained, (l.of_mem_writes hentry).1]
  have hkept : (fromSandboxPolicy l.policy).entries.filter
      (retained (l.policy.getWritableRootsWithCwd env cwd)) = l.keptReads env cwd ++ l.writes := by
    have hentries : (fromSandboxPolicy l.policy).entries =
        readEntries [] l.readOnlyAccess ++ l.writes := by
      simp only [policy, fromSandboxPolicy, restricted, writes, List.append_assoc]
    rw [hentries, List.filter_append, hwrites]
    rfl
  show (protectedPaths env cwd l.writableRoots).foldl appendDefaultReadOnlyPathIfNoExplicitRule
    ((fromSandboxPolicy l.policy).entries.filter _) = _
  rw [hkept, foldl_append_eq]
  rfl

lemma split_kind : (l.split env cwd).kind = .restricted := rfl

/-! ### Resolved entries -/

/-- A path with an access. -/
def rule (access : FileSystemAccessMode) (path : AbsolutePath) : ResolvedFileSystemEntry :=
  ⟨path, access⟩

/-- An entry with its path resolved. -/
def resolveEntry (entry : FileSystemSandboxEntry) : Option ResolvedFileSystemEntry :=
  (resolveEntryPath env cwd entry.path).map fun path => ⟨path, entry.access⟩

lemma filterMap_pathEntry (access : FileSystemAccessMode) (paths : List AbsolutePath) :
    (paths.map (pathEntry access)).filterMap (resolveEntry env cwd) = paths.map (rule access) := by
  rw [List.filterMap_map, ← List.filterMap_eq_map]
  rfl

lemma filterMap_specialEntry {value : FileSystemSpecialPath} (hvalue : value ≠ .root)
    (access : FileSystemAccessMode) :
    [specialEntry value access].filterMap (resolveEntry env cwd) =
      (resolveFileSystemSpecialPath env cwd value).toList.map (rule access) := by
  have hresolve : resolveEntryPath env cwd (specialEntry value access).path =
      resolveFileSystemSpecialPath env cwd value := by
    cases value <;> first | exact absurd rfl hvalue | rfl
  rw [List.filterMap_cons, List.filterMap_nil, resolveEntry, hresolve]
  cases resolveFileSystemSpecialPath env cwd value <;> rfl

lemma resolve_keptReads :
    (l.keptReads env cwd).filterMap (resolveEntry env cwd) =
      (l.readRoots env cwd).map (rule .read) := by
  unfold keptReads readRoots
  cases l.readOnlyAccess with
  | fullAccess => rfl
  | restricted includePlatformDefaults readableRoots =>
    have hpaths : (readableRoots.map (pathEntry .read)).filter
        (retained (l.policy.getWritableRootsWithCwd env cwd)) =
          (readableRoots.filter (!l.legacyAllows env cwd ·)).map (pathEntry .read) := by
      rw [List.filter_map]
      rfl
    dsimp only [readEntries]
    rw [List.nil_append, List.filter_append, List.filterMap_append, hpaths, filterMap_pathEntry]
    cases includePlatformDefaults <;> rfl

lemma slashTmpRoot_false :
    slashTmpRoot env false = (resolveFileSystemSpecialPath env cwd .slashTmp).toList := by
  unfold slashTmpRoot resolveFileSystemSpecialPath
  dsimp only
  rw [Bool.not_false, Bool.true_and]
  split <;> rfl

lemma tmpdirRoot_false :
    tmpdirRoot env false = (resolveFileSystemSpecialPath env cwd .tmpdir).toList := by
  unfold tmpdirRoot resolveFileSystemSpecialPath
  cases env.tmpdir with
  | none => rfl
  | some tmpdir =>
    rw [Option.bind_some]
    dsimp only
    split <;> rfl

lemma resolve_writes :
    l.writes.filterMap (resolveEntry env cwd) = (l.splitRoots env cwd).map (rule .write) := by
  have hcwd : [specialEntry .currentWorkingDirectory .write].filterMap (resolveEntry env cwd) =
      [rule .write cwd] := rfl
  have hslash : (if l.excludeSlashTmp then [] else [specialEntry .slashTmp .write]).filterMap
      (resolveEntry env cwd) = (slashTmpRoot env l.excludeSlashTmp).map (rule .write) := by
    cases l.excludeSlashTmp with
    | true => rfl
    | false =>
      rw [slashTmpRoot_false env cwd]
      exact filterMap_specialEntry env cwd (by simp) .write
  have htmpdir : (if l.excludeTmpdirEnvVar then [] else [specialEntry .tmpdir .write]).filterMap
      (resolveEntry env cwd) = (tmpdirRoot env l.excludeTmpdirEnvVar).map (rule .write) := by
    cases l.excludeTmpdirEnvVar with
    | true => rfl
    | false =>
      rw [tmpdirRoot_false env cwd]
      exact filterMap_specialEntry env cwd (by simp) .write
  unfold writes splitRoots
  rw [List.filterMap_append, List.filterMap_append, List.filterMap_append, hcwd, hslash, htmpdir,
    filterMap_pathEntry, List.map_cons, List.map_append, List.map_append]
  simp only [List.append_assoc, List.cons_append, List.nil_append]

lemma resolvedEntries_split :
    (l.split env cwd).resolvedEntriesWithCwd env cwd =
      (l.readRoots env cwd).map (rule .read) ++ (l.splitRoots env cwd).map (rule .write) ++
        (l.added env cwd).map (rule .read) := by
  show (l.split env cwd).entries.filterMap (resolveEntry env cwd) = _
  rw [split_entries, List.filterMap_append, List.filterMap_append, resolve_keptReads,
    resolve_writes, filterMap_pathEntry]

lemma mem_resolvedEntries {e : ResolvedFileSystemEntry} :
    e ∈ (l.split env cwd).resolvedEntriesWithCwd env cwd ↔
      (e.mode = .read ∧ (e.path ∈ l.readRoots env cwd ∨ e.path ∈ l.added env cwd)) ∨
        (e.mode = .write ∧ e.path ∈ l.roots env cwd) := by
  have hrule {access : FileSystemAccessMode} {paths : List AbsolutePath} :
      e ∈ paths.map (rule access) ↔ e.mode = access ∧ e.path ∈ paths := by
    rw [List.mem_map]
    constructor
    · rintro ⟨path, hpath, rfl⟩
      exact ⟨rfl, hpath⟩
    · rintro ⟨rfl, hpath⟩
      exact ⟨e.path, hpath, rfl⟩
  rw [resolvedEntries_split, List.mem_append, List.mem_append, hrule, hrule, hrule, mem_splitRoots]
  tauto

/-- The path has an entry. -/
def Entered (path : AbsolutePath) : Prop :=
  path ∈ l.readRoots env cwd ∨ path ∈ l.added env cwd ∨ path ∈ l.roots env cwd

lemma entered_iff :
    l.Entered env cwd path ↔
      ∃ e ∈ (l.split env cwd).resolvedEntriesWithCwd env cwd, e.path = path := by
  constructor
  · rintro (h | h | h)
    · exact ⟨rule .read path, (mem_resolvedEntries l env cwd).mpr (.inl ⟨rfl, .inl h⟩), rfl⟩
    · exact ⟨rule .read path, (mem_resolvedEntries l env cwd).mpr (.inl ⟨rfl, .inr h⟩), rfl⟩
    · exact ⟨rule .write path, (mem_resolvedEntries l env cwd).mpr (.inr ⟨rfl, h⟩), rfl⟩
  · rintro ⟨e, he, rfl⟩
    rcases (mem_resolvedEntries l env cwd).mp he with ⟨-, h | h⟩ | ⟨-, h⟩
    · exact .inl h
    · exact .inr (.inl h)
    · exact .inr (.inr h)

lemma entered_of_mem_protectedPaths {d : AbsolutePath}
    (hd : d ∈ protectedPaths env cwd l.writableRoots) : l.Entered env cwd d := by
  by_cases hentry : hasPathEntry (l.keptReads env cwd ++ l.writes) d = true
  · -- the entry that kept the path from being added
    obtain ⟨entry, hmem, hpath⟩ := List.any_eq_true.mp hentry
    have hpath : entry.path = .path d := by simpa using hpath
    refine (entered_iff l env cwd).mpr ⟨⟨d, entry.access⟩, ?_, rfl⟩
    refine List.mem_filterMap.mpr ⟨entry, ?_, ?_⟩
    · rw [split_entries]
      exact List.mem_append_left _ hmem
    · rw [hpath]
      rfl
  · refine .inr (.inl ?_)
    rw [added, addedPaths, List.mem_filter, mem_dedupAbsolutePaths]
    exact ⟨hd, by simpa using hentry⟩

variable {root d : AbsolutePath}

/-- Every protected path of the workspace or of a listed root has an entry. -/
lemma entered_of_protected (hroot : root ∈ cwd :: l.writableRoots)
    (hd : d ∈ protects env cwd root) : l.Entered env cwd d := by
  refine entered_of_mem_protectedPaths l env cwd ?_
  unfold protectedPaths
  rw [List.mem_append, List.mem_flatMap]
  by_cases hcwd : cwd = root
  · left
    rw [← hcwd] at hd
    simpa [protects] using hd
  · right
    refine ⟨root, (List.mem_cons.mp hroot).resolve_left fun h => hcwd h.symm, ?_⟩
    simpa [protects, hcwd] using hd

/-! ### Access -/

lemma hasFullDiskWriteAccess_split : (l.split env cwd).hasFullDiskWriteAccess = false := by
  have hroot : (l.split env cwd).hasRootAccess canWrite = false := by
    unfold hasRootAccess
    rw [split_kind, decide_eq_true rfl, Bool.true_and, List.any_eq_false]
    intro entry hentry hwrite
    simp only [Bool.and_eq_true, decide_eq_true_eq, canWrite_iff] at hwrite
    obtain ⟨hpath, haccess⟩ := hwrite
    rw [split_entries, List.mem_append, List.mem_append] at hentry
    rcases hentry with (hentry | hentry) | hentry
    · rw [access_of_mem_readEntries (by simp) (List.mem_of_mem_filter hentry)] at haccess
      cases haccess
    · exact (l.of_mem_writes hentry).2.1 hpath
    · obtain ⟨path, -, rfl⟩ := List.mem_map.mp hentry
      cases hpath
  unfold FileSystemSandboxPolicy.hasFullDiskWriteAccess
  rw [split_kind, hroot, Bool.false_and]

lemma canWritePath_entered (h : l.Entered env cwd path) :
    (l.split env cwd).canWritePathWithCwd env cwd path = true ↔ path ∈ l.roots env cwd := by
  obtain ⟨e, he, rfl⟩ := (entered_iff l env cwd).mp h
  obtain ⟨best, -, hd⟩ := PathRule.exists_decides he (List.prefix_refl e.path)
  have hsame : best.path = e.path := by
    rcases hd.longest e he (List.prefix_refl _) with hlt | ⟨heq, -⟩
    · have := hd.covers.length_le
      omega
    · exact heq.symm
  rw [canWritePath_iff, resolveAccess_of_decides (split_kind l env cwd) hd]
  constructor
  · intro hmode
    rcases (mem_resolvedEntries l env cwd).mp hd.mem with ⟨hread, -⟩ | ⟨-, hroot⟩
    · rw [hread] at hmode
      cases hmode
    · exact hsame ▸ hroot
  · intro hroot
    have hwrite : rule .write e.path ∈ (l.split env cwd).resolvedEntriesWithCwd env cwd :=
      (mem_resolvedEntries l env cwd).mpr (.inr ⟨rfl, hroot⟩)
    rcases hd.longest _ hwrite (List.prefix_refl _) with hlt | ⟨-, hle⟩
    · rw [hsame] at hlt
      exact absurd hlt (Nat.lt_irrefl _)
    rcases (mem_resolvedEntries l env cwd).mp hd.mem with ⟨hread, -⟩ | ⟨hmode, -⟩
    · have hle : write ≤ .read := hread ▸ hle
      exact absurd hle (by decide)
    · exact hmode

lemma mem_writableRoots_split {w : WritableRoot} :
    w ∈ (l.split env cwd).getWritableRootsWithCwd env cwd ↔
      w.root ∈ l.roots env cwd ∧
        w.readOnlySubpaths = dedupAbsolutePaths ((l.split env cwd).defaultCarveouts env cwd w.root ++
          (l.split env cwd).explicitCarveouts env cwd w.root) := by
  rw [mem_getWritableRoots (hasFullDiskWriteAccess_split l env cwd)]
  refine and_congr_left fun _ => ?_
  constructor
  · rintro ⟨e, he, hpath, hmode, -⟩
    rcases (mem_resolvedEntries l env cwd).mp he with ⟨hread, -⟩ | ⟨-, hroot⟩
    · rw [hread] at hmode
      cases hmode
    · exact hpath ▸ hroot
  · intro hroot
    refine ⟨rule .write w.root, (mem_resolvedEntries l env cwd).mpr (.inr ⟨rfl, hroot⟩), rfl, rfl,
      ?_⟩
    exact (canWritePath_entered l env cwd (.inr (.inr hroot))).mpr hroot

lemma mem_defaultCarveouts :
    d ∈ (l.split env cwd).defaultCarveouts env cwd root ↔
      d ∈ protects env cwd root ∧ ¬l.Entered env cwd d := by
  unfold FileSystemSandboxPolicy.defaultCarveouts
  rw [List.mem_filter, entered_iff]
  simp [protects]

lemma mem_explicitCarveouts_split :
    d ∈ (l.split env cwd).explicitCarveouts env cwd root ↔
      l.Entered env cwd d ∧ d ∉ l.roots env cwd ∧ d ≠ root ∧ root <+: d := by
  rw [mem_explicitCarveouts]
  constructor
  · rintro ⟨e, he, rfl, -, hwrite, hne, hbelow⟩
    have hentered := (entered_iff l env cwd).mpr ⟨e, he, rfl⟩
    refine ⟨hentered, fun hroot => ?_, hne, hbelow⟩
    rw [(canWritePath_entered l env cwd hentered).mpr hroot] at hwrite
    cases hwrite
  · rintro ⟨hentered, hroot, hne, hbelow⟩
    obtain ⟨e, he, rfl⟩ := (entered_iff l env cwd).mp hentered
    refine ⟨e, he, rfl, ?_, ?_, hne, hbelow⟩
    · rcases (mem_resolvedEntries l env cwd).mp he with ⟨hread, -⟩ | ⟨-, h⟩
      · rw [hread]
        decide
      · exact absurd h hroot
    · rwa [← Bool.not_eq_true, canWritePath_entered l env cwd hentered]

/-! ## Widening -/

variable {l env cwd}

/-- The workspace and every listed root may themselves be written under the legacy policy: some root
above them has no protected path above them. -/
def RootsWritable (l : WorkspaceWrite) (env : Env) (cwd : AbsolutePath) : Prop :=
  ∀ s ∈ cwd :: l.writableRoots,
    ∃ root ∈ l.roots env cwd, root <+: s ∧ ∀ d ∈ protects env cwd root, ¬d <+: s

/-- A protected path of the root lies above the path. -/
def Closed (env : Env) (cwd root path : AbsolutePath) : Prop :=
  ∃ d ∈ protects env cwd root, d <+: path

/-- The paths that get an entry: what may be read, the protected paths of the workspace and of the
listed roots, and the roots. -/
def entryPaths (l : WorkspaceWrite) (env : Env) (cwd : AbsolutePath) : List AbsolutePath :=
  l.readRoots env cwd ++ protectedPaths env cwd l.writableRoots ++ l.roots env cwd

/-- Above the path there is, below the root, a path with a read entry, or a protected path of the
root that gets no entry. -/
def StaysClosed (l : WorkspaceWrite) (env : Env) (cwd root path : AbsolutePath) : Prop :=
  (∃ k ∈ l.entryPaths env cwd, k ∉ l.roots env cwd ∧ k ≠ root ∧ root <+: k ∧ k <+: path) ∨
    ∃ d ∈ protects env cwd root, d ∉ l.entryPaths env cwd ∧ d <+: path

/-- Where the roots above a temporary directory, or above a protected path inside it, are all closed
there, they stay closed. -/
def TempRootsKeep (l : WorkspaceWrite) (env : Env) (cwd : AbsolutePath) : Prop :=
  ∀ t ∈ l.roots env cwd, t ∉ cwd :: l.writableRoots →
    ∀ q ∈ t :: protects env cwd t, t <+: q →
      (∀ root ∈ l.roots env cwd, root <+: q → Closed env cwd root q) →
        ∀ root ∈ l.roots env cwd, root <+: q → StaysClosed l env cwd root q

instance (env : Env) (cwd root path : AbsolutePath) : Decidable (Closed env cwd root path) :=
  inferInstanceAs (Decidable (∃ d ∈ protects env cwd root, d <+: path))

instance (l : WorkspaceWrite) (env : Env) (cwd root path : AbsolutePath) :
    Decidable (StaysClosed l env cwd root path) :=
  inferInstanceAs (Decidable (_ ∨ ∃ d ∈ protects env cwd root, _))

instance (l : WorkspaceWrite) (env : Env) (cwd : AbsolutePath) :
    Decidable (RootsWritable l env cwd) :=
  inferInstanceAs (Decidable (∀ s ∈ cwd :: l.writableRoots, _))

instance (l : WorkspaceWrite) (env : Env) (cwd : AbsolutePath) :
    Decidable (TempRootsKeep l env cwd) :=
  inferInstanceAs (Decidable (∀ t ∈ l.roots env cwd, t ∉ cwd :: l.writableRoots → _))

/-- Whatever a root of the converted policy lets write, a root of the legacy policy does. -/
def NeverWidens (l : WorkspaceWrite) (env : Env) (cwd : AbsolutePath) : Prop :=
  ∀ p, (∃ w ∈ (l.split env cwd).getWritableRootsWithCwd env cwd, w.isPathWritable p = true) →
    ∃ w ∈ l.policy.getWritableRootsWithCwd env cwd, w.isPathWritable p = true

lemma mem_entryPaths :
    path ∈ l.entryPaths env cwd ↔ l.Entered env cwd path := by
  simp only [entryPaths, List.mem_append]
  constructor
  · rintro ((h | h) | h)
    · exact .inl h
    · exact entered_of_mem_protectedPaths l env cwd h
    · exact .inr (.inr h)
  · rintro (h | h | h)
    · exact .inl (.inl h)
    · exact .inl (.inr (mem_dedupAbsolutePaths.mp (List.mem_of_mem_filter h)))
    · exact .inr h

lemma legacy_allows_iff {p : AbsolutePath} :
    (∃ w ∈ l.policy.getWritableRootsWithCwd env cwd, w.isPathWritable p = true) ↔
      ∃ root ∈ l.roots env cwd, root <+: p ∧ ¬Closed env cwd root p := by
  simp only [Closed, not_exists, not_and]
  rw [← legacyAllows_iff, legacyAllows, List.any_eq_true]

/-- A root of the converted policy is closed by its default and by its explicit carve-outs. -/
lemma split_allows_iff {p : AbsolutePath} :
    (∃ w ∈ (l.split env cwd).getWritableRootsWithCwd env cwd, w.isPathWritable p = true) ↔
      ∃ root ∈ l.roots env cwd, root <+: p ∧ ¬StaysClosed l env cwd root p := by
  have hcarved {root : AbsolutePath} :
      (∀ d ∈ dedupAbsolutePaths ((l.split env cwd).defaultCarveouts env cwd root ++
        (l.split env cwd).explicitCarveouts env cwd root), ¬d <+: p) ↔
          ¬StaysClosed l env cwd root p := by
    simp only [mem_dedupAbsolutePaths, List.mem_append, mem_defaultCarveouts,
      mem_explicitCarveouts_split, StaysClosed, mem_entryPaths]
    constructor
    · rintro h (⟨k, hk, hroot, hne, hbelow, hkp⟩ | ⟨d, hd, hentered, hdp⟩)
      · exact h k (.inr ⟨hk, hroot, hne, hbelow⟩) hkp
      · exact h d (.inl ⟨hd, hentered⟩) hdp
    · rintro h d (⟨hd, hentered⟩ | ⟨hk, hroot, hne, hbelow⟩) hdp
      · exact h (.inr ⟨d, hd, hentered, hdp⟩)
      · exact h (.inl ⟨d, hk, hroot, hne, hbelow, hdp⟩)
  simp only [mem_writableRoots_split, isPathWritable_iff]
  constructor
  · rintro ⟨w, ⟨hroot, hsubpaths⟩, hwp, hcarve⟩
    exact ⟨w.root, hroot, hwp, hcarved.mp (hsubpaths ▸ hcarve)⟩
  · rintro ⟨root, hroot, hrp, hopen⟩
    exact ⟨⟨root, _⟩, ⟨hroot, rfl⟩, hrp, hcarved.mpr hopen⟩

lemma StaysClosed.mono {root q p : AbsolutePath} (h : StaysClosed l env cwd root q)
    (hqp : q <+: p) : StaysClosed l env cwd root p := by
  rcases h with ⟨k, hk, hroot, hne, hbelow, hkq⟩ | ⟨d, hd, hentered, hdq⟩
  · exact .inl ⟨k, hk, hroot, hne, hbelow, hkq.trans hqp⟩
  · exact .inr ⟨d, hd, hentered, hdq.trans hqp⟩

/-- A listed root does not stay closed to itself: all of its protected paths have entries. -/
lemma not_staysClosed_self {s : AbsolutePath} (hs : s ∈ cwd :: l.writableRoots) :
    ¬StaysClosed l env cwd s s := by
  rintro (⟨k, -, -, hne, hbelow, hks⟩ | ⟨d, hd, hentered, -⟩)
  · exact hne (hks.eq_of_length_le hbelow.length_le)
  · exact hentered (mem_entryPaths.mpr (entered_of_protected l env cwd hs hd))

lemma mem_roots_of_listed {s : AbsolutePath} (hs : s ∈ cwd :: l.writableRoots) :
    s ∈ l.roots env cwd := by
  rw [← mem_splitRoots, splitRoots]
  rcases List.mem_cons.mp hs with rfl | hs
  · exact List.mem_cons_self
  · exact List.mem_cons_of_mem _ (List.mem_append_right _ hs)

/-- The roots above a path and their protected paths. -/
def marks (l : WorkspaceWrite) (env : Env) (cwd p : AbsolutePath) : List AbsolutePath :=
  let above := (l.roots env cwd).filter (· <+: p)
  above ++ above.flatMap (protects env cwd)

lemma mem_marks {p q : AbsolutePath} :
    q ∈ marks l env cwd p ↔ (q ∈ l.roots env cwd ∧ q <+: p) ∨
      ∃ root ∈ l.roots env cwd, root <+: p ∧ q ∈ protects env cwd root := by
  simp [marks, and_assoc]

/-- Among the marks above a path there is one below all the others. -/
lemma exists_longest_mark {root p : AbsolutePath} (hroot : root ∈ l.roots env cwd)
    (hp : root <+: p) :
    ∃ q ∈ marks l env cwd p, q <+: p ∧ ∀ q' ∈ marks l env cwd p, q' <+: p → q' <+: q := by
  obtain ⟨e, he, hd⟩ := PathRule.exists_decides
    (List.mem_map_of_mem (f := rule .write) (mem_marks.mpr (.inl ⟨hroot, hp⟩))) (p := p) hp
  obtain ⟨q, hq, rfl⟩ := List.mem_map.mp hd.mem
  refine ⟨q, hq, hd.covers, fun q' hq' hqp => ?_⟩
  exact hd.prefix_of_covers (List.mem_map_of_mem (f := rule .write) hq') hqp

/-- Every root that is closed to a path stays closed to it: what decides is the longest mark above
the path. -/
lemma staysClosed_of_closed (hroots : RootsWritable l env cwd) (htemp : TempRootsKeep l env cwd)
    {p root : AbsolutePath} (hclosed : ∀ r ∈ l.roots env cwd, r <+: p → Closed env cwd r p)
    (hroot : root ∈ l.roots env cwd) (hrp : root <+: p) : StaysClosed l env cwd root p := by
  obtain ⟨q, hq, hqp, hlongest⟩ := exists_longest_mark hroot hrp
  have hrootq {r : AbsolutePath} (hr : r ∈ l.roots env cwd) (hrp : r <+: p) : r <+: q :=
    hlongest r (mem_marks.mpr (.inl ⟨hr, hrp⟩)) hrp
  have hclosedq : ∀ r ∈ l.roots env cwd, r <+: q → Closed env cwd r q := by
    intro r hr hrq
    obtain ⟨d, hd, hdp⟩ := hclosed r hr (hrq.trans hqp)
    exact ⟨d, hd, hlongest d (mem_marks.mpr (.inr ⟨r, hr, hrq.trans hqp, hd⟩)) hdp⟩
  refine StaysClosed.mono ?_ hqp
  by_cases hqroot : q ∈ l.roots env cwd
  · by_cases hlisted : q ∈ cwd :: l.writableRoots
    · -- some root lets write a listed root
      obtain ⟨r, hr, hrq, hopen⟩ := hroots q hlisted
      obtain ⟨d, hd, hdq⟩ := hclosedq r hr hrq
      exact absurd hdq (hopen d hd)
    · exact htemp q hqroot hlisted q List.mem_cons_self (List.prefix_refl q) hclosedq root hroot
        (hrootq hroot hrp)
  · obtain ⟨hq, -⟩ | ⟨r, hr, hrp', hq⟩ := mem_marks.mp hq
    · exact absurd hq hqroot
    by_cases hlisted : r ∈ cwd :: l.writableRoots
    · -- the protected path has an entry
      refine .inl ⟨q, mem_entryPaths.mpr (entered_of_protected l env cwd hlisted hq), hqroot, ?_,
        hrootq hroot hrp, List.prefix_refl q⟩
      rintro rfl
      exact hqroot hroot
    · exact htemp r hr hlisted q (List.mem_cons_of_mem r hq) (hrootq hr hrp') hclosedq root hroot
        (hrootq hroot hrp)

/-- The conversion widens nothing exactly where the workspace and the listed roots are not closed to
themselves and the temporary directories stay closed where they are. -/
theorem conversion_never_widens_iff (l : WorkspaceWrite) (env : Env) (cwd : AbsolutePath) :
    NeverWidens l env cwd ↔ RootsWritable l env cwd ∧ TempRootsKeep l env cwd := by
  simp only [NeverWidens, split_allows_iff, legacy_allows_iff]
  constructor
  · intro h
    refine ⟨fun s hs => ?_, fun t _ _ q _ _ hclosed root hroot hrq => ?_⟩
    · obtain ⟨root, hroot, hrs, hopen⟩ :=
        h s ⟨s, mem_roots_of_listed hs, List.prefix_refl s, not_staysClosed_self hs⟩
      exact ⟨root, hroot, hrs, fun d hd hds => hopen ⟨d, hd, hds⟩⟩
    · by_contra hopen
      obtain ⟨r, hr, hrq', hropen⟩ := h q ⟨root, hroot, hrq, hopen⟩
      exact hropen (hclosed r hr hrq')
  · rintro ⟨hroots, htemp⟩ p ⟨root, hroot, hrp, hopen⟩
    by_contra hdenied
    push Not at hdenied
    exact hopen (staysClosed_of_closed hroots htemp hdenied hroot hrp)

/-- The workspace `/work` without temporary directories. -/
def plainWorkspace : WorkspaceWrite := ⟨[], .fullAccess, false, true, true⟩

/-- An empty workspace directory. -/
def plainEnv : Env := ⟨none, none, none, .ofNodes [(["work".toList], .dir)]⟩

/-- A workspace whose `.git` file names the workspace itself. -/
def selfGitdirEnv : Env :=
  ⟨none, none, none, .ofNodes [(["work".toList], .dir),
    (["work".toList, dotGit], .file (.text "gitdir: /work".toList))]⟩

/-- Under the legacy policy nothing can be written in such a workspace; once converted, everything
but its `.git` and `.codex` can. -/
theorem self_gitdir_widens :
    let path : AbsolutePath := ["work".toList, "x".toList]
    (∃ w ∈ (plainWorkspace.split selfGitdirEnv ["work".toList]).getWritableRootsWithCwd
        selfGitdirEnv ["work".toList], w.isPathWritable path = true) ∧
      ¬∃ w ∈ plainWorkspace.policy.getWritableRootsWithCwd selfGitdirEnv ["work".toList],
        w.isPathWritable path = true := by
  decide +kernel

/-- A worktree in `/tmp` of the repository `/work`: its git directory lies in the workspace. -/
def tmpWorktreeEnv : Env :=
  ⟨none, none, none, .ofNodes [(["work".toList], .dir), (["work".toList, dotGit], .dir),
    (["tmp".toList], .dir),
    (["tmp".toList, dotGit], .file (.text "gitdir: /work/.git/worktrees/t".toList))]⟩

example :
    let l : WorkspaceWrite := ⟨[], .fullAccess, false, true, false⟩
    RootsWritable l tmpWorktreeEnv ["work".toList] ∧
      TempRootsKeep l tmpWorktreeEnv ["work".toList] := by
  decide +kernel

end WorkspaceWrite

end Supercodex.Permissions
