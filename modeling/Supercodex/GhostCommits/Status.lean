import Supercodex.Library.Files
import Supercodex.Library.FirstOccurrences
import Supercodex.Path.AbsolutePath

/-!
# The status of a repository (`git-utils/src/ghost_commits.rs`, `operations.rs`)

`capture_status_snapshot` reads the zero-delimited output of `git status --porcelain=2` and sorts what
it lists into tracked paths, untracked files, files that are too large and directories that hold too
many untracked files. The functions are those at the root of the repository, without a prefix.
-/

namespace Supercodex.GhostCommits

open Supercodex.Path

/-- A path below the root of the repository: the names from the root down. -/
abbrev RelPath := List Text

/-- The bytes of a file. -/
abbrev Content := List UInt8

/-- `io::ErrorKind`, as far as a look-up of a path returns it. -/
inductive ErrorKind where
  | notFound
  | notADirectory
deriving DecidableEq

/-- `GitToolingError`, as far as these functions return it. -/
inductive GitToolingError where
  | gitCommand (command : Text)
  | nonRelativePath (path : Text)
  | pathEscapesRepository (path : Text)
  | io (kind : ErrorKind)
deriving DecidableEq

/-! ## Paths -/

/-- One component in `normalize_relative_path`. -/
def normalizeStep (path : Text) (result : RelPath) : Component → Except GitToolingError RelPath
  | .normal part => .ok (result ++ [part])
  | .curDir => .ok result
  | .parentDir =>
    if result = [] then .error (.pathEscapesRepository path) else .ok result.dropLast

/-- `normalize_relative_path`. -/
def normalizeRelativePath (path : Text) : Except GitToolingError RelPath :=
  if isAbsolute path ∨ components path = [] then .error (.nonRelativePath path)
  else (components path).foldlM (normalizeStep path) []

/-- `DEFAULT_IGNORED_DIR_NAMES`. -/
def defaultIgnoredDirNames : List Text :=
  ["node_modules", ".venv", "venv", "env", ".env", "dist", "build", ".pytest_cache",
    ".mypy_cache", ".cache", ".tox", "__pycache__"].map String.toList

/-- `should_ignore_for_snapshot`. -/
def shouldIgnoreForSnapshot (path : RelPath) : Bool :=
  path.any fun name => name ∈ defaultIgnoredDirNames

/-- `is_force_included`. -/
def isForceIncluded (path : RelPath) (forceInclude : List RelPath) : Bool :=
  forceInclude.any fun candidate => candidate.isPrefixOf path

/-- `prepare_force_include` at the root of the repository. -/
def prepareForceInclude (forceInclude : List Text) : Except GitToolingError (List RelPath) :=
  forceInclude.mapM normalizeRelativePath

/-- `dedupe_paths`. -/
def dedupePaths (paths : List RelPath) : List RelPath := firstOccurrences paths

/-! ## Large files and directories -/

/-- `GhostSnapshotConfig`. -/
structure GhostSnapshotConfig where
  ignoreLargeUntrackedFiles : Option ℤ
  ignoreLargeUntrackedDirs : Option ℤ
deriving DecidableEq

/-- `LargeUntrackedDir`. -/
structure LargeUntrackedDir where
  path : RelPath
  fileCount : ℤ
deriving DecidableEq

/-- `IgnoredUntrackedFile`. -/
structure IgnoredUntrackedFile where
  path : RelPath
  byteSize : ℤ
deriving DecidableEq

/-- `untracked_file_size`: the length of the file, at most `i64::MAX`. -/
def untrackedFileSize (worktree : Files Text Content) (path : RelPath) : Option ℤ :=
  (worktree.get path).map fun content => min (content.length : ℤ) (2 ^ 63 - 1)

/-- The size of an untracked file that is over the threshold and not included by force. -/
def oversize (worktree : Files Text Content) (config : GhostSnapshotConfig)
    (forceInclude : List RelPath) (path : RelPath) : Option ℤ :=
  match config.ignoreLargeUntrackedFiles, untrackedFileSize worktree path with
  | some threshold, some byteSize =>
    if 0 < threshold ∧ ¬ isForceIncluded path forceInclude ∧ threshold < byteSize then some byteSize
    else none
  | _, _ => none

/-- The directory that a file counts for in `detect_large_untracked_dirs`. -/
def dirKey (sortedDirs : List RelPath) (file : RelPath) : RelPath :=
  (sortedDirs.find? fun dir => dir.isPrefixOf file).getD file.dropLast

/-- The order of `sorted_dirs`: deeper ones first. -/
def deeperFirst (a b : RelPath) : Bool :=
  b.length < a.length ∨ (a.length = b.length ∧ a ≤ b)

/-- The order of the result: larger ones first. -/
def largerFirst (a b : LargeUntrackedDir) : Bool :=
  b.fileCount < a.fileCount ∨ (a.fileCount = b.fileCount ∧ a.path ≤ b.path)

/-- `detect_large_untracked_dirs`. -/
def detectLargeUntrackedDirs (files dirs : List RelPath) (threshold : Option ℤ) :
    List LargeUntrackedDir :=
  match threshold with
  | none => []
  | some threshold =>
    if threshold ≤ 0 then []
    else
      let sortedDirs := dirs.mergeSort deeperFirst
      let keys := files.map (dirKey sortedDirs)
      let counts := ((dedupePaths keys).mergeSort (· ≤ ·)).map fun key =>
        LargeUntrackedDir.mk key (keys.count key)
      (counts.filter fun dir => threshold ≤ dir.fileCount).mergeSort largerFirst

/-! ## Snapshots -/

/-- `UntrackedSnapshot`. -/
structure UntrackedSnapshot where
  files : List RelPath
  dirs : List RelPath
  untrackedFilesForIndex : List RelPath
  ignoredUntrackedFiles : List IgnoredUntrackedFile
  ignoredLargeUntrackedDirs : List LargeUntrackedDir
  ignoredLargeUntrackedDirFiles : List RelPath
deriving DecidableEq

/-- `StatusSnapshot`. -/
structure StatusSnapshot where
  trackedPaths : List RelPath
  untracked : UntrackedSnapshot
deriving DecidableEq

/-- `StatusSnapshot::default`. -/
def StatusSnapshot.default : StatusSnapshot := ⟨[], ⟨[], [], [], [], [], []⟩⟩

/-- The variables of the loop over the entries. -/
structure Scan where
  snapshot : StatusSnapshot
  untrackedFilesForDirScan : List RelPath
  expectRenameSource : Bool
deriving DecidableEq

/-- Before the first entry. -/
def Scan.start : Scan := ⟨.default, [], false⟩

/-- `extract_status_path_after_fields`. -/
def extractStatusPathAfterFields : Text → ℕ → Option Text
  | _, 0 => none
  | [], _ => none
  | ch :: rest, n + 1 =>
    if ch = ' ' then
      if n = 0 then (if rest = [] then none else some rest)
      else extractStatusPathAfterFields rest n
    else extractStatusPathAfterFields rest (n + 1)

/-- `splitn(2, ' ')`, if there are two parts. -/
def splitAtSpace (entry : Text) : Option (Text × Text) :=
  match entry.dropWhile (· ≠ ' ') with
  | [] => none
  | _ :: pathPart => some (entry.takeWhile (· ≠ ' '), pathPart)

section Scanning

variable (worktree : Files Text Content) (config : GhostSnapshotConfig)
  (forceInclude : List RelPath)

/-- A tracked path of the status. -/
def Scan.pushTracked (scan : Scan) (path : Text) : Except GitToolingError Scan := do
  let normalized ← normalizeRelativePath path
  return { scan with
    snapshot := { scan.snapshot with
      trackedPaths := scan.snapshot.trackedPaths ++ [normalized] } }

/-- A record with so many fields before its path. -/
def Scan.pushRecord (scan : Scan) (entry : Text) (fieldsBeforePath : ℕ) :
    Except GitToolingError Scan :=
  match extractStatusPathAfterFields entry fieldsBeforePath with
  | some path => scan.pushTracked path
  | none => .ok scan

/-- An untracked or ignored path of the status. -/
def Scan.pushUntracked (scan : Scan) (code : Text) (path : RelPath) : Scan :=
  let untracked := scan.snapshot.untracked
  if worktree.isDir path then
    { scan with snapshot := { scan.snapshot with
        untracked := { untracked with dirs := untracked.dirs ++ [path] } } }
  else if code = ['?'] then
    let scan := { scan with
      untrackedFilesForDirScan := scan.untrackedFilesForDirScan ++ [path] }
    match oversize worktree config forceInclude path with
    | some byteSize =>
      { scan with snapshot := { scan.snapshot with
          untracked := { untracked with
            ignoredUntrackedFiles := untracked.ignoredUntrackedFiles ++ [⟨path, byteSize⟩] } } }
    | none =>
      { scan with snapshot := { scan.snapshot with
          untracked := { untracked with
            files := untracked.files ++ [path]
            untrackedFilesForIndex := untracked.untrackedFilesForIndex ++ [path] } } }
  else
    { scan with snapshot := { scan.snapshot with
        untracked := { untracked with files := untracked.files ++ [path] } } }

/-- The body of the loop over the entries of the status. -/
def Scan.entry (scan : Scan) (entry : Text) : Except GitToolingError Scan :=
  if entry = [] then .ok scan
  else if scan.expectRenameSource then do
    let scan ← scan.pushTracked entry
    return { scan with expectRenameSource := false }
  else if entry.head? = some '?' ∨ entry.head? = some '!' then
    match splitAtSpace entry with
    | none => .ok scan
    | some (code, pathPart) =>
      if pathPart = [] then .ok scan
      else do
        let normalized ← normalizeRelativePath pathPart
        if shouldIgnoreForSnapshot normalized then return scan
        else return scan.pushUntracked worktree config forceInclude code normalized
  else if entry.head? = some '1' then scan.pushRecord entry 8
  else if entry.head? = some '2' then do
    let scan ← scan.pushRecord entry 9
    return { scan with expectRenameSource := true }
  else if entry.head? = some 'u' then scan.pushRecord entry 10
  else .ok scan

/-- Whether a path lies at or below one of the directories. -/
def below (dirs : List RelPath) (path : RelPath) : Bool := dirs.any fun dir => dir.isPrefixOf path

/-- The large directories of a scan, without the root of the repository. -/
def Scan.largeDirs (scan : Scan) : List LargeUntrackedDir :=
  (detectLargeUntrackedDirs scan.untrackedFilesForDirScan scan.snapshot.untracked.dirs
    config.ignoreLargeUntrackedDirs).filter fun dir => dir.path ≠ []

/-- The end of `capture_status_snapshot`: what large directories hold is taken out. -/
def Scan.dropLargeDirs (scan : Scan) : StatusSnapshot :=
  let untracked := scan.snapshot.untracked
  let large := scan.largeDirs config
  if large = [] then scan.snapshot
  else
    let isLarge := below (large.map (·.path))
    { scan.snapshot with
      untracked :=
        { files := untracked.files.filter fun path => !isLarge path
          dirs := untracked.dirs.filter fun path => !isLarge path
          untrackedFilesForIndex :=
            untracked.untrackedFilesForIndex.filter fun path => !isLarge path
          ignoredUntrackedFiles :=
            untracked.ignoredUntrackedFiles.filter fun file => !isLarge file.path
          ignoredLargeUntrackedDirs := large
          ignoredLargeUntrackedDirFiles := scan.untrackedFilesForDirScan.filter isLarge } }

/-- `capture_status_snapshot`, from the output of `git status`. -/
def captureStatusSnapshot (output : Text) : Except GitToolingError StatusSnapshot :=
  if output = [] then .ok .default
  else do
    let scan ← (output.splitOn '\x00').foldlM (Scan.entry worktree config forceInclude) .start
    return Scan.dropLargeDirs config scan

/-- `capture_existing_untracked`. -/
def captureExistingUntracked (output : Text) : Except GitToolingError UntrackedSnapshot := do
  let snapshot ← captureStatusSnapshot worktree config forceInclude output
  return snapshot.untracked

end Scanning

end Supercodex.GhostCommits
