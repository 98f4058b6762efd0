import Supercodex.GhostCommits.Status

/-!
# Repositories and the commands of `git`

A repository is its work tree, its index, the tree of `HEAD` and its ignore rules. `git status` lists the
tracked paths that changed and the untracked files that are not ignored, `git add` stages what its paths
match, and `git restore --worktree` writes the files of a tree and deletes tracked files that it has not.
A path that is given to `git` matches itself and what lies below it.
-/

namespace Supercodex.GhostCommits

/-- A path that a repository can hold. -/
def ValidPath (p : RelPath) : Prop :=
  p ≠ [] ∧ ∀ name ∈ p,
    name ≠ [] ∧ name ≠ ['.'] ∧ name ≠ ['.', '.'] ∧ '/' ∉ name ∧ '\x00' ∉ name

instance (p : RelPath) : Decidable (ValidPath p) := inferInstanceAs (Decidable (_ ∧ _))

/-- A repository. -/
structure Repo where
  worktree : Files Text Content
  index : Files Text Content
  head : Files Text Content
  ignored : RelPath → Bool
  valid : ∀ p ∈ worktree.paths ++ index.paths ++ head.paths, ValidPath p
  separate : worktree.Separate

namespace Repo

variable (repo : Repo)

/-- A path of the index. -/
def IsTracked (p : RelPath) : Prop := (repo.index.get p).isSome

/-- A file that is neither tracked nor ignored. -/
def IsUntracked (p : RelPath) : Prop :=
  (repo.worktree.get p).isSome ∧ repo.index.get p = none ∧ repo.ignored p = false

/-- A file that is ignored and not tracked. -/
def IsIgnored (p : RelPath) : Prop :=
  (repo.worktree.get p).isSome ∧ repo.index.get p = none ∧ repo.ignored p = true

/-- A path where `HEAD`, the index and the work tree do not agree. -/
def IsChanged (p : RelPath) : Prop :=
  repo.head.get p ≠ repo.index.get p ∨
    ((repo.index.get p).isSome ∧ repo.worktree.get p ≠ repo.index.get p)

instance (p : RelPath) : Decidable (repo.IsTracked p) := inferInstanceAs (Decidable (_ = true))

instance (p : RelPath) : Decidable (repo.IsUntracked p) := inferInstanceAs (Decidable (_ ∧ _))

instance (p : RelPath) : Decidable (repo.IsIgnored p) := inferInstanceAs (Decidable (_ ∧ _))

instance (p : RelPath) : Decidable (repo.IsChanged p) := inferInstanceAs (Decidable (_ ∨ _))

end Repo

/-! ## `git status --porcelain=2 -z --untracked-files=all` -/

/-- A path as `git` prints it. -/
def pathText (p : RelPath) : Text := ['/'].intercalate p

/-- The fields of a record between its kind and its path. -/
structure RecordFields (n : ℕ) where
  texts : List Text
  length_eq : texts.length = n
  plain : ∀ t ∈ texts, ' ' ∉ t ∧ '\x00' ∉ t

/-- An entry of the status. -/
inductive StatusEntry where
  | ordinary (fields : RecordFields 7) (path : RelPath)
  | renamed (fields : RecordFields 8) (path source : RelPath)
  | unmerged (fields : RecordFields 9) (path : RelPath)
  | untracked (path : RelPath)

/-- A record: its kind, its fields and its path. -/
def statusRecord (kind : Char) (fields : List Text) (path : RelPath) : Text :=
  kind :: (fields.flatMap (' ' :: ·) ++ ' ' :: pathText path)

namespace StatusEntry

/-- What is printed of an entry, each part ended by a zero. -/
def pieces : StatusEntry → List Text
  | ordinary fields path => [statusRecord '1' fields.texts path]
  | renamed fields path source => [statusRecord '2' fields.texts path, pathText source]
  | unmerged fields path => [statusRecord 'u' fields.texts path]
  | untracked path => [statusRecord '?' [] path]

/-- The tracked paths that an entry names. -/
def trackedPaths : StatusEntry → List RelPath
  | ordinary _ path => [path]
  | renamed _ path source => [path, source]
  | unmerged _ path => [path]
  | untracked _ => []

/-- The untracked file that an entry names. -/
def untrackedPaths : StatusEntry → List RelPath
  | untracked path => [path]
  | _ => []

end StatusEntry

/-- The output of `git status`. -/
def statusOutput (entries : List StatusEntry) : Text :=
  (entries.flatMap (·.pieces)).flatMap (· ++ ['\x00'])

/-- The entries that `git status` may list, in any order and with any detection of renames. -/
structure Repo.Lists (repo : Repo) (entries : List StatusEntry) : Prop where
  tracked : ∀ p, p ∈ entries.flatMap (·.trackedPaths) ↔ repo.IsChanged p
  untracked : ∀ p, p ∈ entries.flatMap (·.untrackedPaths) ↔ repo.IsUntracked p
  nodup : (entries.flatMap (·.untrackedPaths)).Nodup

/-! ## `git add` and `git restore` -/

/-- `build_command_string`. -/
def buildCommandString (args : List Text) : Text :=
  "git ".toList ++ [' '].intercalate args

/-- The arguments of `git add`. -/
def addArgs (force : Bool) (paths : List RelPath) : List Text :=
  (if force then ["add", "--force"] else ["add", "--all", "--"]).map String.toList ++
    paths.map pathText

/-- `git add --all` or `git add --force` on an index: every path must match something, and an ignored
file may be named only if it is in the index or added by force. -/
def gitAdd (force : Bool) (repo : Repo) (index : Files Text Content) (paths : List RelPath) :
    Except GitToolingError (Files Text Content) :=
  let unmatched := paths.any fun path =>
    !(repo.worktree ++ index).any fun file => path.isPrefixOf file.1
  let refused := paths.any fun path =>
    (repo.worktree.get path).isSome && (index.get path).isNone && repo.ignored path
  if unmatched || (refused && !force) then
    .error (.gitCommand (buildCommandString (addArgs force paths)))
  else
    .ok (Files.keep (fun p => !below paths p) index ++
      repo.worktree.keep fun p =>
        below paths p && (force || (index.get p).isSome || !repo.ignored p))

/-- `git restore --source <tree> --worktree -- .`. -/
def gitRestore (repo : Repo) (tree : Files Text Content) : Files Text Content :=
  Files.write tree
    (repo.worktree.keep fun p => (tree.get p).isSome || (repo.index.get p).isNone)

end Supercodex.GhostCommits

/-!
# Ghost commits (`git-utils/src/ghost_commits.rs`)

A ghost commit holds the work tree of a repository and names the untracked files and directories that
were there. Undo restores its files and removes the untracked files that are new.
-/

namespace Supercodex.GhostCommits

/-- `GhostCommit`, with the tree that its id stands for. -/
structure GhostCommit where
  tree : Files Text Content
  preexistingUntrackedFiles : List RelPath
  preexistingUntrackedDirs : List RelPath
deriving DecidableEq

/-- `GhostSnapshotReport`. -/
structure GhostSnapshotReport where
  largeUntrackedDirs : List LargeUntrackedDir
  ignoredUntrackedFiles : List IgnoredUntrackedFile
deriving DecidableEq

/-- `CreateGhostCommitOptions`. -/
structure CreateGhostCommitOptions where
  forceInclude : List Text
  ghostSnapshot : GhostSnapshotConfig
deriving DecidableEq

/-- `merge_preserved_untracked_files`. -/
def mergePreservedUntrackedFiles (files : List RelPath) (ignored : List IgnoredUntrackedFile) :
    List RelPath :=
  files ++ ignored.map (·.path)

/-- `merge_preserved_untracked_dirs`. -/
def mergePreservedUntrackedDirs (dirs : List RelPath) (ignoredLargeDirs : List LargeUntrackedDir) :
    List RelPath :=
  ignoredLargeDirs.foldl (fun dirs entry =>
    if entry.path ∈ dirs then dirs else dirs ++ [entry.path]) dirs

/-- The chunks of 64 paths in which `add_paths_to_index` calls `git`; the fuel is the number of
paths. -/
def chunks : ℕ → List RelPath → List (List RelPath)
  | 0, _ => []
  | _ + 1, [] => []
  | fuel + 1, path :: paths => (path :: paths).take 64 :: chunks fuel ((path :: paths).drop 64)

/-- `add_paths_to_index`. -/
def addPathsToIndex (repo : Repo) (index : Files Text Content) (paths : List RelPath) :
    Except GitToolingError (Files Text Content) :=
  (chunks paths.length paths).foldlM (gitAdd false repo) index

/-- `create_ghost_commit_with_report`, at the root of the repository. -/
def createGhostCommitWithReport (options : CreateGhostCommitOptions) (repo : Repo)
    (status : Text) : Except GitToolingError (GhostCommit × GhostSnapshotReport) := do
  let forceInclude ← prepareForceInclude options.forceInclude
  let statusSnapshot ←
    captureStatusSnapshot repo.worktree options.ghostSnapshot forceInclude status
  let existingUntracked := statusSnapshot.untracked
  let indexPaths :=
    dedupePaths (statusSnapshot.trackedPaths ++ existingUntracked.untrackedFilesForIndex)
  let index ← addPathsToIndex repo repo.head indexPaths
  let index ← if forceInclude = [] then pure index else gitAdd true repo index forceInclude
  return (
    ⟨index,
      mergePreservedUntrackedFiles existingUntracked.files existingUntracked.ignoredUntrackedFiles,
      mergePreservedUntrackedDirs existingUntracked.dirs
        existingUntracked.ignoredLargeUntrackedDirs⟩,
    ⟨existingUntracked.ignoredLargeUntrackedDirs, existingUntracked.ignoredUntrackedFiles⟩)

/-- `create_ghost_commit`. -/
def createGhostCommit (options : CreateGhostCommitOptions) (repo : Repo) (status : Text) :
    Except GitToolingError GhostCommit := do
  let result ← createGhostCommitWithReport options repo status
  return result.1

/-- `should_preserve`. -/
def shouldPreserve (path : RelPath) (preservedFiles preservedDirs : List RelPath) : Bool :=
  path ∈ preservedFiles || below preservedDirs path

/-- `fs::symlink_metadata`: whether a directory is at the path. Below a file no path can be looked
up. -/
def symlinkMetadata (worktree : Files Text Content) (path : RelPath) : Except ErrorKind Bool :=
  if (worktree.get path).isSome then .ok false
  else if worktree.isDir path then .ok true
  else if worktree.belowFile path then .error .notADirectory
  else .error .notFound

/-- `remove_path`: an absent path is ignored, every other error is returned. -/
def removePath (worktree : Files Text Content) (path : RelPath) :
    Except GitToolingError (Files Text Content) :=
  match symlinkMetadata worktree path with
  | .ok _ => .ok (worktree.remove path)
  | .error .notFound => .ok worktree
  | .error kind => .error (.io kind)

/-- The paths are removed in order, up to the first error: the work tree then, and the result. -/
def removePaths : Files Text Content → List RelPath →
    Files Text Content × Except GitToolingError Unit
  | worktree, [] => (worktree, .ok ())
  | worktree, path :: paths =>
    match removePath worktree path with
    | .ok next => removePaths next paths
    | .error error => (worktree, .error error)

/-- `remove_new_untracked`: files and then directories that the snapshot does not name. -/
def removeNewUntracked (worktree : Files Text Content) (preservedFiles preservedDirs : List RelPath)
    (current : UntrackedSnapshot) : Files Text Content × Except GitToolingError Unit :=
  removePaths worktree ((current.files ++ current.dirs).filter fun path =>
    !shouldPreserve path preservedFiles preservedDirs)

/-- `restore_ghost_commit_with_options`, at the root of the repository: the work tree afterwards, and
the result. -/
def restoreGhostCommitWithOptions (config : GhostSnapshotConfig) (repo : Repo) (status : Text)
    (commit : GhostCommit) : Files Text Content × Except GitToolingError Unit :=
  match captureExistingUntracked repo.worktree config [] status with
  | .error error => (repo.worktree, .error error)
  | .ok currentUntracked =>
    removeNewUntracked (gitRestore repo commit.tree) commit.preexistingUntrackedFiles
      commit.preexistingUntrackedDirs currentUntracked

end Supercodex.GhostCommits
