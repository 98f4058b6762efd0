import Supercodex.ApplyPatch.Update
import Supercodex.Library.FileTree
import Supercodex.Library.Effects

/-!
# Applying a patch (`apply_hunks_to_files` in `apply-patch/src/lib.rs`)

The executor's file system (`exec-server/src/local_file_system.rs`) works on a file tree. Besides
the tree the state lists the paths that have been written, created or removed. Any operation may
also fail for a reason outside the tree, such as a missing permission: `fault` says which.
-/

namespace Supercodex.ApplyPatch

open Text Supercodex.Path Effects

/-- The operations of `ExecutorFileSystem` that a patch uses. -/
inductive FsOp where
  | read
  | write
  | createDirectory
  | getMetadata
  | remove
deriving DecidableEq

/-- The operations that fail whatever the tree holds. -/
abbrev Faults := FsOp → AbsolutePath → Option IoErrorKind

/-- The tree and the paths that have been written, created or removed. -/
structure FsState where
  tree : FileTree
  touched : List AbsolutePath

/-- Operations on the file system. -/
abbrev Fs := EStateM IoErrorKind FsState

/-- Computations of `apply_patch`. -/
abbrev Apply := EStateM ApplyPatchError FsState

/-- The state after a node has been set. -/
def FsState.set (s : FsState) (p : AbsolutePath) (n : Option Node) (h : s.tree.Settable p) :
    FsState :=
  ⟨s.tree.set p n h, s.touched ++ [p]⟩

/-- Why nothing is found at a path: a file stands in the way, or something is missing. -/
def lookupError (tree : FileTree) (p : AbsolutePath) : IoErrorKind :=
  if p.dropLast.inits.any tree.isFile then .notADirectory else .notFound

section
variable (fault : Faults)

/-- A failure that does not depend on the tree. -/
def checkFault (op : FsOp) (p : AbsolutePath) : Fs Unit :=
  match fault op p with
  | some kind => throw kind
  | none => pure ()

/-! ## The executor's file system -/

/-- `ExecutorFileSystem::read_file_text` on a tree. -/
def readText (tree : FileTree) (p : AbsolutePath) : Except IoErrorKind Text :=
  match fault .read p with
  | some kind => .error kind
  | none =>
    match tree.node p with
    | some (.file (.text t)) => .ok t
    | some (.file (.binary _)) => .error .invalidData
    | some .dir => .error .isADirectory
    | none => .error (lookupError tree p)

/-- `write_file`. -/
def writeFile (p : AbsolutePath) (contents : Text) : Fs Unit := do
  checkFault fault .write p
  let s ← get
  if h : s.tree.Settable p then EStateM.set (s.set p (some (.file (.text contents))) h)
  else throw (if s.tree.isDir p then .isADirectory else lookupError s.tree p)

/-- `create_dir_all` below a directory: the missing directories are created from the top. -/
def createDirectories (done : AbsolutePath) : List Text → Fs Unit
  | [] => pure ()
  | name :: rest => do
    let p := done ++ [name]
    let s ← get
    match s.tree.node p with
    | some .dir => createDirectories p rest
    | some (.file _) => throw (if rest = [] then .alreadyExists else .notADirectory)
    | none =>
      checkFault fault .createDirectory p
      if h : s.tree.Settable p then
        EStateM.set (s.set p (some .dir) h)
        createDirectories p rest
      else throw .notFound

/-- `create_directory` with `recursive`. -/
def createDirectory (p : AbsolutePath) : Fs Unit := createDirectories fault [] p

/-- `get_metadata`, the check that the path is no directory, and `remove`. -/
def removeFile (p : AbsolutePath) : Fs Unit := do
  checkFault fault .getMetadata p
  let s ← get
  match s.tree.node p with
  | none => throw (lookupError s.tree p)
  | some .dir => throw .invalidInput
  | some (.file _) =>
    checkFault fault .remove p
    if h : s.tree.Settable p then EStateM.set (s.set p none h)
    else throw .notFound

/-! ## Hunks -/

/-- `with_context` for an I/O error. -/
def withContext {α : Type} (context : String) (p : AbsolutePath) (m : Fs α) : Apply α :=
  mapError (.ioError (context.toList ++ toText p)) m

/-- The directories above a path, created where they are missing. -/
def createParents (p : AbsolutePath) : Apply Unit :=
  if p = [] then pure ()
  else
    withContext "Failed to create parent directories for " p (createDirectory fault p.dropLast)

/-- `write_file_with_missing_parent_retry`. -/
def writeFileWithMissingParentRetry (p : AbsolutePath) (contents : Text) : Apply Unit := fun s =>
  match writeFile fault p contents s with
  | .ok () s' => .ok () s'
  | .error .notFound s' =>
    (do
      createParents fault p
      withContext "Failed to write file " p (writeFile fault p contents)) s'
  | .error kind s' => .error (.ioError ("Failed to write file ".toList ++ toText p) kind) s'

/-- `derive_new_contents_from_chunks`, the new contents only. -/
def deriveNewContentsFromChunks (tree : FileTree) (p : AbsolutePath)
    (chunks : List UpdateFileChunk) : Except ApplyPatchError Text :=
  match readText fault tree p with
  | .error kind => .error (.ioError ("Failed to read file to update ".toList ++ toText p) kind)
  | .ok originalContents => newContents p originalContents chunks

variable (home : Option AbsolutePath) (cwd : AbsolutePath)

/-- The destination of a rename, resolved. -/
def Hunk.moveDestination (home : Option AbsolutePath) (cwd : AbsolutePath) (hunk : Hunk) :
    Option AbsolutePath :=
  match hunk with
  | .updateFile _ (some dest) _ => some (resolvePathAgainstBase home dest cwd)
  | _ => none

/-- `AffectedPaths`. -/
structure AffectedPaths where
  added : List Text
  modified : List Text
  deleted : List Text
deriving DecidableEq

/-- The new contents go to the destination of a rename and the original is removed, or they
replace the original. -/
def writeUpdate (path : AbsolutePath) (destination : Option AbsolutePath) (contents : Text) :
    Apply Unit :=
  match destination with
  | some dest => do
    writeFileWithMissingParentRetry fault dest contents
    withContext "Failed to remove original " path (removeFile fault path)
  | none => withContext "Failed to write file " path (writeFile fault path contents)

/-- One round of the loop of `apply_hunks_to_files`. -/
def applyHunk (hunk : Hunk) (affected : AffectedPaths) : Apply AffectedPaths :=
  let path := hunk.resolvePath home cwd
  match hunk with
  | .addFile _ contents => do
    writeFileWithMissingParentRetry fault path contents
    return { affected with added := affected.added ++ [hunk.path] }
  | .deleteFile _ => do
    withContext "Failed to delete file " path (removeFile fault path)
    return { affected with deleted := affected.deleted ++ [hunk.path] }
  | .updateFile _ _ chunks => do
    let s ← get
    let contents ← fromExcept (deriveNewContentsFromChunks fault s.tree path chunks)
    writeUpdate fault path (hunk.moveDestination home cwd) contents
    return { affected with modified := affected.modified ++ [hunk.path] }

/-- The loop of `apply_hunks_to_files`. -/
def applyHunks : List Hunk → AffectedPaths → Apply AffectedPaths
  | [], affected => pure affected
  | hunk :: hunks, affected => do
    let affected ← applyHunk fault home cwd hunk affected
    applyHunks hunks affected

/-- `apply_hunks_to_files`. -/
def applyHunksToFiles (hunks : List Hunk) : Apply AffectedPaths :=
  if hunks = [] then throw .noFilesModified
  else applyHunks fault home cwd hunks ⟨[], [], []⟩

end

end Supercodex.ApplyPatch
