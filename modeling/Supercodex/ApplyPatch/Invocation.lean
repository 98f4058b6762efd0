import Supercodex.ApplyPatch.Apply
import Supercodex.Permissions.Policy

/-!
# Recognising and verifying a patch (`apply-patch/src/invocation.rs`, `core/src/safety.rs`)

A command that calls `apply_patch` is verified against the file system before it is run: the
changes it would make are collected by path, and the safety check asks the sandbox policy about
each of them. Finding the heredoc in a shell script is the work of a grammar outside the
repository; `extractApplyPatchFromBash` stands for it.
-/

namespace Supercodex.ApplyPatch

open Text Supercodex.Path Permissions

/-- `ExtractHeredocError`. -/
inductive ExtractHeredocError where
  | commandDidNotStartWithApplyPatch
  | failedToLoadBashGrammar
  | heredocNotUtf8
  | failedToParsePatchIntoAst
  | failedToFindHeredocBody
deriving DecidableEq

/-- `ApplyPatchFileChange`, without the diff that is shown to the user. -/
inductive ApplyPatchFileChange where
  | add (content : Text)
  | delete (content : Text)
  | update (movePath : Option AbsolutePath) (newContent : Text)
deriving DecidableEq

/-- The destination of a change that renames. -/
def ApplyPatchFileChange.movePath : ApplyPatchFileChange → Option AbsolutePath
  | .update movePath _ => movePath
  | .add _ | .delete _ => none

/-- `HashMap<PathBuf, ApplyPatchFileChange>`: one change for each path. -/
abbrev Changes := List (AbsolutePath × ApplyPatchFileChange)

/-- `HashMap::insert`. -/
def Changes.insert (changes : Changes) (path : AbsolutePath) (change : ApplyPatchFileChange) :
    Changes :=
  changes.filter (·.1 ≠ path) ++ [(path, change)]

/-- `ApplyPatchAction`. -/
structure ApplyPatchAction where
  changes : Changes
  patch : Text
  cwd : AbsolutePath
deriving DecidableEq

/-- `MaybeApplyPatch`. -/
inductive MaybeApplyPatch where
  | body (args : ApplyPatchArgs)
  | shellParseError (error : ExtractHeredocError)
  | patchParseError (error : ParseError)
  | notApplyPatch
deriving DecidableEq

/-- `MaybeApplyPatchVerified`. -/
inductive MaybeApplyPatchVerified where
  | body (action : ApplyPatchAction)
  | shellParseError (error : ExtractHeredocError)
  | correctnessError (error : ApplyPatchError)
  | notApplyPatch
deriving DecidableEq

/-! ## Commands -/

def applyPatchCommands : List Text := ["apply_patch".toList, "applypatch".toList]

/-- `ApplyPatchShell`. -/
inductive ApplyPatchShell where
  | unix
  | powerShell
  | cmd
deriving DecidableEq

/-- `Path::file_stem` of a file name: what stands before its last dot, unless that is nothing. -/
def fileStem (name : Text) : Text :=
  match (name.reverse.dropWhile (· ≠ '.')).tail.reverse with
  | [] => name
  | stem => stem

/-- `classify_shell_name`. -/
def classifyShellName (shell : Text) : Option Text :=
  match ((components shell).filter (· ≠ .curDir)).getLast? with
  | some (.normal name) => some ((fileStem name).map Char.toLower)
  | _ => none

/-- `str::eq_ignore_ascii_case`. -/
def eqIgnoreAsciiCase (a b : Text) : Bool := a.map Char.toLower = b.map Char.toLower

/-- `classify_shell`. -/
def classifyShell (shell flag : Text) : Option ApplyPatchShell :=
  (classifyShellName shell).bind fun name =>
    if name ∈ ["bash".toList, "zsh".toList, "sh".toList] ∧
        flag ∈ ["-lc".toList, "-c".toList] then some .unix
    else if name ∈ ["pwsh".toList, "powershell".toList] ∧
        eqIgnoreAsciiCase flag "-command".toList = true then some .powerShell
    else if name = "cmd".toList ∧ eqIgnoreAsciiCase flag "/c".toList = true then some .cmd
    else none

/-- `can_skip_flag`. -/
def canSkipFlag (shell flag : Text) : Bool :=
  (classifyShellName shell).any fun name =>
    name ∈ ["pwsh".toList, "powershell".toList] && eqIgnoreAsciiCase flag "-noprofile".toList

/-- `parse_shell_script`. -/
def parseShellScript (argv : List Text) : Option (ApplyPatchShell × Text) :=
  match argv with
  | [shell, flag, script] => (classifyShell shell flag).map fun shell => (shell, script)
  | [shell, skipFlag, flag, script] =>
    if canSkipFlag shell skipFlag then
      (classifyShell shell flag).map fun shell => (shell, script)
    else none
  | _ => none

section
variable (extractApplyPatchFromBash : Text → Except ExtractHeredocError (Text × Option Text))

/-- The patch text and the working directory that a command names. -/
def patchBody (argv : List Text) : Option (Except ExtractHeredocError (Text × Option Text)) :=
  match argv with
  | [cmd, body] => if cmd ∈ applyPatchCommands then some (.ok (body, none)) else none
  | argv => (parseShellScript argv).map fun (_, script) => extractApplyPatchFromBash script

/-- `maybe_parse_apply_patch`. -/
def maybeParseApplyPatch (argv : List Text) : MaybeApplyPatch :=
  match patchBody extractApplyPatchFromBash argv with
  | none => .notApplyPatch
  | some (.error .commandDidNotStartWithApplyPatch) => .notApplyPatch
  | some (.error error) => .shellParseError error
  | some (.ok (body, workdir)) =>
    match parsePatch body with
    | .ok source => .body { source with workdir := workdir }
    | .error error => .patchParseError error

/-- Is a patch given as the command itself, or as the script of a shell? -/
def isImplicitInvocation (argv : List Text) : Bool :=
  (match argv with
    | [body] => (parsePatch body).toBool
    | _ => false) ||
  (parseShellScript argv).any fun (_, script) => (parsePatch script).toBool

/-! ## Verification -/

variable (fault : Faults) (home : Option AbsolutePath) (tree : FileTree)

/-- The change that a hunk would make to the file tree as it is. -/
def changeOf (cwd : AbsolutePath) (hunk : Hunk) : Except ApplyPatchError ApplyPatchFileChange :=
  let path := hunk.resolvePath home cwd
  match hunk with
  | .addFile _ contents => .ok (.add contents)
  | .deleteFile _ =>
    match readText fault tree path with
    | .ok content => .ok (.delete content)
    | .error kind => .error (.ioError ("Failed to read ".toList ++ toText path) kind)
  | .updateFile _ _ chunks =>
    (deriveNewContentsFromChunks fault tree path chunks).map
      (.update (hunk.moveDestination home cwd))

/-- The loop of `maybe_parse_apply_patch_verified` over the hunks. -/
def verifyHunks (cwd : AbsolutePath) : List Hunk → Changes → Except ApplyPatchError Changes
  | [], changes => .ok changes
  | hunk :: hunks, changes => do
    let change ← changeOf fault home tree cwd hunk
    verifyHunks cwd hunks (changes.insert (hunk.resolvePath home cwd) change)

/-- `maybe_parse_apply_patch_verified`. -/
def maybeParseApplyPatchVerified (argv : List Text) (cwd : AbsolutePath) :
    MaybeApplyPatchVerified :=
  if isImplicitInvocation argv then .correctnessError .implicitInvocation
  else
    match maybeParseApplyPatch extractApplyPatchFromBash argv with
    | .body args =>
      let effectiveCwd := args.workdir.elim cwd (resolvePathAgainstBase home · cwd)
      match verifyHunks fault home tree effectiveCwd args.hunks [] with
      | .ok changes => .body ⟨changes, args.patch, effectiveCwd⟩
      | .error error => .correctnessError error
    | .shellParseError error => .shellParseError error
    | .patchParseError error => .correctnessError (.parseError error)
    | .notApplyPatch => .notApplyPatch

end

/-! ## Safety -/

/-- `is_write_patch_constrained_to_writable_paths`. The paths of an action are absolute and
normalised already. -/
def isWritePatchConstrainedToWritablePaths (action : ApplyPatchAction)
    (policy : FileSystemSandboxPolicy) (env : Env) (cwd : AbsolutePath) : Bool :=
  action.changes.all fun (path, change) =>
    policy.canWritePathWithCwd env cwd path &&
      change.movePath.all (policy.canWritePathWithCwd env cwd)

end Supercodex.ApplyPatch
