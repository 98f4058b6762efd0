import Mathlib.Algebra.Order.BigOperators.Group.List
import Mathlib.Data.List.Sort
import Supercodex.Library.Positions

/-!
# Listing a directory (`core/src/tools/handlers/list_dir.rs`)

The entries below a directory are collected level by level, sorted by their relative paths and cut into
pages. A directory that cannot be read ends the listing with an error, which is left out.
-/

namespace Supercodex.ListDir

open Positions (len)

/-- `MAX_ENTRY_LENGTH`. -/
def maxEntryLength : ℕ := 500

/-- `INDENTATION_SPACES`. -/
def indentationSpaces : ℕ := 2

/-- `DENY_READ_POLICY_MESSAGE`. -/
def denyReadPolicyMessage : Text :=
  "access denied: reading this path is blocked by filesystem deny_read policy".toList

/-- `DirEntryKind`. -/
inductive DirEntryKind where
  | directory
  | file
  | symlink
  | other
deriving DecidableEq

/-- A path below the directory that is listed, as the names on it. -/
abbrev RelativePath := List Text

/-- What `read_dir` gives of each directory, in the order in which it does. -/
abbrev ReadDir := RelativePath → List (Text × DirEntryKind)

/-- `DirEntry`, with the relative path that it is made from, which nothing reads but what opens it. -/
structure DirEntry where
  name : Text
  displayName : Text
  depth : ℕ
  kind : DirEntryKind
  path : RelativePath
deriving DecidableEq

/-- `sort_unstable_by` on the names: equal names may come in any order. -/
structure SortUnstable where
  sort : List DirEntry → List DirEntry
  perm : ∀ l, (sort l).Perm l
  sorted : ∀ l, (sort l).Pairwise fun a b => a.name ≤ b.name

/-! ## Names -/

/-- The characters that fit into some bytes. -/
def takeBytes : ℕ → Text → Text
  | _, [] => []
  | bytes, c :: t => if c.utf8Size ≤ bytes then c :: takeBytes (bytes - c.utf8Size) t else []

/-- `take_bytes_at_char_boundary`. -/
def takeBytesAtCharBoundary (s : Text) (maxb : ℕ) : Text := if len s ≤ maxb then s else takeBytes maxb s

/-- A path as text. -/
def pathText (path : RelativePath) : Text := ['/'].intercalate path

/-- `format_entry_name`. -/
def formatEntryName (path : RelativePath) : Text :=
  let normalized := (pathText path).map fun c => if c = '\\' then '/' else c
  if maxEntryLength < len normalized then takeBytesAtCharBoundary normalized maxEntryLength else normalized

/-- `format_entry_component`. -/
def formatEntryComponent (name : Text) : Text :=
  if maxEntryLength < len name then takeBytesAtCharBoundary name maxEntryLength else name

/-- `format_entry_line`. -/
def formatEntryLine (entry : DirEntry) : Text :=
  List.replicate (entry.depth * indentationSpaces) ' ' ++ entry.displayName ++
    match entry.kind with
    | .directory => ['/']
    | .symlink => ['@']
    | .other => ['?']
    | .file => []

/-! ## Collecting -/

/-- The entry for what is found in the directory at a path. -/
def dirEntry (dir : RelativePath) (fileName : Text) (kind : DirEntryKind) : DirEntry where
  name := formatEntryName (dir ++ [fileName])
  displayName := formatEntryComponent fileName
  depth := dir.length
  kind := kind
  path := dir ++ [fileName]

section

variable (sort : SortUnstable) (readDir : ReadDir) (isReadDenied : RelativePath → Bool)

/-- The inner loop of `collect_entries`: the entries of one directory that are not denied. -/
def dirEntries (dir : RelativePath) : List DirEntry :=
  ((readDir dir).filter fun (fileName, _) => !isReadDenied (dir ++ [fileName])).map
    fun (fileName, kind) => dirEntry dir fileName kind

/-- Is an entry queued? -/
def descends (remainingDepth : ℕ) (entry : DirEntry) : Bool :=
  entry.kind == .directory && decide (1 < remainingDepth)

/-- The directories that are read below a directory, itself included, if all entries are opened. -/
def weight : ℕ → RelativePath → ℕ
  | 0, _ => 1
  | remainingDepth + 1, dir =>
    1 + ((dirEntries readDir isReadDenied dir).map fun entry => weight remainingDepth entry.path).sum

lemma sum_weight_lt (remainingDepth : ℕ) (dir : RelativePath) :
    ((((sort.sort (dirEntries readDir isReadDenied dir)).filter (descends remainingDepth)).map
      fun entry => weight readDir isReadDenied (remainingDepth - 1) entry.path).sum) <
        weight readDir isReadDenied remainingDepth dir := by
  cases remainingDepth with
  | zero => simp [descends, weight]
  | succ remainingDepth =>
    have hperm := (sort.perm (dirEntries readDir isReadDenied dir)).map
      fun entry => weight readDir isReadDenied remainingDepth entry.path
    have hle := ((List.filter_sublist (p := descends (remainingDepth + 1))
      (l := sort.sort (dirEntries readDir isReadDenied dir))).map
        fun entry => weight readDir isReadDenied remainingDepth entry.path).sum_le_sum fun _ _ => Nat.zero_le _
    rw [weight, Nat.add_sub_cancel, ← hperm.sum_eq]
    exact Nat.lt_of_le_of_lt hle (Nat.lt_add_of_pos_left Nat.one_pos)

/-- The loop of `collect_entries`, on its queue of directories with the depth that remains. -/
def collectEntries : List (RelativePath × ℕ) → List DirEntry
  | [] => []
  | (dir, remainingDepth) :: queue =>
    let entries := sort.sort (dirEntries readDir isReadDenied dir)
    entries ++ collectEntries (queue ++ (entries.filter (descends remainingDepth)).map
      fun entry => (entry.path, remainingDepth - 1))
termination_by queue => (queue.map fun (dir, remainingDepth) => weight readDir isReadDenied remainingDepth dir).sum
decreasing_by
  have hlt := sum_weight_lt sort readDir isReadDenied remainingDepth dir
  simp only [List.map_append, List.map_map, List.sum_append, List.map_cons, List.sum_cons]
  rw [Nat.add_comm]
  exact Nat.add_lt_add_right hlt _

/-! ## Pages -/

/-- The entries of the listing, in their order. -/
def sortedEntries (depth : ℕ) : List DirEntry :=
  sort.sort (collectEntries sort readDir isReadDenied [([], depth)])

/-- The line that ends a page before the last one. -/
def moreEntries (cappedLimit : ℕ) : Text :=
  "More than ".toList ++ Nat.toDigits 10 cappedLimit ++ " entries found".toList

/-- `list_dir_slice_with_policy`. -/
def listDirSliceWithPolicy (offset limit depth : ℕ) : Except Text (List Text) :=
  let entries := sortedEntries sort readDir isReadDenied depth
  let startIndex := offset - 1
  if entries.isEmpty then .ok []
  else if entries.length ≤ startIndex then .error "offset exceeds directory entry count".toList
  else
    let remainingEntries := entries.length - startIndex
    let cappedLimit := min limit remainingEntries
    let endIndex := startIndex + cappedLimit
    let selectedEntries := (entries.drop startIndex).take cappedLimit
    let formatted := selectedEntries.map formatEntryLine
    .ok (if endIndex < entries.length then formatted ++ [moreEntries cappedLimit] else formatted)

/-- `ListDirArgs`. -/
structure ListDirArgs where
  dirPath : Text
  offset : ℕ
  limit : ℕ
  depth : ℕ

/-- `ListDirHandler::handle`. -/
def handle (args : ListDirArgs) : Except Text Text :=
  if args.offset = 0 then .error "offset must be a 1-indexed entry number".toList
  else if args.limit = 0 then .error "limit must be greater than zero".toList
  else if args.depth = 0 then .error "depth must be greater than zero".toList
  else if args.dirPath.head? ≠ some '/' then .error "dir_path must be an absolute path".toList
  else if isReadDenied [] then .error (denyReadPolicyMessage ++ ": \x60".toList ++ args.dirPath ++ "\x60".toList)
  else
    (listDirSliceWithPolicy sort readDir isReadDenied args.offset args.limit args.depth).map fun entries =>
      Text.joinLines (("Absolute path: ".toList ++ args.dirPath) :: entries)

end

end Supercodex.ListDir
