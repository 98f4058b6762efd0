import Supercodex.Library.Text

/-!
# File trees

A file tree gives each path, the list of the names from the root down, a directory, a file or
nothing. What exists lies in a directory: the tree carries the proof. There are no links, so
different paths are different places.
-/

namespace Supercodex

/-- What a file holds: text, or bytes that are not the UTF-8 form of any text. -/
inductive Contents where
  | text (t : Text)
  | binary (bytes : List UInt8)
deriving DecidableEq

/-- What a path holds. -/
inductive Node where
  | file (contents : Contents)
  | dir
deriving DecidableEq

/-- Nodes by path, each of them in a directory. -/
structure FileTree where
  node : List Text → Option Node
  root : node [] = some .dir
  parent : ∀ p name, node (p ++ [name]) ≠ none → node p = some .dir

namespace FileTree

variable (t : FileTree) {p q : List Text}

/-- `Path::is_dir`. -/
def isDir (p : List Text) : Bool := t.node p = some .dir

/-- `Path::is_file`. -/
def isFile (p : List Text) : Bool :=
  match t.node p with
  | some (.file _) => true
  | _ => false

/-- `Path::exists`. -/
def pathExists (p : List Text) : Bool := (t.node p).isSome

/-- `fs::read_to_string`, without the reason of a failure. -/
def readToString (p : List Text) : Option Text :=
  match t.node p with
  | some (.file (.text s)) => some s
  | _ => none

/-- The contents of the file at a path. -/
def contents (p : List Text) : Option Contents :=
  match t.node p with
  | some (.file c) => some c
  | _ => none

/-- A place that is not a directory, in a directory. -/
def Settable (p : List Text) : Prop :=
  p ≠ [] ∧ t.node p.dropLast = some .dir ∧ t.node p ≠ some .dir

instance : Decidable (t.Settable p) := inferInstanceAs (Decidable (_ ∧ _ ∧ _))

/-- The tree with another node, or none, at one place. -/
def set (p : List Text) (n : Option Node) (h : t.Settable p) : FileTree where
  node := Function.update t.node p n
  root := by rw [Function.update_of_ne h.1.symm, t.root]
  parent := by
    intro q name hne
    obtain ⟨hp, hdir, hleaf⟩ := h
    have hq : t.node q = some .dir := by
      by_cases heq : q ++ [name] = p
      · rw [← heq, List.dropLast_concat] at hdir
        exact hdir
      · rw [Function.update_of_ne heq] at hne
        exact t.parent q name hne
    -- `q` is a directory, and the place that is set is none
    have hqp : q ≠ p := by
      intro hqp
      exact hleaf (hqp ▸ hq)
    rw [Function.update_of_ne hqp, hq]

@[simp] lemma node_set (n : Option Node) (h : t.Settable p) :
    (t.set p n h).node = Function.update t.node p n := rfl

/-- The tree that holds its root only. -/
def empty : FileTree where
  node p := if p = [] then some .dir else none
  root := rfl
  parent p name hne := by simp at hne

/-- The tree with the given nodes, each in a directory that stands before it. -/
def ofNodes (nodes : List (List Text × Node)) : FileTree :=
  nodes.foldl (fun t (p, n) => if h : t.Settable p then t.set p (some n) h else t) empty

lemma isDir_of_prefix (hq : t.node q ≠ none) (hpq : p <+: q) (hne : p ≠ q) :
    t.node p = some .dir := by
  obtain ⟨s, rfl⟩ := hpq
  induction s using List.reverseRecOn with
  | nil => simp at hne
  | append_singleton s name ih =>
    rw [← List.append_assoc] at hq
    have hps := t.parent (p ++ s) name hq
    by_cases hs : s = []
    · rw [hs, List.append_nil] at hps
      exact hps
    · exact ih (by rw [hps]; simp) (by simpa using hs)

lemma isDir_of_settable (h : t.Settable q) (hpq : p <+: q) (hne : p ≠ q) :
    t.node p = some .dir := by
  obtain ⟨hq, hdir, -⟩ := h
  have hlt : p.length < q.length :=
    lt_of_le_of_ne hpq.length_le (fun heq => hne (hpq.eq_of_length heq))
  have hpd : p <+: q.dropLast := by
    refine List.prefix_of_prefix_length_le hpq (List.dropLast_prefix q) ?_
    rw [List.length_dropLast]
    omega
  by_cases heq : p = q.dropLast
  · rw [heq, hdir]
  · exact t.isDir_of_prefix (by rw [hdir]; simp) hpd heq

lemma contents_set_file (c : Contents) (h : t.Settable p) :
    (t.set p (some (.file c)) h).contents = Function.update t.contents p (some c) := by
  funext q
  by_cases hq : q = p
  · rw [hq, Function.update_self]
    simp [contents]
  · rw [Function.update_of_ne hq]
    simp [contents, Function.update_of_ne hq]

lemma contents_set_none (h : t.Settable p) :
    (t.set p none h).contents = Function.update t.contents p none := by
  funext q
  by_cases hq : q = p
  · rw [hq, Function.update_self]
    simp [contents]
  · rw [Function.update_of_ne hq]
    simp [contents, Function.update_of_ne hq]

lemma contents_set_dir (h : t.Settable p) (hnone : t.node p = none) :
    (t.set p (some .dir) h).contents = t.contents := by
  funext q
  by_cases hq : q = p
  · simp [contents, hq, hnone]
  · simp [contents, Function.update_of_ne hq]

end FileTree

end Supercodex
