import Supercodex.Library.Text

/-!
# Paths (`std::path` on Unix and `utils/absolute-path`)

A path is written as text and read as a list of components. An `AbsolutePath` is the list of the
names below the file-system root, outermost first, as `AbsolutePathBuf` keeps it: absolute and
without `.` or `..`.
-/

namespace Supercodex.Path

/-- `std::path::Component`, the root aside: whether a path is absolute is read off its text. -/
inductive Component where
  | curDir
  | parentDir
  | normal (name : Text)
deriving DecidableEq

/-- `AbsolutePathBuf`: the names from the root down. -/
abbrev AbsolutePath := List Text

/-- One piece between separators; empty pieces are dropped. -/
def component (piece : Text) : Option Component :=
  if piece = [] then none
  else if piece = ['.'] then some .curDir
  else if piece = ['.', '.'] then some .parentDir
  else some (.normal piece)

/-- `Path::components` without the root. -/
def components (path : Text) : List Component :=
  (path.splitOn '/').filterMap component

/-- `Path::is_absolute`. -/
def isAbsolute : Text → Bool
  | '/' :: _ => true
  | _ => false

/-- What `Path::eq` compares: a `.` counts only at the start of a relative path. -/
def pathKey (path : Text) : Bool × List Component :=
  let cs := components path
  if isAbsolute path then (true, cs.filter (· ≠ .curDir))
  else (false, cs.take 1 ++ (cs.drop 1).filter (· ≠ .curDir))

/-- `Path::eq`. -/
def samePath (left right : Text) : Bool := pathKey left = pathKey right

/-- One step of `normalize_path`: `.` is skipped and `..` goes up, never above the root. -/
def normalizeStep (path : AbsolutePath) : Component → AbsolutePath
  | .curDir => path
  | .parentDir => path.dropLast
  | .normal name => path ++ [name]

/-- `normalize_path` of components below an absolute base. -/
def normalizePath (base : AbsolutePath) (cs : List Component) : AbsolutePath :=
  cs.foldl normalizeStep base

/-- `maybe_expand_home_directory`: the home directory and the rest of a path that starts
with `~`. -/
def maybeExpandHomeDirectory (home : Option AbsolutePath) (path : Text) :
    Option (AbsolutePath × Text) :=
  match path, home with
  | ['~'], some home => some (home, [])
  | '~' :: '/' :: rest, some home => some (home, rest.dropWhile (· = '/'))
  | _, _ => none

/-- `AbsolutePathBuf::resolve_path_against_base` (also `AbsolutePathBuf::join`). -/
def resolvePathAgainstBase (home : Option AbsolutePath) (path : Text) (base : AbsolutePath) :
    AbsolutePath :=
  match maybeExpandHomeDirectory home path with
  | some (home, rest) => normalizePath home (components rest)
  | none => normalizePath (if isAbsolute path then [] else base) (components path)

/-- `AbsolutePathBuf::from_absolute_path`: only a relative path needs the current directory. -/
def fromAbsolutePath (home currentDir : Option AbsolutePath) (path : Text) :
    Option AbsolutePath :=
  if (maybeExpandHomeDirectory home path).isSome || isAbsolute path then
    some (resolvePathAgainstBase home path [])
  else currentDir.map (resolvePathAgainstBase home path)

/-- `Path::to_string_lossy` of an absolute path. -/
def toText (path : AbsolutePath) : Text :=
  if path = [] then ['/'] else path.flatMap ('/' :: ·)

/-- `Path::file_name` of an absolute path. -/
def fileName (path : AbsolutePath) : Option Text := path.getLast?

/-! ## Equal paths -/

variable {home : Option AbsolutePath} {base : AbsolutePath} {c : Char} {t : Text}

lemma components_slash : components ('/' :: t) = components t := by
  rw [components, List.splitOn_cons_eq_if_modifyHead, if_pos (beq_self_eq_true _)]
  rfl

lemma components_dropWhile : components (t.dropWhile (· = '/')) = components t := by
  induction t with
  | nil => rfl
  | cons c t ih =>
    by_cases hc : c = '/'
    · rw [hc, List.dropWhile_cons_of_pos (by decide), components_slash, ih]
    · rw [List.dropWhile_cons_of_neg (by simpa using hc)]

lemma components_tilde : components ('~' :: '/' :: t) = .normal ['~'] :: components t := by
  rw [components, List.splitOn_cons_eq_if_modifyHead, if_neg (by decide), List.splitOn_cons_eq_if_modifyHead,
    if_pos (beq_self_eq_true _)]
  rfl

/-- Only `~` itself and what follows it after a separator have the component `~` first. -/
lemma components_ne_tilde (hc : c ≠ '/') (htilde : c :: t ≠ ['~'] ∧ ∀ rest, c :: t ≠ '~' :: '/' :: rest)
    (cs : List Component) : components (c :: t) ≠ .normal ['~'] :: cs := by
  have hfirst : ∃ p ps, t.splitOn '/' = p :: ps ∧ (c = '~' → p ≠ []) := by
    rcases t with _ | ⟨d, t⟩
    · exact ⟨[], [], List.splitOn_nil _, fun hc => absurd (hc ▸ rfl) htilde.1⟩
    rw [List.splitOn_cons_eq_if_modifyHead]
    split_ifs with hd
    · exact ⟨[], _, rfl, fun hc => absurd (by rw [hc, eq_of_beq hd]) (htilde.2 t)⟩
    · obtain ⟨p, ps, hps⟩ := List.exists_cons_of_ne_nil (List.splitOn_ne_nil '/' t)
      exact ⟨d :: p, ps, by rw [hps]; rfl, fun _ => List.cons_ne_nil _ _⟩
  obtain ⟨p, ps, hps, hne⟩ := hfirst
  rw [components, List.splitOn_cons_eq_if_modifyHead, if_neg (by simpa using hc), hps]
  show List.filterMap component ((c :: p) :: ps) ≠ _
  intro h
  rw [List.filterMap_cons, component] at h
  split_ifs at h <;> simp_all

lemma normalizePath_filter (cs : List Component) :
    normalizePath base (cs.filter (· ≠ .curDir)) = normalizePath base cs := by
  induction cs generalizing base with
  | nil => rfl
  | cons c cs ih =>
    cases c with
    | curDir | parentDir | normal name => exact ih

lemma normalizePath_key (cs : List Component) :
    normalizePath base (cs.take 1 ++ (cs.drop 1).filter (· ≠ .curDir)) = normalizePath base cs := by
  cases cs with
  | nil => rfl
  | cons c cs => exact normalizePath_filter cs

/-- A path is resolved by its key. -/
def resolveKey (home : Option AbsolutePath) (base : AbsolutePath) : Bool × List Component → AbsolutePath
  | (true, cs) => normalizePath [] cs
  | (false, cs) =>
    match home with
    | some home => if cs.head? = some (.normal ['~']) then normalizePath home cs.tail else normalizePath base cs
    | none => normalizePath base cs

lemma resolvePathAgainstBase_eq (path : Text) :
    resolvePathAgainstBase home path base = resolveKey home base (pathKey path) := by
  rcases path with _ | ⟨c, t⟩
  · cases home <;> rfl
  by_cases hslash : c = '/'
  · subst hslash
    have hexpand : maybeExpandHomeDirectory home ('/' :: t) = none := by simp [maybeExpandHomeDirectory]
    rw [resolvePathAgainstBase, hexpand]
    exact (normalizePath_filter _).symm
  have habsolute : isAbsolute (c :: t) = false := by simp [isAbsolute, hslash]
  by_cases htilde : c :: t ≠ ['~'] ∧ ∀ rest, c :: t ≠ '~' :: '/' :: rest
  · have hexpand : maybeExpandHomeDirectory home (c :: t) = none := by
      unfold maybeExpandHomeDirectory
      split <;> simp_all
    have hfirst := components_ne_tilde hslash htilde
    simp only [resolvePathAgainstBase, hexpand, pathKey, habsolute, Bool.false_eq_true, if_false]
    rw [← normalizePath_key]
    cases home with
    | none => rfl
    | some home =>
      refine (if_neg fun h => ?_).symm
      cases hcs : components (c :: t) with
      | nil => rw [hcs] at h; cases h
      | cons first rest =>
        rw [hcs] at h
        cases h
        exact hfirst rest hcs
  · rw [not_and_or, not_not, not_forall] at htilde
    rcases htilde with htilde | ⟨rest, htilde⟩
    · rw [htilde]
      cases home <;> rfl
    rw [not_not] at htilde
    have hkey : pathKey ('~' :: '/' :: rest) = (false, .normal ['~'] :: (components rest).filter (· ≠ .curDir)) := by
      rw [pathKey, components_tilde]
      rfl
    rw [htilde, hkey]
    cases home with
    | none =>
      show normalizePath base (components ('~' :: '/' :: rest)) = normalizePath base (.normal ['~'] :: _)
      rw [components_tilde]
      exact (normalizePath_key (.normal ['~'] :: components rest)).symm
    | some home =>
      show normalizePath home (components (rest.dropWhile (· = '/'))) =
        normalizePath home ((components rest).filter (· ≠ .curDir))
      rw [components_dropWhile, normalizePath_filter]

/-- Equal paths are resolved alike. -/
lemma resolvePathAgainstBase_congr {left right : Text} (h : samePath left right = true) :
    resolvePathAgainstBase home left base = resolvePathAgainstBase home right base := by
  rw [resolvePathAgainstBase_eq, resolvePathAgainstBase_eq, of_decide_eq_true h]

end Supercodex.Path
