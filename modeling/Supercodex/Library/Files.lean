import Mathlib.Data.List.Infix

/-!
# Files by path

A finite set of files, each at the list of the names from the root down. A directory is there when a
file lies below it. Writing a file takes the place of what is at, above or below it, and removing a
path removes what is at or below it.
-/

namespace Supercodex

/-- Files, each with its path. The first entry of a path counts. -/
abbrev Files (α β : Type) := List (List α × β)

namespace Files

variable {α β : Type} [DecidableEq α]

/-- What the file at a path holds. -/
def get (fs : Files α β) (p : List α) : Option β := fs.lookup p

/-- The paths of the files. -/
def paths (fs : Files α β) : List (List α) := fs.map (·.1)

/-- Whether there are files below a path and none at it. -/
def isDir (fs : Files α β) (p : List α) : Bool :=
  (get fs p).isNone && fs.any fun file => p.isPrefixOf file.1

/-- Whether there is a file at or above a path. -/
def belowFile (fs : Files α β) (p : List α) : Bool := fs.any fun file => file.1.isPrefixOf p

/-- The files at the paths that meet a test. -/
def keep (test : List α → Bool) (fs : Files α β) : Files α β := fs.filter fun file => test file.1

/-- Whether one path lies at or below the other. -/
def overlaps (p q : List α) : Bool := p.isPrefixOf q || q.isPrefixOf p

/-- New files in place of what is at, above or below them. -/
def write (new old : Files α β) : Files α β :=
  new ++ keep (fun p => !new.any fun file => overlaps p file.1) old

/-- The files without the file, or the directory, at a path. -/
def remove (fs : Files α β) (p : List α) : Files α β := keep (fun q => !p.isPrefixOf q) fs

/-- No file lies below another one. -/
def Separate (fs : Files α β) : Prop :=
  ∀ p q, (get fs p).isSome → (get fs q).isSome → p <+: q → p = q

/-! ## Reading -/

variable {p : List α} {fs : Files α β}

lemma mem_paths_iff : p ∈ paths fs ↔ (get fs p).isSome := by
  unfold paths get
  rw [List.lookup_isSome_iff, List.mem_map]
  constructor
  · rintro ⟨file, hfile, rfl⟩
    exact ⟨file, hfile, beq_self_eq_true _⟩
  · rintro ⟨file, hfile, hp⟩
    exact ⟨file, hfile, (eq_of_beq hp).symm⟩

lemma get_append (fs gs : Files α β) (p : List α) :
    get (fs ++ gs) p = (get fs p).or (get gs p) :=
  List.lookup_append

lemma get_keep (test : List α → Bool) (fs : Files α β) (p : List α) :
    get (keep test fs) p = if test p then get fs p else none := by
  induction fs with
  | nil =>
    split <;> rfl
  | cons file fs ih =>
    obtain ⟨q, c⟩ := file
    unfold get keep at *
    by_cases hp : p = q
    · subst hp
      by_cases htest : test p = true
      · simp [htest]
      · simpa [htest] using ih
    · have hne : (p == q) = false := beq_eq_false_iff_ne.mpr hp
      by_cases htest : test q = true
      · simpa [htest, List.lookup_cons, hne] using ih
      · simpa [htest, List.lookup_cons, hne] using ih

lemma isDir_of_get (h : (get fs p).isSome) : isDir fs p = false := by
  obtain ⟨c, hc⟩ := Option.isSome_iff_exists.mp h
  unfold isDir
  rw [hc]
  rfl

lemma isDir_eq_false_iff (h : get fs p = none) :
    isDir fs p = false ↔ ∀ q, p <+: q → get fs q = none := by
  rw [isDir, h, Option.isNone_none, Bool.true_and, List.any_eq_false]
  constructor
  · intro hfiles q hpq
    by_contra hsome
    obtain ⟨file, hfile, rfl⟩ :=
      List.mem_map.mp (mem_paths_iff.mpr (Option.isSome_iff_ne_none.mpr hsome))
    exact hfiles file hfile (List.isPrefixOf_iff_prefix.mpr hpq)
  · intro hnone file hfile hprefix
    have hget := mem_paths_iff.mp (List.mem_map_of_mem hfile)
    rw [hnone file.1 (List.isPrefixOf_iff_prefix.mp hprefix)] at hget
    cases hget

lemma belowFile_iff :
    belowFile fs p = true ↔ ∃ q, q <+: p ∧ (get fs q).isSome := by
  rw [belowFile, List.any_eq_true]
  constructor
  · rintro ⟨file, hfile, hprefix⟩
    exact ⟨file.1, List.isPrefixOf_iff_prefix.mp hprefix,
      mem_paths_iff.mp (List.mem_map_of_mem hfile)⟩
  · rintro ⟨q, hqp, hq⟩
    obtain ⟨file, hfile, rfl⟩ := List.mem_map.mp (mem_paths_iff.mpr hq)
    exact ⟨file, hfile, List.isPrefixOf_iff_prefix.mpr hqp⟩

lemma separate_of_paths (h : ∀ p ∈ paths fs, ∀ q ∈ paths fs, p <+: q → p = q) : Separate fs :=
  fun p q hp hq => h p (mem_paths_iff.mpr hp) q (mem_paths_iff.mpr hq)

/-! ## Writing and removing -/

lemma get_write_of_some {new : Files α β} {c : β} (h : get new p = some c)
    (old : Files α β) : get (write new old) p = some c := by
  unfold write
  rw [get_append, h]
  rfl

/-- What was there before stays where no new file is at, above or below it. -/
lemma apart_of_get_write {new old : Files α β} (hp : (get (write new old) p).isSome)
    (hnew : get new p = none) :
    (get old p).isSome ∧ ∀ q, (get new q).isSome → ¬ q <+: p := by
  rw [write, get_append, hnew, Option.none_or, get_keep] at hp
  split at hp
  · rename_i hapart
    refine ⟨hp, fun q hq hqp => ?_⟩
    obtain ⟨file, hfile, rfl⟩ := List.mem_map.mp (mem_paths_iff.mpr hq)
    rw [Bool.not_eq_true', List.any_eq_false] at hapart
    refine hapart file hfile ?_
    rw [overlaps, List.isPrefixOf_iff_prefix.mpr hqp, Bool.or_true]
  · cases hp

lemma get_write_of_apart {new : Files α β}
    (h : ∀ q, (get new q).isSome → ¬ p <+: q ∧ ¬ q <+: p) (old : Files α β) :
    get (write new old) p = get old p := by
  have hnone : get new p = none := by
    by_contra hsome
    exact (h p (Option.isSome_iff_ne_none.mpr hsome)).1 (List.prefix_refl p)
  have htest : (!new.any fun file => overlaps p file.1) = true := by
    rw [Bool.not_eq_true', List.any_eq_false]
    intro file hfile
    have hapart := h file.1 (mem_paths_iff.mp (List.mem_map_of_mem hfile))
    simpa [overlaps] using hapart
  unfold write
  rw [get_append, hnone, get_keep, if_pos htest]
  rfl

lemma get_remove (fs : Files α β) (r p : List α) :
    get (remove fs r) p = if r <+: p then none else get fs p := by
  unfold remove
  rw [get_keep]
  by_cases h : r <+: p
  · rw [List.isPrefixOf_iff_prefix.mpr h, if_pos h]
    rfl
  · rw [Bool.eq_false_iff.mpr (mt List.isPrefixOf_iff_prefix.mp h), if_neg h]
    rfl

end Files

end Supercodex
