import Supercodex.Library.Nesting
import Supercodex.Tools.ListDir

/-!
# What a listing shows

The loop over the queue collects what a recursion over the directories lists, in another order. Whether
the sorted entries show the tree is then a question about the names that they are sorted by.
-/

namespace Supercodex.ListDir

open Nesting

section

variable (readDir : ReadDir) (isReadDenied : RelativePath → Bool)

/-- The entries below a directory, down to a depth. -/
def listed : ℕ → RelativePath → List DirEntry
  | 0, dir => dirEntries readDir isReadDenied dir
  | remainingDepth + 1, dir =>
    (dirEntries readDir isReadDenied dir).flatMap fun entry =>
      entry :: if descends (remainingDepth + 1) entry then listed remainingDepth entry.path else []

/-- An entry lies in the directory that another one is of. -/
def ParentOf (parent entry : DirEntry) : Prop :=
  parent.kind = .directory ∧ entry.path.dropLast = parent.path

instance : DecidableRel ParentOf := fun _ _ => inferInstanceAs (Decidable (_ ∧ _))

/-- The names of the entries keep the tree together: in their order, the name of a directory comes before
those of its entries, and no name of another entry that is less deep comes between them. -/
def KeepsTogether (depth : ℕ) : Prop :=
  Apart DirEntry.name DirEntry.depth ParentOf (listed readDir isReadDenied depth [])

instance (depth : ℕ) : Decidable (KeepsTogether readDir isReadDenied depth) :=
  inferInstanceAs (Decidable (Apart _ _ _ _))

/-- Each directory has at most one entry of a name. -/
def DistinctNames : Prop := ∀ dir, ((readDir dir).map Prod.fst).Nodup

variable {readDir : ReadDir} {isReadDenied : RelativePath → Bool} {sort : SortUnstable} {depth : ℕ}
  {dir : RelativePath} {entry : DirEntry}

/-! ## Collecting -/

lemma listed_perm (remainingDepth : ℕ) (dir : RelativePath) :
    (listed readDir isReadDenied remainingDepth dir).Perm (dirEntries readDir isReadDenied dir ++
      ((dirEntries readDir isReadDenied dir).filter (descends remainingDepth)).flatMap fun entry =>
        listed readDir isReadDenied (remainingDepth - 1) entry.path) := by
  cases remainingDepth with
  | zero =>
    have hnone : (dirEntries readDir isReadDenied dir).filter (descends 0) = [] :=
      List.filter_eq_nil_iff.mpr fun entry _ => by simp [descends]
    rw [hnone, List.flatMap_nil, List.append_nil, listed]
  | succ remainingDepth =>
    have hsplit := List.map_append_flatMap_perm (dirEntries readDir isReadDenied dir) (fun entry => entry)
      fun entry => if descends (remainingDepth + 1) entry then listed readDir isReadDenied remainingDepth entry.path
        else []
    rw [List.map_id'] at hsplit
    rw [listed, Nat.add_sub_cancel]
    refine hsplit.symm.trans (List.Perm.append_left _ (List.Perm.of_eq ?_))
    induction dirEntries readDir isReadDenied dir with
    | nil => rfl
    | cons entry entries ih =>
      rw [List.flatMap_cons, List.filter_cons, ih]
      split_ifs
      · rw [List.flatMap_cons]
      · rfl

variable (sort readDir isReadDenied) in
/-- The loop collects what is listed below the directories of its queue. -/
theorem collectEntries_perm (queue : List (RelativePath × ℕ)) :
    (collectEntries sort readDir isReadDenied queue).Perm
      (queue.flatMap fun (dir, remainingDepth) => listed readDir isReadDenied remainingDepth dir) := by
  fun_induction collectEntries sort readDir isReadDenied queue with
  | case1 => exact List.Perm.refl _
  | case2 dir remainingDepth queue entries ih =>
    have hentries : entries.Perm (dirEntries readDir isReadDenied dir) := sort.perm _
    have hbelow := (hentries.filter (descends remainingDepth)).flatMap_right fun entry =>
      listed readDir isReadDenied (remainingDepth - 1) entry.path
    rw [List.flatMap_append, List.flatMap_map] at ih
    rw [List.flatMap_cons]
    refine (hentries.append ih).trans ?_
    refine ((List.perm_append_comm.trans (hbelow.append_right _)).append_left _).trans ?_
    rw [← List.append_assoc]
    exact (listed_perm remainingDepth dir).symm.append_right _

/-! ## What is listed -/

lemma mem_dirEntries : entry ∈ dirEntries readDir isReadDenied dir ↔
    ∃ fileName kind, (fileName, kind) ∈ readDir dir ∧ isReadDenied (dir ++ [fileName]) = false ∧
      entry = dirEntry dir fileName kind := by
  rw [dirEntries, List.mem_map]
  constructor
  · rintro ⟨⟨fileName, kind⟩, hmem, rfl⟩
    obtain ⟨hmem, hdenied⟩ := List.mem_filter.mp hmem
    exact ⟨fileName, kind, hmem, by simpa using hdenied, rfl⟩
  · rintro ⟨fileName, kind, hmem, hdenied, rfl⟩
    exact ⟨(fileName, kind), List.mem_filter.mpr ⟨hmem, by simpa using hdenied⟩, rfl⟩

lemma mem_listed : entry ∈ listed readDir isReadDenied depth dir ↔
    entry ∈ dirEntries readDir isReadDenied dir ∨
      ∃ outer ∈ dirEntries readDir isReadDenied dir, descends depth outer = true ∧
        entry ∈ listed readDir isReadDenied (depth - 1) outer.path := by
  rw [(listed_perm depth dir).mem_iff, List.mem_append, List.mem_flatMap]
  simp only [List.mem_filter, and_assoc]

lemma listed_induction {P : RelativePath → DirEntry → Prop}
    (hhere : ∀ dir, ∀ entry ∈ dirEntries readDir isReadDenied dir, P dir entry)
    (hbelow : ∀ dir, ∀ outer ∈ dirEntries readDir isReadDenied dir, ∀ entry, outer.kind = .directory →
      P outer.path entry → P dir entry)
    (h : entry ∈ listed readDir isReadDenied depth dir) : P dir entry := by
  induction depth generalizing dir with
  | zero => exact hhere dir entry h
  | succ depth ih =>
    rcases mem_listed.mp h with h | ⟨outer, houter, hdescends, h⟩
    · exact hhere dir entry h
    have hkind : outer.kind = .directory := by
      rw [descends, Bool.and_eq_true, beq_iff_eq] at hdescends
      exact hdescends.1
    exact hbelow dir outer houter entry hkind (ih h)

lemma path_of_listed (h : entry ∈ listed readDir isReadDenied depth dir) :
    dir <+: entry.path ∧ dir.length ≤ entry.depth ∧ entry.path.length = entry.depth + 1 ∧
      entry.name = formatEntryName entry.path := by
  refine listed_induction (P := fun dir entry => dir <+: entry.path ∧ dir.length ≤ entry.depth ∧
    entry.path.length = entry.depth + 1 ∧ entry.name = formatEntryName entry.path) ?_ ?_ h
  · intro dir entry hentry
    obtain ⟨fileName, kind, -, -, rfl⟩ := mem_dirEntries.mp hentry
    exact ⟨List.prefix_append _ _, le_rfl, by simp [dirEntry], rfl⟩
  · rintro dir outer houter entry - ⟨hshorter, hdepth, hrest⟩
    obtain ⟨fileName, kind, -, -, rfl⟩ := mem_dirEntries.mp houter
    refine ⟨(List.prefix_append _ _).trans hshorter, ?_, hrest⟩
    rw [dirEntry, List.length_append] at hdepth
    omega

lemma eq_of_isInitial {path path' whole : RelativePath} (h : path <+: whole) (h' : path' <+: whole)
    (hlength : path.length = path'.length) : path = path' :=
  (List.prefix_of_prefix_length_le h h' hlength.le).eq_of_length hlength

lemma not_denied_of_listed (h : entry ∈ listed readDir isReadDenied depth dir) :
    ∀ path, path <+: entry.path → dir.length < path.length → isReadDenied path = false := by
  refine (listed_induction (P := fun dir entry => dir <+: entry.path ∧ ∀ path, path <+: entry.path →
    dir.length < path.length → isReadDenied path = false) ?_ ?_ h).2
  · intro dir entry hentry
    obtain ⟨fileName, kind, -, hdenied, rfl⟩ := mem_dirEntries.mp hentry
    refine ⟨List.prefix_append _ _, fun path hpath hlength => ?_⟩
    have hle : (dir ++ [fileName]).length ≤ path.length := by
      rw [List.length_append]
      exact hlength
    rwa [hpath.eq_of_length_le hle]
  · rintro dir outer houter entry - ⟨hshorter, hrest⟩
    obtain ⟨fileName, kind, -, hdenied, rfl⟩ := mem_dirEntries.mp houter
    have houterLength : (dirEntry dir fileName kind).path.length = dir.length + 1 := List.length_append
    refine ⟨(List.prefix_append _ _).trans hshorter, fun path hpath hlength => ?_⟩
    rcases Nat.lt_or_eq_of_le hlength with hlonger | heq
    · refine hrest path hpath ?_
      omega
    · rw [eq_of_isInitial hpath hshorter (by omega)]
      exact hdenied

lemma exists_parent (h : entry ∈ listed readDir isReadDenied depth dir) (hdeep : dir.length < entry.depth) :
    ∃ parent ∈ listed readDir isReadDenied depth dir, ParentOf parent entry := by
  induction depth generalizing dir with
  | zero =>
    obtain ⟨fileName, kind, -, -, rfl⟩ := mem_dirEntries.mp h
    exact absurd hdeep (lt_irrefl _)
  | succ depth ih =>
    rcases mem_listed.mp h with hhere | ⟨outer, houter, hdescends, hbelow⟩
    · obtain ⟨fileName, kind, -, -, rfl⟩ := mem_dirEntries.mp hhere
      exact absurd hdeep (lt_irrefl _)
    rcases Nat.lt_or_eq_of_le (path_of_listed hbelow).2.1 with hlt | heq
    · obtain ⟨parent, hparent, hparentOf⟩ := ih hbelow hlt
      exact ⟨parent, mem_listed.mpr (.inr ⟨outer, houter, hdescends, hparent⟩), hparentOf⟩
    refine ⟨outer, mem_listed.mpr (.inl houter), ?_, ?_⟩
    · rw [descends, Bool.and_eq_true, beq_iff_eq] at hdescends
      exact hdescends.1
    · obtain ⟨hshorter, -, hlength, -⟩ := path_of_listed hbelow
      refine eq_of_isInitial (List.dropLast_prefix _) hshorter ?_
      rw [List.length_dropLast, hlength, heq, Nat.add_sub_cancel]

variable (isReadDenied) in
lemma nodup_path_dirEntries (hnames : DistinctNames readDir) (dir : RelativePath) :
    ((dirEntries readDir isReadDenied dir).map DirEntry.path).Nodup := by
  have hfilter := (hnames dir).sublist ((List.filter_sublist
    (p := fun entry => !isReadDenied (dir ++ [entry.1]))).map Prod.fst)
  have hinj : Function.Injective fun fileName : Text => dir ++ [fileName] := by
    intro fileName fileName' heq
    exact List.singleton_injective (List.append_cancel_left heq)
  have hmap := hfilter.map hinj
  rw [List.map_map] at hmap
  rw [dirEntries, List.map_map]
  exact hmap

variable (isReadDenied) in
/-- No two entries that are listed have the same path. -/
lemma nodup_path_listed (hnames : DistinctNames readDir) (depth : ℕ) (dir : RelativePath) :
    ((listed readDir isReadDenied depth dir).map DirEntry.path).Nodup := by
  induction depth generalizing dir with
  | zero => exact nodup_path_dirEntries isReadDenied hnames dir
  | succ depth ih =>
    have hinitial : ∀ outer ∈ dirEntries readDir isReadDenied dir, ∀ path ∈ (outer ::
        if descends (depth + 1) outer then listed readDir isReadDenied depth outer.path else []).map DirEntry.path,
        outer.path <+: path := by
      intro outer houter path hpath
      rw [List.map_cons, List.mem_cons] at hpath
      rcases hpath with rfl | hpath
      · exact List.prefix_rfl
      split_ifs at hpath
      · obtain ⟨entry, hentry, rfl⟩ := List.mem_map.mp hpath
        exact (path_of_listed hentry).1
      · cases hpath
    rw [listed, List.map_flatMap, List.nodup_flatMap]
    constructor
    · intro outer houter
      rw [List.map_cons, List.nodup_cons]
      split_ifs
      · refine ⟨fun hmem => ?_, ih outer.path⟩
        -- what is below a directory has a longer path
        obtain ⟨entry, hentry, heq⟩ := List.mem_map.mp hmem
        obtain ⟨-, hdepth, hlength, -⟩ := path_of_listed hentry
        rw [heq] at hlength
        omega
      · exact ⟨fun hmem => (nomatch hmem), List.nodup_nil⟩
    · have hpaths := List.pairwise_map.mp (nodup_path_dirEntries isReadDenied hnames dir)
      refine hpaths.imp_of_mem fun {outer outer'} houter houter' hne => ?_
      intro path hpath hpath'
      refine hne (eq_of_isInitial (hinitial outer houter path hpath) (hinitial outer' houter' path hpath') ?_)
      obtain ⟨_, _, -, -, rfl⟩ := mem_dirEntries.mp houter
      obtain ⟨_, _, -, -, rfl⟩ := mem_dirEntries.mp houter'
      simp [dirEntry]

lemma sortedEntries_perm : (sortedEntries sort readDir isReadDenied depth).Perm (listed readDir isReadDenied depth []) := by
  have hcollect := collectEntries_perm readDir isReadDenied sort [([], depth)]
  rw [List.flatMap_singleton] at hcollect
  exact (sort.perm _).trans hcollect

/-! ## The order of the entries -/

/-- The sort that gives a sorted list wherever it may. -/
def SortUnstable.giving (entries : List DirEntry) (hsorted : entries.Pairwise fun a b => a.name ≤ b.name) :
    SortUnstable where
  sort l := if entries.Perm l then entries else sortRanked DirEntry.name (fun _ => 0) l
  perm l := by
    split_ifs with h
    · exact h
    · exact sortRanked_perm _ _ l
  sorted l := by
    split_ifs
    · exact hsorted
    · exact pairwise_key_sortRanked _ l

lemma sortedEntries_giving {entries : List DirEntry} (hsorted : entries.Pairwise fun a b => a.name ≤ b.name)
    (hperm : entries.Perm (listed readDir isReadDenied depth [])) :
    sortedEntries (.giving entries hsorted) readDir isReadDenied depth = entries := by
  have hcollect := collectEntries_perm readDir isReadDenied (.giving entries hsorted) [([], depth)]
  rw [List.flatMap_singleton] at hcollect
  exact if_pos (hperm.trans hcollect.symm)

lemma sortedEntries_eq {entries : List DirEntry} (hsorted : entries.Pairwise fun a b => a.name ≤ b.name)
    (hperm : entries.Perm (listed readDir isReadDenied depth [])) (hdistinct : (entries.map DirEntry.name).Nodup) :
    sortedEntries sort readDir isReadDenied depth = entries := by
  have hsame : (sortedEntries sort readDir isReadDenied depth).Perm entries := sortedEntries_perm.trans hperm.symm
  refine hsame.eq_of_pairwise (fun a b ha hb hle hle' => ?_) (sort.sorted _) hsorted
  exact List.inj_on_of_nodup_map hdistinct (hsame.subset ha) hb (le_antisymm hle hle')

lemma nested_iff_keepsTogether (hnames : DistinctNames readDir) :
    (∀ sort : SortUnstable, Nested DirEntry.depth ParentOf (sortedEntries sort readDir isReadDenied depth)) ↔
      KeepsTogether readDir isReadDenied depth := by
  have hpaths := nodup_path_listed isReadDenied hnames depth []
  constructor
  · intro h
    refine apart_of_nested ?_ ?_ fun entries hperm hsorted => ?_
    · rintro parent hparent parent' hparent' entry - ⟨-, heq⟩ ⟨-, heq'⟩
      exact List.inj_on_of_nodup_map hpaths hparent hparent' (heq.symm.trans heq')
    · rintro entry hentry ⟨-, heq⟩
      have hlength := congrArg List.length heq
      rw [List.length_dropLast, (path_of_listed hentry).2.2.1] at hlength
      omega
    · rw [← sortedEntries_giving hsorted hperm]
      exact h _
  · intro h sort
    refine nested_of_apart sortedEntries_perm (sort.sorted _) hpaths.of_map ?_ h
    intro entry hentry hdepth
    exact exists_parent hentry hdepth

/-! ## Pages -/

/-- The lines of a page, and those of the whole listing. -/
def pageLines (entries : List DirEntry) (start limit : ℕ) : List Text :=
  ((entries.map formatEntryLine).drop start).take limit

/-- A slice is a page, with a last line where entries follow. -/
lemma slice_eq {start : ℕ} (limit : ℕ) (hstart : start < (sortedEntries sort readDir isReadDenied depth).length) :
    listDirSliceWithPolicy sort readDir isReadDenied (1 + start) limit depth =
      .ok (pageLines (sortedEntries sort readDir isReadDenied depth) start limit ++
        if start + limit < (sortedEntries sort readDir isReadDenied depth).length then
          [moreEntries (pageLines (sortedEntries sort readDir isReadDenied depth) start limit).length] else []) := by
  rw [listDirSliceWithPolicy]
  generalize sortedEntries sort readDir isReadDenied depth = entries at hstart ⊢
  have hne : entries.isEmpty = false := by
    rw [List.isEmpty_eq_false_iff]
    exact List.length_pos_iff.mp (by omega)
  have hpage : ((entries.drop start).take (min limit (entries.length - start))).map formatEntryLine =
      pageLines entries start limit := by
    rw [pageLines, ← List.map_drop, ← List.map_take, ← List.length_drop, ← List.take_eq_take_min]
  have hlength : (pageLines entries start limit).length = min limit (entries.length - start) := by
    rw [pageLines, List.length_take, List.length_drop, List.length_map]
  simp only [Nat.add_sub_cancel_left, hne, Bool.false_eq_true, if_false, if_neg (not_le.mpr hstart)]
  rw [hpage, hlength]
  by_cases hmore : start + limit < entries.length
  · rw [if_pos hmore, if_pos (by omega)]
  · rw [if_neg hmore, if_neg (by omega), List.append_nil]

lemma slice_past_end {start limit : ℕ} (hne : sortedEntries sort readDir isReadDenied depth ≠ [])
    (hstart : (sortedEntries sort readDir isReadDenied depth).length ≤ start) :
    listDirSliceWithPolicy sort readDir isReadDenied (1 + start) limit depth =
      .error "offset exceeds directory entry count".toList := by
  rw [listDirSliceWithPolicy]
  simp only [Nat.add_sub_cancel_left, List.isEmpty_iff, hne, if_false, if_pos hstart]

lemma slice_empty {offset limit : ℕ} (h : sortedEntries sort readDir isReadDenied depth = []) :
    listDirSliceWithPolicy sort readDir isReadDenied offset limit depth = .ok [] := by
  rw [listDirSliceWithPolicy, h]
  rfl

lemma flatten_pages (entries : List DirEntry) (limit k : ℕ) :
    ((List.range k).map fun i => pageLines entries (i * limit) limit).flatten =
      (entries.map formatEntryLine).take (k * limit) := by
  induction k with
  | zero => simp
  | succ k ih =>
    rw [List.range_succ, List.map_append, List.flatten_append, ih, Nat.succ_mul, List.take_add]
    simp [pageLines]

end

/-- A slice with a limit that no entry is beyond is the whole listing. With every other limit, the slices
at the offsets `1`, `1 + limit` and so on are the pages of the listing, each before the last one followed by
a line that says so, and there are none after the last one. -/
structure Paged (slice : ℕ → ℕ → Except Text (List Text)) (lines : List Text) : Prop where
  full : ∀ limit, lines.length ≤ limit → slice 1 limit = .ok lines
  pages : ∀ limit, 0 < limit → ∃ pages : List (List Text), pages.flatten = lines ∧
    (∀ i (hi : i < pages.length), slice (1 + i * limit) limit =
      .ok (pages[i] ++ if i + 1 < pages.length then [moreEntries pages[i].length] else [])) ∧
    (lines ≠ [] → slice (1 + pages.length * limit) limit = .error "offset exceeds directory entry count".toList)

lemma paged_slice (sort : SortUnstable) (readDir : ReadDir) (isReadDenied : RelativePath → Bool) (depth : ℕ) :
    Paged (fun offset limit => listDirSliceWithPolicy sort readDir isReadDenied offset limit depth)
      ((sortedEntries sort readDir isReadDenied depth).map formatEntryLine) where
  full := by
    intro limit hlimit
    rw [List.length_map] at hlimit
    rcases eq_or_ne (sortedEntries sort readDir isReadDenied depth) [] with hempty | hne
    · rw [slice_empty hempty, hempty, List.map_nil]
    have hpos : 0 < (sortedEntries sort readDir isReadDenied depth).length := List.length_pos_iff.mpr hne
    have hslice := slice_eq limit hpos
    rw [if_neg (by omega), List.append_nil, pageLines, List.drop_zero, List.take_of_length_le (by simpa using hlimit)]
      at hslice
    exact hslice
  pages := by
    intro limit hpos
    have hcount : ∀ i, i < ((sortedEntries sort readDir isReadDenied depth).length + limit - 1) / limit ↔
        i * limit < (sortedEntries sort readDir isReadDenied depth).length := by
      intro i
      rw [← Nat.succ_le_iff, Nat.le_div_iff_mul_le hpos, Nat.succ_mul]
      omega
    generalize ((sortedEntries sort readDir isReadDenied depth).length + limit - 1) / limit = k at hcount
    refine ⟨(List.range k).map fun i => pageLines (sortedEntries sort readDir isReadDenied depth) (i * limit) limit,
      ?_, ?_, ?_⟩
    · rw [flatten_pages, List.take_of_length_le]
      rw [List.length_map]
      have hlast := hcount k
      omega
    · intro i hi
      rw [List.length_map, List.length_range] at hi ⊢
      rw [List.getElem_map, List.getElem_range, slice_eq limit ((hcount i).mp hi)]
      have hnext := hcount (i + 1)
      rw [Nat.succ_mul] at hnext
      simp only [hnext]
    · intro hne
      have hlast := hcount k
      rw [List.length_map, List.length_range]
      refine slice_past_end (fun hempty => hne (by rw [hempty, List.map_nil])) ?_
      omega

/-- The handler answers with the page of its arguments, none of them zero, below the path as it is given. -/
theorem handle_eq_ok_iff {sort : SortUnstable} {readDir : ReadDir} {isReadDenied : RelativePath → Bool}
    {args : ListDirArgs} {answer : Text} : handle sort readDir isReadDenied args = .ok answer ↔
      args.offset ≠ 0 ∧ args.limit ≠ 0 ∧ args.depth ≠ 0 ∧ args.dirPath.head? = some '/' ∧
      isReadDenied [] = false ∧ ∃ entries,
        listDirSliceWithPolicy sort readDir isReadDenied args.offset args.limit args.depth = .ok entries ∧
        Text.joinLines (("Absolute path: ".toList ++ args.dirPath) :: entries) = answer := by
  rw [handle]
  split_ifs with hoffset hlimit hdepth hpath hdenied
  all_goals simp_all [Except.map]
  cases listDirSliceWithPolicy sort readDir isReadDenied args.offset args.limit args.depth <;> simp

/-- A listing shows the tree, and nothing of what is denied. -/
structure ShowsTree (isReadDenied : RelativePath → Bool) (entries : List DirEntry) : Prop where
  nested : Nested DirEntry.depth ParentOf entries
  allowed : ∀ entry ∈ entries, ∀ path, path <+: entry.path → path ≠ [] → isReadDenied path = false

/-- Every order of equal names gives a listing that shows the tree, cut into its pages, exactly if the names
of the entries keep the tree together. -/
theorem list_dir_shows_tree_iff (readDir : ReadDir) (isReadDenied : RelativePath → Bool) (depth : ℕ)
    (hnames : DistinctNames readDir) :
    (∀ sort : SortUnstable, ShowsTree isReadDenied (sortedEntries sort readDir isReadDenied depth) ∧
      Paged (fun offset limit => listDirSliceWithPolicy sort readDir isReadDenied offset limit depth)
        ((sortedEntries sort readDir isReadDenied depth).map formatEntryLine)) ↔
      KeepsTogether readDir isReadDenied depth := by
  rw [← nested_iff_keepsTogether hnames]
  constructor
  · exact fun h sort => (h sort).1.nested
  · intro h sort
    refine ⟨⟨h sort, fun entry hentry path hpath hne => ?_⟩, paged_slice sort readDir isReadDenied depth⟩
    exact not_denied_of_listed (sortedEntries_perm.subset hentry) path hpath (List.length_pos_iff.mpr hne)

/-- A directory `a` with a file `b`, and a file beside it. -/
def directoryBeside (beside : Text) : ReadDir := fun dir =>
  if dir = [] then [(['a'], .directory), (beside, .file)]
  else if dir = [['a']] then [(['b'], .file)]
  else []

lemma distinctNames_directoryBeside {beside : Text} (h : beside ≠ ['a']) : DistinctNames (directoryBeside beside) := by
  intro dir
  rw [directoryBeside]
  split_ifs
  · simpa using h.symm
  · exact List.nodup_singleton _
  · exact List.nodup_nil

/-- A file whose name does not go on from the one of the directory. -/
theorem list_dir_shows_tree_iff_beside : DistinctNames (directoryBeside "c.txt".toList) ∧
    ∀ sort : SortUnstable, ShowsTree (fun _ => false)
      (sortedEntries sort (directoryBeside "c.txt".toList) (fun _ => false) 2) :=
  have hnames : DistinctNames (directoryBeside "c.txt".toList) := distinctNames_directoryBeside (by decide)
  ⟨hnames, fun sort => ((list_dir_shows_tree_iff _ (fun _ => false) 2 hnames).mpr (by decide +kernel) sort).1⟩

/-- A file whose name goes on from the one of a directory with a dot comes between the directory and its
entry. -/
theorem listing_hides_parent : DistinctNames (directoryBeside "a.txt".toList) ∧ ∀ sort : SortUnstable,
    listDirSliceWithPolicy sort (directoryBeside "a.txt".toList) (fun _ => false) 1 3 2 =
        .ok ["a/".toList, "a.txt".toList, "  b".toList] ∧
      ¬ShowsTree (fun _ => false) (sortedEntries sort (directoryBeside "a.txt".toList) (fun _ => false) 2) := by
  refine ⟨distinctNames_directoryBeside (by decide), fun sort => ?_⟩
  have hentries : sortedEntries sort (directoryBeside "a.txt".toList) (fun _ => false) 2 =
      [dirEntry [] ['a'] .directory, dirEntry [] "a.txt".toList .file, dirEntry [['a']] ['b'] .file] :=
    sortedEntries_eq (by decide +kernel) (by decide +kernel) (by decide +kernel)
  constructor
  · rw [listDirSliceWithPolicy, hentries]
    decide +kernel
  · rw [hentries]
    rintro ⟨hnested, -⟩
    obtain ⟨outer, parent, between, hbefore, hparentOf, hbetween⟩ :=
      hnested [dirEntry [] ['a'] .directory, dirEntry [] "a.txt".toList .file] (dirEntry [['a']] ['b'] .file) []
        rfl (by decide)
    cases outer with
    | nil =>
      cases hbefore
      exact absurd (hbetween _ List.mem_cons_self) (by decide)
    | cons first outer =>
      -- the file is not the directory of the entry
      have hmem : parent ∈ [dirEntry [] "a.txt".toList .file] := by
        rw [(List.cons.inj hbefore).2]
        simp
      rw [List.mem_singleton.mp hmem] at hparentOf
      cases hparentOf.1

end Supercodex.ListDir
