import Supercodex.GhostCommits.Git

/-!
# Reading the status of a repository

What `git status` prints is read back as the paths that it lists, and sorted by the names of the
directories, the sizes of the files and the number of files in a directory.
-/

namespace Supercodex.GhostCommits

open Supercodex.Path StatusEntry Scan

/-! ## Paths -/

lemma splitOn_ended {sep : Char} {ps : List Text} (h : ∀ p ∈ ps, sep ∉ p) :
    (ps.flatMap (· ++ [sep])).splitOn sep = ps ++ [[]] := by
  have hjoin : ps.flatMap (· ++ [sep]) = [sep].intercalate (ps ++ [[]]) := by
    clear h
    induction ps with
    | nil => rfl
    | cons p ps ih =>
      obtain ⟨q, qs, hq⟩ := List.exists_cons_of_ne_nil
        (List.append_ne_nil_of_right_ne_nil ps (List.cons_ne_nil ([] : Text) []))
      rw [List.flatMap_cons, ih, List.cons_append, hq]
      simp [List.intercalate, List.intersperse]
  rw [hjoin, List.splitOn_intercalate sep ?_ (by simp)]
  intro p hp
  rcases List.mem_append.mp hp with hp | hp
  · exact h p hp
  · rw [List.mem_singleton.mp hp]
    simp

variable {p : RelPath}

lemma mem_pathText {ch : Char} (h : ch ∈ pathText p) :
    ch = '/' ∨ ∃ name ∈ p, ch ∈ name := by
  induction p with
  | nil => cases h
  | cons name names ih =>
    cases names with
    | nil =>
      rw [pathText, List.intercalate_singleton] at h
      exact .inr ⟨name, List.mem_cons_self, h⟩
    | cons name' names =>
      rw [pathText, List.intercalate_cons_cons, List.append_assoc, List.mem_append,
        List.mem_append, List.mem_singleton] at h
      rcases h with h | h | h
      · exact .inr ⟨name, List.mem_cons_self, h⟩
      · exact .inl h
      · rcases ih h with hslash | ⟨other, hother, hch⟩
        · exact .inl hslash
        · exact .inr ⟨other, List.mem_cons_of_mem name hother, hch⟩

section ValidPath

variable {p : RelPath} (h : ValidPath p)

include h

lemma components_pathText : components (pathText p) = p.map .normal := by
  have hsplit : (pathText p).splitOn '/' = p :=
    List.splitOn_intercalate '/' (fun name hname => (h.2 name hname).2.2.2.1) h.1
  have hnormal : ∀ name ∈ p, component name = some (.normal name) := by
    intro name hname
    obtain ⟨hnil, hdot, hdots, -⟩ := h.2 name hname
    unfold component
    rw [if_neg hnil, if_neg hdot, if_neg hdots]
  unfold components
  rw [hsplit, ← List.filterMap_eq_map]
  exact List.filterMap_congr hnormal

lemma exists_pathText_cons : ∃ ch rest, pathText p = ch :: rest ∧ ch ≠ '/' := by
  obtain ⟨name, names, rfl⟩ := List.exists_cons_of_ne_nil h.1
  obtain ⟨hnil, -, -, hslash, -⟩ := h.2 name (List.mem_cons_self)
  obtain ⟨ch, rest, rfl⟩ := List.exists_cons_of_ne_nil hnil
  have hne : ch ≠ '/' := fun heq => hslash (heq ▸ List.mem_cons_self)
  cases names with
  | nil => exact ⟨ch, rest, by simp [pathText, List.intercalate], hne⟩
  | cons name' names =>
    exact ⟨ch, rest ++ '/' :: pathText (name' :: names),
      by simp [pathText, List.intercalate, List.intersperse], hne⟩

lemma pathText_ne_nil : pathText p ≠ [] := by
  obtain ⟨ch, rest, htext, -⟩ := exists_pathText_cons h
  rw [htext]
  exact List.cons_ne_nil ch rest

lemma zero_not_mem_pathText : '\x00' ∉ pathText p := by
  intro hmem
  rcases mem_pathText hmem with hslash | ⟨name, hname, hzero⟩
  · cases hslash
  · exact (h.2 name hname).2.2.2.2 hzero

/-- A path that `git` prints is read back. -/
lemma normalizeRelativePath_pathText : normalizeRelativePath (pathText p) = .ok p := by
  obtain ⟨ch, rest, htext, hslash⟩ := exists_pathText_cons h
  have habs : isAbsolute (pathText p) = false := by
    rw [htext]
    unfold isAbsolute
    split
    · rename_i heq
      cases heq
      exact absurd rfl hslash
    · rfl
  have hfold : ∀ (text : Text) (result names : RelPath),
      (names.map Component.normal).foldlM (normalizeStep text) result =
        Except.ok (result ++ names) := by
    intro text result names
    induction names generalizing result with
    | nil => rw [List.append_nil]; rfl
    | cons name names ih =>
      rw [List.map_cons, List.foldlM_cons]
      show (names.map Component.normal).foldlM (normalizeStep text) (result ++ [name]) = _
      rw [ih, List.append_assoc]
      rfl
  unfold normalizeRelativePath
  rw [habs, components_pathText h, if_neg (by simpa using h.1)]
  exact hfold (pathText p) [] p

end ValidPath

/-! ## Records -/

lemma extract_append {t : Text} (h : ' ' ∉ t) (rest : Text) (n : ℕ) :
    extractStatusPathAfterFields (t ++ rest) (n + 1) =
      extractStatusPathAfterFields rest (n + 1) := by
  induction t with
  | nil => rfl
  | cons ch t ih =>
    have hch : ch ≠ ' ' := fun heq => h (heq ▸ List.mem_cons_self)
    rw [List.cons_append, extractStatusPathAfterFields, if_neg hch,
      ih fun hmem => h (List.mem_cons_of_mem ch hmem)]

lemma extract_fields {fields : List Text} (h : ∀ t ∈ fields, ' ' ∉ t) {path : Text}
    (hpath : path ≠ []) :
    extractStatusPathAfterFields (fields.flatMap (' ' :: ·) ++ ' ' :: path) (fields.length + 1) =
      some path := by
  induction fields with
  | nil => simp [extractStatusPathAfterFields, hpath]
  | cons field fields ih =>
    rw [List.flatMap_cons, List.cons_append, List.cons_append, List.append_assoc,
      List.length_cons, extractStatusPathAfterFields, if_pos rfl, if_neg (Nat.succ_ne_zero _),
      extract_append (h field List.mem_cons_self),
      ih fun t ht => h t (List.mem_cons_of_mem field ht)]

lemma extract_statusRecord {kind : Char} (hkind : kind ≠ ' ') {n : ℕ} (fields : RecordFields n)
    (h : ValidPath p) :
    extractStatusPathAfterFields (statusRecord kind fields.texts p) (n + 1) =
      some (pathText p) := by
  have hfields := extract_fields (fun t ht => (fields.plain t ht).1) (pathText_ne_nil h)
  rw [fields.length_eq] at hfields
  unfold statusRecord
  rw [extractStatusPathAfterFields, if_neg hkind, hfields]

lemma splitAtSpace_statusRecord (p : RelPath) :
    splitAtSpace (statusRecord '?' [] p) = some (['?'], pathText p) := by
  simp [splitAtSpace, statusRecord]

lemma zero_not_mem_statusRecord {kind : Char} (hkind : kind ≠ '\x00') {fields : List Text}
    (hfields : ∀ t ∈ fields, '\x00' ∉ t) (h : ValidPath p) :
    '\x00' ∉ statusRecord kind fields p := by
  have hzero := zero_not_mem_pathText h
  simp only [statusRecord, List.mem_cons, List.mem_append, List.mem_flatMap, not_or, not_exists,
    not_and]
  exact ⟨hkind.symm, fun t ht => ⟨by decide, hfields t ht⟩, by decide, hzero⟩

/-- The paths of an entry are paths that a repository can hold. -/
def StatusEntry.Valid (entry : StatusEntry) : Prop :=
  ∀ p ∈ entry.trackedPaths ++ entry.untrackedPaths, ValidPath p

lemma zero_not_mem_pieces {entry : StatusEntry} (h : entry.Valid) :
    ∀ piece ∈ entry.pieces, '\x00' ∉ piece := by
  intro piece hpiece
  cases entry with
  | ordinary fields path =>
    cases List.mem_singleton.mp hpiece
    exact zero_not_mem_statusRecord (by decide) (fun t ht => (fields.plain t ht).2)
      (h path (by simp [trackedPaths]))
  | renamed fields path source =>
    rcases List.mem_cons.mp hpiece with rfl | hpiece
    · exact zero_not_mem_statusRecord (by decide) (fun t ht => (fields.plain t ht).2)
        (h path (by simp [trackedPaths]))
    · cases List.mem_singleton.mp hpiece
      exact zero_not_mem_pathText (h source (by simp [trackedPaths]))
  | unmerged fields path =>
    cases List.mem_singleton.mp hpiece
    exact zero_not_mem_statusRecord (by decide) (fun t ht => (fields.plain t ht).2)
      (h path (by simp [trackedPaths]))
  | untracked path =>
    cases List.mem_singleton.mp hpiece
    exact zero_not_mem_statusRecord (by decide) (by simp)
      (h path (by simp [untrackedPaths]))

/-! ## The loop over the entries -/

section Scanning

variable (worktree : Files Text Content) (config : GhostSnapshotConfig)
  (forceInclude : List RelPath)

/-- What the loop knows after it saw some tracked paths and some untracked files. -/
def scanOf (tracked untracked : List RelPath) : Scan where
  snapshot :=
    ⟨tracked,
      { files := untracked.filter fun p => (oversize worktree config forceInclude p).isNone
        dirs := []
        untrackedFilesForIndex :=
          untracked.filter fun p => (oversize worktree config forceInclude p).isNone
        ignoredUntrackedFiles := untracked.filterMap fun p =>
          (oversize worktree config forceInclude p).map (IgnoredUntrackedFile.mk p)
        ignoredLargeUntrackedDirs := []
        ignoredLargeUntrackedDirFiles := [] }⟩
  untrackedFilesForDirScan := untracked
  expectRenameSource := false

/-- The untracked files of an entry that are not skipped because of their names. -/
def StatusEntry.seen (entry : StatusEntry) : List RelPath :=
  entry.untrackedPaths.filter fun p => !shouldIgnoreForSnapshot p

variable {worktree config forceInclude} {p : RelPath}

section

variable (tracked untracked : List RelPath)

lemma pushTracked_scanOf (h : ValidPath p) :
    (scanOf worktree config forceInclude tracked untracked).pushTracked (pathText p) =
      .ok (scanOf worktree config forceInclude (tracked ++ [p]) untracked) := by
  unfold pushTracked
  rw [normalizeRelativePath_pathText h]
  rfl

lemma pushRecord_scanOf {kind : Char} (hkind : kind ≠ ' ')
    {n : ℕ} (fields : RecordFields n) (h : ValidPath p) :
    (scanOf worktree config forceInclude tracked untracked).pushRecord
        (statusRecord kind fields.texts p) (n + 1) =
      .ok (scanOf worktree config forceInclude (tracked ++ [p]) untracked) := by
  unfold pushRecord
  rw [extract_statusRecord hkind fields h]
  exact pushTracked_scanOf tracked untracked h

lemma pushUntracked_scanOf (h : (worktree.get p).isSome) :
    (scanOf worktree config forceInclude tracked untracked).pushUntracked worktree config
        forceInclude ['?'] p =
      scanOf worktree config forceInclude tracked (untracked ++ [p]) := by
  unfold pushUntracked
  rw [Files.isDir_of_get h]
  cases hsize : oversize worktree config forceInclude p with
  | none | some byteSize => simp [scanOf, hsize]

lemma entry_renameSource (h : ValidPath p) :
    entry worktree config forceInclude
        { scanOf worktree config forceInclude tracked untracked with expectRenameSource := true }
        (pathText p) =
      .ok (scanOf worktree config forceInclude (tracked ++ [p]) untracked) := by
  unfold entry
  rw [if_neg (pathText_ne_nil h), if_pos rfl]
  unfold pushTracked
  rw [normalizeRelativePath_pathText h]
  rfl

lemma entry_untracked (h : ValidPath p)
    (hfile : (worktree.get p).isSome) :
    entry worktree config forceInclude
        (scanOf worktree config forceInclude tracked untracked) (statusRecord '?' [] p) =
      .ok (scanOf worktree config forceInclude tracked
        (untracked ++ [p].filter fun p => !shouldIgnoreForSnapshot p)) := by
  have hrecord : statusRecord '?' [] p ≠ [] := List.cons_ne_nil _ _
  have hexpect : ¬ (scanOf worktree config forceInclude tracked untracked).expectRenameSource = true :=
    Bool.false_ne_true
  rw [entry, if_neg hrecord, if_neg hexpect, if_pos (.inl rfl), splitAtSpace_statusRecord]
  dsimp only
  rw [if_neg (pathText_ne_nil h), normalizeRelativePath_pathText h]
  show (if shouldIgnoreForSnapshot p then _ else _) = _
  rw [pushUntracked_scanOf tracked untracked hfile]
  cases hname : shouldIgnoreForSnapshot p with
  | true =>
    rw [List.filter_cons_of_neg (by simp [hname]), List.filter_nil, List.append_nil]
    rfl
  | false =>
    rw [List.filter_cons_of_pos (by simp [hname]), List.filter_nil]
    rfl

lemma entry_ordinary (fields : RecordFields 7)
    (h : ValidPath p) :
    entry worktree config forceInclude
        (scanOf worktree config forceInclude tracked untracked)
        (statusRecord '1' fields.texts p) =
      .ok (scanOf worktree config forceInclude (tracked ++ [p]) untracked) :=
  pushRecord_scanOf tracked untracked (by decide) fields h

lemma entry_unmerged (fields : RecordFields 9)
    (h : ValidPath p) :
    entry worktree config forceInclude
        (scanOf worktree config forceInclude tracked untracked)
        (statusRecord 'u' fields.texts p) =
      .ok (scanOf worktree config forceInclude (tracked ++ [p]) untracked) :=
  pushRecord_scanOf tracked untracked (by decide) fields h

lemma entry_renamed (fields : RecordFields 8)
    (h : ValidPath p) :
    entry worktree config forceInclude
        (scanOf worktree config forceInclude tracked untracked)
        (statusRecord '2' fields.texts p) =
      .ok { scanOf worktree config forceInclude (tracked ++ [p]) untracked with
        expectRenameSource := true } := by
  show (pushRecord _ _ 9 >>= fun scan => pure { scan with expectRenameSource := true }) = _
  rw [pushRecord_scanOf tracked untracked (by decide) fields h]
  rfl

/-- The loop reads an entry back. -/
lemma foldlM_pieces {entry : StatusEntry} (h : entry.Valid)
    (hfile : ∀ p ∈ entry.untrackedPaths, (worktree.get p).isSome) :
    entry.pieces.foldlM (Scan.entry worktree config forceInclude)
        (scanOf worktree config forceInclude tracked untracked) =
      .ok (scanOf worktree config forceInclude (tracked ++ entry.trackedPaths)
        (untracked ++ entry.seen)) := by
  have hpath : ∀ p ∈ entry.trackedPaths, ValidPath p :=
    fun p hp => h p (List.mem_append_left _ hp)
  cases entry with
  | ordinary fields path =>
    have hseen : (ordinary fields path).seen = [] := rfl
    rw [pieces, List.foldlM_cons, entry_ordinary tracked untracked fields
      (hpath path List.mem_cons_self), hseen, List.append_nil]
    rfl
  | renamed fields path source =>
    have hseen : (renamed fields path source).seen = [] := rfl
    rw [pieces, List.foldlM_cons, entry_renamed tracked untracked fields
      (hpath path List.mem_cons_self), hseen, List.append_nil]
    show (Scan.entry _ _ _ _ (pathText source) >>= pure) = _
    rw [entry_renameSource (tracked ++ [path]) untracked
      (hpath source (List.mem_cons_of_mem path List.mem_cons_self)), List.append_assoc]
    rfl
  | unmerged fields path =>
    have hseen : (unmerged fields path).seen = [] := rfl
    rw [pieces, List.foldlM_cons, entry_unmerged tracked untracked fields
      (hpath path List.mem_cons_self), hseen, List.append_nil]
    rfl
  | untracked path =>
    rw [pieces, List.foldlM_cons, entry_untracked tracked untracked
      (h path List.mem_cons_self) (hfile path List.mem_cons_self), trackedPaths,
      List.append_nil]
    rfl

variable {entries : List StatusEntry}

/-- The scan over the status collects the tracked and the untracked paths of its entries. -/
lemma foldlM_entries (h : ∀ entry ∈ entries, entry.Valid)
    (hfile : ∀ p ∈ entries.flatMap (·.untrackedPaths), (worktree.get p).isSome) :
    (entries.flatMap (·.pieces)).foldlM (Scan.entry worktree config forceInclude)
        (scanOf worktree config forceInclude tracked untracked) =
      .ok (scanOf worktree config forceInclude (tracked ++ entries.flatMap (·.trackedPaths))
        (untracked ++ entries.flatMap (·.seen))) := by
  induction entries generalizing tracked untracked with
  | nil =>
    simp only [List.flatMap_nil, List.append_nil]
    rfl
  | cons entry entries ih =>
    simp only [List.flatMap_cons, List.mem_append] at hfile
    rw [List.flatMap_cons, List.foldlM_append,
      foldlM_pieces tracked untracked (h entry List.mem_cons_self) fun p hp => hfile p (.inl hp)]
    show List.foldlM _ _ (entries.flatMap (·.pieces)) = _
    rw [ih _ _ (fun other hother => h other (List.mem_cons_of_mem entry hother))
      fun p hp => hfile p (.inr hp), List.flatMap_cons, List.flatMap_cons, List.append_assoc,
      List.append_assoc]

end

lemma detectLargeUntrackedDirs_nil (threshold : Option ℤ) :
    detectLargeUntrackedDirs [] [] threshold = [] := by
  unfold detectLargeUntrackedDirs
  cases threshold with
  | none => rfl
  | some threshold =>
    simp only
    split <;> simp [dedupePaths, firstOccurrences]

lemma statusOutput_ne_nil (h : entries ≠ []) :
    statusOutput entries ≠ [] := by
  obtain ⟨entry, entries, rfl⟩ := List.exists_cons_of_ne_nil h
  cases entry <;> simp [statusOutput, pieces]

/-- What `git status` prints is read as the paths that it lists. -/
lemma captureStatusSnapshot_statusOutput (h : ∀ entry ∈ entries, entry.Valid)
    (hfile : ∀ p ∈ entries.flatMap (·.untrackedPaths), (worktree.get p).isSome) :
    captureStatusSnapshot worktree config forceInclude (statusOutput entries) =
      .ok ((scanOf worktree config forceInclude (entries.flatMap (·.trackedPaths))
        (entries.flatMap (·.seen))).dropLargeDirs config) := by
  by_cases hnil : entries = []
  · subst hnil
    unfold dropLargeDirs largeDirs
    simp only [scanOf, List.flatMap_nil, detectLargeUntrackedDirs_nil, List.filter_nil, if_true]
    rfl
  have hsplit : (statusOutput entries).splitOn '\x00' = entries.flatMap (·.pieces) ++ [[]] := by
    apply splitOn_ended
    intro piece hpiece
    obtain ⟨entry, hentry, hpiece⟩ := List.mem_flatMap.mp hpiece
    exact zero_not_mem_pieces (h entry hentry) piece hpiece
  have hstart : start = scanOf worktree config forceInclude [] [] := rfl
  unfold captureStatusSnapshot
  rw [if_neg (statusOutput_ne_nil hnil), hsplit, List.foldlM_append, hstart,
    foldlM_entries [] [] h hfile]
  rfl

end Scanning

/-! ## Large directories -/

/-- The directories with too many of the untracked files, the root aside. -/
def largeDirs (config : GhostSnapshotConfig) (untracked : List RelPath) : List RelPath :=
  ((detectLargeUntrackedDirs untracked [] config.ignoreLargeUntrackedDirs).filter
    fun dir => dir.path ≠ []).map (·.path)

lemma mem_largeDirs {config : GhostSnapshotConfig} {untracked : List RelPath} {d : RelPath} :
    d ∈ largeDirs config untracked ↔
      d ≠ [] ∧ ∃ threshold, config.ignoreLargeUntrackedDirs = some threshold ∧ 0 < threshold ∧
        threshold ≤ ((untracked.map List.dropLast).count d : ℤ) := by
  unfold largeDirs detectLargeUntrackedDirs
  cases config.ignoreLargeUntrackedDirs with
  | none => simp
  | some threshold =>
    by_cases hpos : threshold ≤ 0
    · simp only [if_pos hpos, List.filter_nil, List.map_nil, List.not_mem_nil, Option.some.injEq,
        false_iff]
      rintro ⟨-, t, rfl, ht, -⟩
      omega
    · have hkey : untracked.map (dirKey []) = untracked.map List.dropLast := rfl
      simp only [if_neg hpos, List.mergeSort_nil, hkey, List.mem_map, List.mem_filter,
        List.mem_mergeSort, decide_eq_true_eq, Option.some.injEq]
      constructor
      · rintro ⟨dir, ⟨⟨⟨key, -, rfl⟩, hcount⟩, hne⟩, rfl⟩
        exact ⟨hne, threshold, rfl, by omega, hcount⟩
      · rintro ⟨hne, t, rfl, ht, hcount⟩
        have hmem : d ∈ untracked.map List.dropLast := by
          rw [← List.count_pos_iff]
          omega
        exact ⟨_, ⟨⟨⟨d, FirstOccurrences.mem_iff.mpr hmem, rfl⟩, hcount⟩, hne⟩, rfl⟩

lemma below_iff {dirs : List RelPath} :
    below dirs p = true ↔ ∃ d ∈ dirs, d <+: p := by
  simp [below]

section Sorted

variable (worktree : Files Text Content) (config : GhostSnapshotConfig)
  (forceInclude tracked untracked : List RelPath)

/-- The snapshot leaves out large files and what is below large directories. -/
lemma dropLargeDirs_scanOf :
    let snapshot :=
      (scanOf worktree config forceInclude tracked untracked).dropLargeDirs config
    let kept := fun p => !below (largeDirs config untracked) p
    snapshot.trackedPaths = tracked ∧
      snapshot.untracked.files = (untracked.filter fun p =>
        (oversize worktree config forceInclude p).isNone).filter kept ∧
      snapshot.untracked.dirs = [] ∧
      snapshot.untracked.ignoredUntrackedFiles = (untracked.filterMap fun p =>
        (oversize worktree config forceInclude p).map (IgnoredUntrackedFile.mk p)).filter
          (fun file => kept file.path) ∧
      snapshot.untracked.ignoredLargeUntrackedDirs.map (·.path) = largeDirs config untracked := by
  have hlarge : largeDirs config untracked =
      ((scanOf worktree config forceInclude tracked untracked).largeDirs config).map (·.path) := rfl
  unfold dropLargeDirs
  rw [hlarge]
  by_cases hnone : (scanOf worktree config forceInclude tracked untracked).largeDirs config = []
  · simp only [hnone, if_true, List.map_nil, below, List.any_nil, Bool.not_false,
      List.filter_true]
    exact ⟨rfl, rfl, rfl, rfl, rfl⟩
  · simp only [hnone, if_false]
    exact ⟨rfl, rfl, rfl, rfl, trivial⟩

lemma mem_files_iff :
    p ∈ ((scanOf worktree config forceInclude tracked untracked).dropLargeDirs
        config).untracked.files ↔
      p ∈ untracked ∧ oversize worktree config forceInclude p = none ∧
        ¬ below (largeDirs config untracked) p := by
  rw [(dropLargeDirs_scanOf worktree config forceInclude tracked untracked).2.1]
  simp only [List.mem_filter, Option.isNone_iff_eq_none, Bool.not_eq_true', Bool.not_eq_true,
    and_assoc]

lemma mem_files_or_ignored_iff :
    p ∈ ((scanOf worktree config forceInclude tracked untracked).dropLargeDirs
          config).untracked.files ++
        ((scanOf worktree config forceInclude tracked untracked).dropLargeDirs
          config).untracked.ignoredUntrackedFiles.map (·.path) ↔
      p ∈ untracked ∧ ¬ below (largeDirs config untracked) p := by
  rw [List.mem_append, mem_files_iff,
    (dropLargeDirs_scanOf worktree config forceInclude tracked untracked).2.2.2.1]
  simp only [List.mem_map, List.mem_filter, List.mem_filterMap, Option.map_eq_some_iff,
    Bool.not_eq_true', Bool.not_eq_true]
  constructor
  · rintro (⟨hp, -, hbelow⟩ | ⟨file, ⟨⟨q, hq, size, -, rfl⟩, hbelow⟩, rfl⟩)
    · exact ⟨hp, hbelow⟩
    · exact ⟨hq, hbelow⟩
  · rintro ⟨hp, hbelow⟩
    cases hsize : oversize worktree config forceInclude p with
    | none => exact .inl ⟨hp, rfl, hbelow⟩
    | some size => exact .inr ⟨⟨p, size⟩, ⟨⟨p, hp, size, hsize, rfl⟩, hbelow⟩, rfl⟩

end Sorted

end Supercodex.GhostCommits
