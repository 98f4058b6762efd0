import Supercodex.GhostCommits.StatusTheorems
import Mathlib.Data.List.Perm.Subperm

/-!
# What undo keeps and what it removes

Undo compares two listings of untracked files, one of the snapshot and one of the repository that is
restored. A file that is listed at both times, or at neither, is safe.
-/

namespace Supercodex.GhostCommits

open Files StatusEntry FirstOccurrences

/-! ## Large directories and files of a repository -/

namespace Repo

variable (repo : Repo) (config : GhostSnapshotConfig)

/-- A directory, the root aside, with at least as many untracked files as the threshold. -/
def IsLargeDir (d : RelPath) : Prop :=
  d ≠ [] ∧ ∃ threshold, config.ignoreLargeUntrackedDirs = some threshold ∧ 0 < threshold ∧
    ∃ files : List RelPath, files.Nodup ∧ threshold ≤ (files.length : ℤ) ∧
      ∀ p ∈ files, repo.IsUntracked p ∧ shouldIgnoreForSnapshot p = false ∧ p.dropLast = d

/-- A path in a large directory. -/
def InLargeDir (p : RelPath) : Prop := ∃ d, repo.IsLargeDir config d ∧ d <+: p

/-- A file that is larger than the threshold. -/
def IsOversize (p : RelPath) : Prop :=
  ∃ threshold content, config.ignoreLargeUntrackedFiles = some threshold ∧ 0 < threshold ∧
    repo.worktree.get p = some content ∧ threshold < (content.length : ℤ)

end Repo

section Listing

variable {repo : Repo} {config : GhostSnapshotConfig} {entries : List StatusEntry}
  (h : repo.Lists entries)

include h

lemma Repo.Lists.valid : ∀ entry ∈ entries, entry.Valid := by
  intro entry hentry p hp
  apply repo.valid
  rw [List.mem_append, List.mem_append, mem_paths_iff, mem_paths_iff,
    mem_paths_iff]
  rcases List.mem_append.mp hp with hp | hp
  · have hchanged := (h.tracked p).mp (List.mem_flatMap.mpr ⟨entry, hentry, hp⟩)
    by_cases hindex : (repo.index.get p).isSome = true
    · exact .inl (.inr hindex)
    have hnone : repo.index.get p = none := by simpa using hindex
    rcases hchanged with hhead | ⟨hsome, -⟩
    · rw [hnone] at hhead
      exact .inr (Option.isSome_iff_ne_none.mpr hhead)
    · exact absurd hsome hindex
  · have huntracked := (h.untracked p).mp (List.mem_flatMap.mpr ⟨entry, hentry, hp⟩)
    exact .inl (.inl huntracked.1)

lemma Repo.Lists.isFile : ∀ p ∈ entries.flatMap (·.untrackedPaths),
    (repo.worktree.get p).isSome :=
  fun p hp => ((h.untracked p).mp hp).1

lemma Repo.Lists.mem_seen {p : RelPath} :
    p ∈ entries.flatMap (·.seen) ↔ repo.IsUntracked p ∧ shouldIgnoreForSnapshot p = false := by
  rw [← h.untracked]
  simp only [List.mem_flatMap, seen, List.mem_filter, Bool.not_eq_true',
    ← and_assoc, exists_and_right]

lemma Repo.Lists.nodup_seen : (entries.flatMap (·.seen)).Nodup := by
  have hfilter : entries.flatMap (·.seen) =
      (entries.flatMap (·.untrackedPaths)).filter fun p => !shouldIgnoreForSnapshot p := by
    rw [List.filter_flatMap]
    rfl
  rw [hfilter]
  exact h.nodup.filter _

lemma Repo.Lists.mem_largeDirs_iff {d : RelPath} :
    d ∈ largeDirs config (entries.flatMap (·.seen)) ↔ repo.IsLargeDir config d := by
  have hcount : ((entries.flatMap (·.seen)).map List.dropLast).count d =
      ((entries.flatMap (·.seen)).filter fun p => p.dropLast = d).length := by
    rw [List.count, List.countP_map, List.countP_eq_length_filter]
    congr 1
    apply List.filter_congr
    intro p _
    exact beq_eq_decide _ _
  rw [mem_largeDirs, hcount]
  refine and_congr_right fun _ => exists_congr fun threshold => and_congr_right fun _ =>
    and_congr_right fun _ => ?_
  constructor
  · intro hle
    refine ⟨_, h.nodup_seen.filter _, hle, fun p hp => ?_⟩
    rw [List.mem_filter, h.mem_seen, decide_eq_true_eq] at hp
    exact ⟨hp.1.1, hp.1.2, hp.2⟩
  · rintro ⟨files, hnodup, hle, hfiles⟩
    have hsubset : files ⊆ (entries.flatMap (·.seen)).filter fun p => p.dropLast = d := by
      intro p hp
      obtain ⟨huntracked, hname, hdir⟩ := hfiles p hp
      rw [List.mem_filter, h.mem_seen, decide_eq_true_eq]
      exact ⟨⟨huntracked, hname⟩, hdir⟩
    have hlen := (hnodup.subperm hsubset).length_le
    omega

lemma Repo.Lists.below_largeDirs_iff {p : RelPath} :
    below (largeDirs config (entries.flatMap (·.seen))) p = true ↔ repo.InLargeDir config p := by
  rw [below_iff]
  exact exists_congr fun d => and_congr_left fun _ => h.mem_largeDirs_iff

lemma Repo.Lists.capture (forceInclude : List RelPath) :
    captureStatusSnapshot repo.worktree config forceInclude (statusOutput entries) =
      .ok ((scanOf repo.worktree config forceInclude (entries.flatMap (·.trackedPaths))
        (entries.flatMap (·.seen))).dropLargeDirs config) :=
  captureStatusSnapshot_statusOutput h.valid h.isFile

end Listing

/-- The fields of an ordinary record. -/
def ordinaryFields : RecordFields 7 where
  texts := [".M", "N...", "100644", "100644", "100644", "0", "0"].map String.toList
  length_eq := rfl
  plain := by decide

/-- What `git status` prints without the detection of renames. -/
def Repo.listing (repo : Repo) : List StatusEntry :=
  ((firstOccurrences (repo.head.paths ++ repo.index.paths)).filter fun p =>
      repo.IsChanged p).map (.ordinary ordinaryFields) ++
    ((firstOccurrences repo.worktree.paths).filter fun p => repo.IsUntracked p).map .untracked

/-- Every repository has a listing. -/
lemma Repo.lists_listing (repo : Repo) : repo.Lists repo.listing := by
  have hordinary : ∀ ps : List RelPath,
      ((ps.map (ordinary ordinaryFields)).flatMap (·.trackedPaths) = ps ∧
        (ps.map (ordinary ordinaryFields)).flatMap (·.untrackedPaths) = []) := by
    intro ps
    induction ps with
    | nil => exact ⟨rfl, rfl⟩
    | cons p ps ih =>
      exact ⟨congrArg (p :: ·) ih.1, ih.2⟩
  have huntracked : ∀ ps : List RelPath,
      ((ps.map untracked).flatMap (·.trackedPaths) = [] ∧
        (ps.map untracked).flatMap (·.untrackedPaths) = ps) := by
    intro ps
    induction ps with
    | nil => exact ⟨rfl, rfl⟩
    | cons p ps ih =>
      exact ⟨ih.1, congrArg (p :: ·) ih.2⟩
  unfold Repo.listing
  refine ⟨fun p => ?_, fun p => ?_, ?_⟩
  · rw [List.flatMap_append, (hordinary _).1, (huntracked _).1, List.append_nil, List.mem_filter,
      mem_iff, List.mem_append, mem_paths_iff, mem_paths_iff,
      decide_eq_true_eq, and_iff_right_iff_imp]
    intro hchanged
    by_contra hnot
    push Not at hnot
    simp only [ne_eq, Bool.not_eq_true, Option.isSome_eq_false_iff,
      Option.isNone_iff_eq_none] at hnot
    rcases hchanged with hne | ⟨hsome, -⟩
    · exact hne (hnot.1.trans hnot.2.symm)
    · rw [hnot.2] at hsome
      cases hsome
  · rw [List.flatMap_append, (hordinary _).2, (huntracked _).2, List.nil_append, List.mem_filter,
      mem_iff, mem_paths_iff, decide_eq_true_eq, and_iff_right_iff_imp]
    exact fun huntracked => huntracked.1
  · rw [List.flatMap_append, (hordinary _).2, (huntracked _).2, List.nil_append]
    exact (nodup _).filter _

/-! ## The tree of a snapshot -/

/-- At a path, an index holds nothing but what the work tree holds. -/
def Held (repo : Repo) (p : RelPath) (index : Files Text Content) : Prop :=
  ∀ c, index.get p = some c → repo.worktree.get p = some c

section Adding

variable {repo : Repo} {force : Bool} {index index' : Files Text Content} {paths : List RelPath}
  {p : RelPath}

lemma get_gitAdd (h : gitAdd force repo index paths = .ok index') (p : RelPath) :
    index'.get p =
      if below paths p then
        if force || (index.get p).isSome || !repo.ignored p then repo.worktree.get p else none
      else index.get p := by
  unfold gitAdd at h
  simp only at h
  split at h
  · cases h
  · cases h
    rw [get_append, get_keep, get_keep]
    cases below paths p <;> simp

lemma Held.gitAdd (hheld : Held repo p index) (h : gitAdd force repo index paths = .ok index') :
    Held repo p index' := by
  intro c hc
  rw [get_gitAdd h] at hc
  split at hc
  · split at hc
    · exact hc
    · cases hc
  · exact hheld c hc

lemma held_of_below (hbelow : below paths p = true)
    (h : gitAdd force repo index paths = .ok index') : Held repo p index' := by
  intro c hc
  rw [get_gitAdd h, if_pos hbelow] at hc
  split at hc
  · exact hc
  · cases hc

lemma flatten_chunks {fuel : ℕ} (h : paths.length ≤ fuel) : (chunks fuel paths).flatten = paths := by
  induction fuel generalizing paths with
  | zero =>
    rw [List.length_eq_zero_iff.mp (Nat.le_zero.mp h)]
    rfl
  | succ fuel ih =>
    cases paths with
    | nil => rfl
    | cons path paths =>
      rw [chunks, List.flatten_cons, ih, List.take_append_drop]
      rw [List.length_drop, List.length_cons]
      rw [List.length_cons] at h
      omega

lemma held_foldlM {parts : List (List RelPath)} (hp : Held repo p index ∨ p ∈ parts.flatten)
    (h : parts.foldlM (gitAdd false repo) index = .ok index') : Held repo p index' := by
  induction parts generalizing index with
  | nil =>
    cases h
    rcases hp with hp | hp
    · exact hp
    · cases hp
  | cons part parts ih =>
    rw [List.foldlM_cons] at h
    cases hadd : gitAdd false repo index part with
    | error error =>
      rw [hadd] at h
      cases h
    | ok next =>
      rw [hadd] at h
      apply ih ?_ h
      rcases hp with hp | hp
      · exact .inl (hp.gitAdd hadd)
      rw [List.flatten_cons, List.mem_append] at hp
      rcases hp with hp | hp
      · exact .inl (held_of_below (below_iff.mpr ⟨p, hp, List.prefix_refl p⟩) hadd)
      · exact .inr hp

lemma held_addPathsToIndex (hp : Held repo p index ∨ p ∈ paths)
    (h : addPathsToIndex repo index paths = .ok index') : Held repo p index' := by
  apply held_foldlM ?_ h
  rwa [flatten_chunks (Nat.le_refl _)]

end Adding

/-! ## A snapshot -/

lemma mem_mergePreservedUntrackedDirs {dirs : List RelPath} {large : List LargeUntrackedDir}
    {d : RelPath} :
    d ∈ mergePreservedUntrackedDirs dirs large ↔ d ∈ dirs ∨ d ∈ large.map (·.path) := by
  unfold mergePreservedUntrackedDirs
  induction large generalizing dirs with
  | nil => simp
  | cons entry large ih =>
    rw [List.foldl_cons, ih, List.map_cons, List.mem_cons]
    split
    · rename_i hmem
      constructor
      · rintro (hd | hd)
        · exact .inl hd
        · exact .inr (.inr hd)
      · rintro (hd | rfl | hd)
        · exact .inl hd
        · exact .inl hmem
        · exact .inr hd
    · rw [List.mem_append, List.mem_singleton, or_assoc]

section Snapshot

variable {options : CreateGhostCommitOptions} {repo : Repo} {entries : List StatusEntry}
  {commit : GhostCommit}

section

variable (h : repo.Lists entries)
include h

section

variable (hcommit : createGhostCommit options repo (statusOutput entries) = .ok commit)
include hcommit

/-- What a successful call did. -/
lemma createGhostCommit_eq_ok
    :
    ∃ forceInclude index,
      let snapshot := (scanOf repo.worktree options.ghostSnapshot forceInclude
        (entries.flatMap (·.trackedPaths)) (entries.flatMap (·.seen))).dropLargeDirs
          options.ghostSnapshot
      addPathsToIndex repo repo.head (dedupePaths
        (snapshot.trackedPaths ++ snapshot.untracked.untrackedFilesForIndex)) = .ok index ∧
      (commit.tree = index ∨ gitAdd true repo index forceInclude = .ok commit.tree) ∧
      commit.preexistingUntrackedFiles = mergePreservedUntrackedFiles snapshot.untracked.files
        snapshot.untracked.ignoredUntrackedFiles ∧
      commit.preexistingUntrackedDirs = mergePreservedUntrackedDirs snapshot.untracked.dirs
        snapshot.untracked.ignoredLargeUntrackedDirs := by
  unfold createGhostCommit createGhostCommitWithReport at hcommit
  cases hforce : prepareForceInclude options.forceInclude with
  | error error =>
    rw [hforce] at hcommit
    cases hcommit
  | ok forceInclude =>
    rw [hforce] at hcommit
    simp only [bind, Except.bind, h.capture] at hcommit
    generalize hsnapshot : (scanOf repo.worktree options.ghostSnapshot forceInclude
      (entries.flatMap (·.trackedPaths)) (entries.flatMap (·.seen))).dropLargeDirs
        options.ghostSnapshot = snapshot at hcommit
    cases hadd : addPathsToIndex repo repo.head (dedupePaths
        (snapshot.trackedPaths ++ snapshot.untracked.untrackedFilesForIndex)) with
    | error error =>
      rw [hadd] at hcommit
      cases hcommit
    | ok index =>
      rw [hadd] at hcommit
      refine ⟨forceInclude, index, ?_⟩
      simp only [hsnapshot]
      by_cases hnil : forceInclude = []
      · simp only [if_pos hnil] at hcommit
        cases hcommit
        exact ⟨hadd, .inl rfl, rfl, rfl⟩
      · cases hgit : gitAdd true repo index forceInclude with
        | error error =>
          simp only [if_neg hnil, hgit] at hcommit
          cases hcommit
        | ok tree =>
          simp only [if_neg hnil, hgit] at hcommit
          cases hcommit
          exact ⟨hadd, .inr rfl, rfl, rfl⟩

lemma tree_eq_worktree {p : RelPath}
    {c : Content} (hc : commit.tree.get p = some c) : repo.worktree.get p = some c := by
  obtain ⟨forceInclude, index, hadd, htree, -⟩ := createGhostCommit_eq_ok h hcommit
  have hheld : Held repo p index := by
    apply held_addPathsToIndex ?_ hadd
    rw [(dropLargeDirs_scanOf _ _ _ _ _).1]
    by_cases hchanged : repo.IsChanged p
    · right
      apply mem_iff.mpr
      exact List.mem_append_left _ ((h.tracked p).mpr hchanged)
    · -- what is not listed is the same in `HEAD`, the index and the work tree
      left
      intro c hhead
      unfold Repo.IsChanged at hchanged
      push Not at hchanged
      rw [hchanged.1] at hhead
      rw [hchanged.2 (Option.isSome_of_eq_some hhead), hhead]
  rcases htree with rfl | hforce
  · exact hheld c hc
  · exact hheld.gitAdd hforce c hc

lemma apart_of_worktree {p : RelPath}
    (hp : (repo.worktree.get p).isSome) (htree : commit.tree.get p = none) :
    ∀ q, (commit.tree.get q).isSome → ¬ p <+: q ∧ ¬ q <+: p := by
  intro q hq
  obtain ⟨c, hc⟩ := Option.isSome_iff_exists.mp hq
  have hworktree := Option.isSome_of_eq_some (tree_eq_worktree h hcommit hc)
  refine ⟨fun hle => ?_, fun hle => ?_⟩
  · have heq := repo.separate p q hp hworktree hle
    rw [heq, hc] at htree
    cases htree
  · have heq := repo.separate q p hworktree hp hle
    rw [← heq, hc] at htree
    cases htree

lemma shouldPreserve_iff {p : RelPath} :
    shouldPreserve p commit.preexistingUntrackedFiles commit.preexistingUntrackedDirs = true ↔
      (repo.IsUntracked p ∧ shouldIgnoreForSnapshot p = false) ∨
        repo.InLargeDir options.ghostSnapshot p := by
  obtain ⟨forceInclude, index, -, -, hfiles, hdirs⟩ := createGhostCommit_eq_ok h hcommit
  have hbelow : below commit.preexistingUntrackedDirs p = true ↔
      repo.InLargeDir options.ghostSnapshot p := by
    rw [← h.below_largeDirs_iff, below_iff, below_iff]
    refine exists_congr fun d => and_congr_left fun _ => ?_
    have hsorted := dropLargeDirs_scanOf repo.worktree options.ghostSnapshot forceInclude
      (entries.flatMap (·.trackedPaths)) (entries.flatMap (·.seen))
    rw [hdirs, mem_mergePreservedUntrackedDirs, hsorted.2.2.1, hsorted.2.2.2.2]
    simp
  have hmem : p ∈ commit.preexistingUntrackedFiles ↔
      (repo.IsUntracked p ∧ shouldIgnoreForSnapshot p = false) ∧
        ¬ repo.InLargeDir options.ghostSnapshot p := by
    rw [hfiles, mergePreservedUntrackedFiles, mem_files_or_ignored_iff, h.mem_seen,
      h.below_largeDirs_iff]
  unfold shouldPreserve
  rw [Bool.or_eq_true, decide_eq_true_eq, hbelow, hmem]
  tauto

end

end

end Snapshot

/-! ### Removing paths -/

section Removing

variable {worktree worktree' : Files Text Content} {q r : RelPath} {rs : List RelPath}

/-- A path that could be removed is gone, with what was below it. -/
lemma get_of_removePath (h : removePath worktree r = .ok worktree') (p : RelPath) :
    worktree'.get p = if r <+: p then none else worktree.get p := by
  unfold removePath symlinkMetadata at h
  by_cases hfile : (worktree.get r).isSome = true
  · rw [if_pos hfile] at h
    cases h
    exact get_remove worktree r p
  rw [if_neg hfile] at h
  by_cases hdir : worktree.isDir r = true
  · rw [if_pos hdir] at h
    cases h
    exact get_remove worktree r p
  rw [if_neg hdir] at h
  by_cases habove : worktree.belowFile r = true
  · rw [if_pos habove] at h
    cases h
  -- the path is absent
  rw [if_neg habove] at h
  cases h
  split
  · rename_i hrp
    have hnone : worktree.get r = none := by simpa using hfile
    exact (isDir_eq_false_iff hnone).mp (by simpa using hdir) p hrp
  · rfl

/-- Only a path below a file can not be removed. -/
lemma removePath_error_iff :
    (∃ error, removePath worktree r = .error error) ↔
      (∃ q, q <+: r ∧ (worktree.get q).isSome) ∧ ∀ p, r <+: p → worktree.get p = none := by
  unfold removePath symlinkMetadata
  by_cases hfile : (worktree.get r).isSome = true
  · rw [if_pos hfile]
    refine iff_of_false (fun ⟨_, h⟩ => nomatch h) fun ⟨_, habsent⟩ => ?_
    rw [habsent r (List.prefix_refl r)] at hfile
    cases hfile
  rw [if_neg hfile]
  have hnone : worktree.get r = none := by simpa using hfile
  rw [← isDir_eq_false_iff hnone, ← belowFile_iff]
  cases worktree.isDir r <;> cases worktree.belowFile r <;> simp

/-- Nothing changes but at and below the paths, where files can only go. -/
lemma get_removePaths (worktree : Files Text Content) (rs : List RelPath) (p : RelPath) :
    (removePaths worktree rs).1.get p = worktree.get p ∨
      (removePaths worktree rs).1.get p = none ∧ ∃ r ∈ rs, r <+: p := by
  induction rs generalizing worktree with
  | nil => exact .inl rfl
  | cons r rs ih =>
    unfold removePaths
    cases hremove : removePath worktree r with
    | error error => exact .inl rfl
    | ok next =>
      have hnext := get_of_removePath hremove p
      split at hnext
      · rename_i hrp
        rcases ih next with h | ⟨h, -⟩
        · exact .inr ⟨h.trans hnext, r, List.mem_cons_self, hrp⟩
        · exact .inr ⟨h, r, List.mem_cons_self, hrp⟩
      · rcases ih next with h | ⟨h, r', hr', hrp⟩
        · exact .inl (h.trans hnext)
        · exact .inr ⟨h, r', List.mem_cons_of_mem r hr', hrp⟩

lemma get_removePaths_of_ok (h : (removePaths worktree rs).2 = .ok ()) {p : RelPath} (hr : r ∈ rs)
    (hrp : r <+: p) : (removePaths worktree rs).1.get p = none := by
  induction rs generalizing worktree with
  | nil => cases hr
  | cons r' rs ih =>
    unfold removePaths at h ⊢
    cases hremove : removePath worktree r' with
    | error error =>
      rw [hremove] at h
      cases h
    | ok next =>
      rw [hremove] at h
      rcases List.mem_cons.mp hr with rfl | hr
      · have hnext := get_of_removePath hremove p
        rw [if_pos hrp] at hnext
        rcases get_removePaths next rs p with hp | ⟨hp, -⟩
        · exact hp.trans hnext
        · exact hp
      · exact ih h hr

/-- The first error comes from a path below a file that was there from the start. -/
lemma exists_file_of_removePaths (h : (removePaths worktree rs).2 ≠ .ok ()) :
    ∃ r ∈ rs, ∃ q, q <+: r ∧ q ≠ r ∧ (worktree.get q).isSome := by
  induction rs generalizing worktree with
  | nil => exact absurd rfl h
  | cons r rs ih =>
    unfold removePaths at h
    cases hremove : removePath worktree r with
    | error error =>
      obtain ⟨⟨q, hq, hfile⟩, habsent⟩ := removePath_error_iff.mp ⟨error, hremove⟩
      refine ⟨r, List.mem_cons_self, q, hq, fun heq => ?_, hfile⟩
      rw [habsent q (heq ▸ List.prefix_refl q)] at hfile
      cases hfile
    | ok next =>
      rw [hremove] at h
      obtain ⟨r', hr', q, hq, hne, hfile⟩ := ih h
      refine ⟨r', List.mem_cons_of_mem r hr', q, hq, hne, ?_⟩
      rw [get_of_removePath hremove] at hfile
      split at hfile
      · cases hfile
      · exact hfile

/-- A path below a file that stays is never passed without an error. -/
lemma removePaths_ne_ok (hr : r ∈ rs) (hq : q <+: r) (hfile : (worktree.get q).isSome)
    (hstays : ∀ r' ∈ rs, ¬r' <+: q) (habsent : ∀ p, r <+: p → worktree.get p = none) :
    (removePaths worktree rs).2 ≠ .ok () := by
  induction rs generalizing worktree with
  | nil => cases hr
  | cons r' rs ih =>
    unfold removePaths
    cases hremove : removePath worktree r' with
    | error error => exact fun h => nomatch h
    | ok next =>
      rcases List.mem_cons.mp hr with rfl | hr
      · obtain ⟨error, herror⟩ := removePath_error_iff.mpr ⟨⟨q, hq, hfile⟩, habsent⟩
        rw [herror] at hremove
        cases hremove
      · have hnext := get_of_removePath hremove
        refine ih hr ?_ (fun r'' hr'' => hstays r'' (List.mem_cons_of_mem r' hr'')) fun p hp => ?_
        · rwa [hnext, if_neg (hstays r' List.mem_cons_self)]
        · rw [hnext, habsent p hp]
          split <;> rfl

end Removing

/-! ## Undo -/

/-- A path that undo removes. -/
def Removed (config : GhostSnapshotConfig) (snapshot current : Repo) (p : RelPath) : Prop :=
  current.IsUntracked p ∧ shouldIgnoreForSnapshot p = false ∧
    oversize current.worktree config [] p = none ∧ ¬ current.InLargeDir config p ∧
    ¬ snapshot.IsUntracked p ∧ ¬ snapshot.InLargeDir config p

lemma oversize_eq_none {repo : Repo} {config : GhostSnapshotConfig} {p : RelPath}
    (h : ¬ repo.IsOversize config p) : oversize repo.worktree config [] p = none := by
  unfold oversize untrackedFileSize
  split
  · rename_i threshold byteSize hthreshold hsize
    obtain ⟨content, hcontent, rfl⟩ := Option.map_eq_some_iff.mp hsize
    rw [if_neg]
    rintro ⟨hpos, -, hlarge⟩
    exact h ⟨threshold, content, hthreshold, hpos, hcontent, by omega⟩
  · rfl

section Restore

variable {options : CreateGhostCommitOptions} {snapshot current : Repo}
  {entries entries' : List StatusEntry} {commit : GhostCommit}
  (h : snapshot.Lists entries) (h' : current.Lists entries')
  (hcommit : createGhostCommit options snapshot (statusOutput entries) = .ok commit)

include h h' hcommit

/-- Undo removes paths from the restored work tree. -/
lemma restore_eq :
    ∃ rs, (∀ r, r ∈ rs ↔ Removed options.ghostSnapshot snapshot current r) ∧
      restoreGhostCommitWithOptions options.ghostSnapshot current (statusOutput entries') commit =
        removePaths (gitRestore current commit.tree) rs := by
  unfold restoreGhostCommitWithOptions captureExistingUntracked
  rw [h'.capture]
  refine ⟨_, fun r => ?_, rfl⟩
  have hpreserve : shouldPreserve r commit.preexistingUntrackedFiles
      commit.preexistingUntrackedDirs = false ↔
      ¬ ((snapshot.IsUntracked r ∧ shouldIgnoreForSnapshot r = false) ∨
        snapshot.InLargeDir options.ghostSnapshot r) := by
    rw [Bool.eq_false_iff, Ne, shouldPreserve_iff h hcommit]
  rw [(dropLargeDirs_scanOf _ _ _ _ _).2.2.1, List.append_nil, List.mem_filter, mem_files_iff,
    h'.mem_seen, h'.below_largeDirs_iff, Bool.not_eq_true', hpreserve]
  unfold Removed
  tauto

omit h' in
/-- The files of a snapshot lie apart. -/
lemma separate_tree : commit.tree.Separate := by
  intro p q hp hq
  obtain ⟨c, hc⟩ := Option.isSome_iff_exists.mp hp
  obtain ⟨c', hc'⟩ := Option.isSome_iff_exists.mp hq
  exact snapshot.separate p q (Option.isSome_of_eq_some (tree_eq_worktree h hcommit hc))
    (Option.isSome_of_eq_some (tree_eq_worktree h hcommit hc'))

omit h h' hcommit in
/-- A restored file is one of the tree or of the work tree, and no file of the tree lies above it. -/
lemma of_get_gitRestore {p : RelPath} (hp : ((gitRestore current commit.tree).get p).isSome) :
    (commit.tree.get p).isSome ∨
      (current.worktree.get p).isSome ∧ ∀ q, (commit.tree.get q).isSome → ¬q <+: p := by
  cases htree : commit.tree.get p with
  | some c => exact .inl rfl
  | none =>
    obtain ⟨hkeep, hapart⟩ := apart_of_get_write hp htree
    rw [get_keep] at hkeep
    split at hkeep
    · exact .inr ⟨hkeep, hapart⟩
    · cases hkeep

end Restore

/-- A repository with two tracked files, an ignored file, a large one and an untracked one. -/
def repoThen : Repo where
  worktree := [(["a".toList], [1]), (["d".toList, "x".toList], [1]), (["i".toList], [1]),
    (["big".toList], [1, 2, 3]), (["u".toList], [1])]
  index := [(["a".toList], [1]), (["d".toList, "x".toList], [1])]
  head := [(["a".toList], [1]), (["d".toList, "x".toList], [1])]
  ignored := fun p => p = ["i".toList]
  valid := by decide
  separate := Files.separate_of_paths (by decide)

/-- Later: `a` is not tracked any more, `d` is a file, nothing is ignored, `big` is staged, `n` is new,
and `new` is a new large file. -/
def repoNow : Repo where
  worktree := [(["a".toList], [1]), (["d".toList], [2]), (["i".toList], [1]),
    (["big".toList], [1, 2, 3]), (["u".toList], [4]), (["n".toList], [5]),
    (["new".toList], [1, 2, 3])]
  index := [(["d".toList, "x".toList], [1]), (["big".toList], [1, 2, 3])]
  head := [(["a".toList], [1]), (["d".toList, "x".toList], [1])]
  ignored := fun _ => false
  valid := by decide
  separate := Files.separate_of_paths (by decide)

/-- Files of more than two bytes are large. -/
def smallFiles : CreateGhostCommitOptions := ⟨[], ⟨some 2, none⟩⟩

/-- The snapshot of the first repository. -/
def commitThen : GhostCommit :=
  ⟨[(["a".toList], [1]), (["d".toList, "x".toList], [1]), (["u".toList], [1])],
    [["u".toList], ["big".toList]], []⟩

lemma createGhostCommit_repoThen :
    createGhostCommit smallFiles repoThen (statusOutput repoThen.listing) = .ok commitThen := by
  decide +kernel

lemma restoreGhostCommit_repoNow :
    restoreGhostCommitWithOptions smallFiles.ghostSnapshot repoNow (statusOutput repoNow.listing)
        commitThen = ([(["u".toList], [1]), (["new".toList], [1, 2, 3])], .ok ()) := by
  decide +kernel

lemma not_inLargeDir_smallFiles (repo : Repo) (p : RelPath) :
    ¬ repo.InLargeDir smallFiles.ghostSnapshot p := by
  rintro ⟨d, ⟨-, threshold, hthreshold, -⟩, -⟩
  cases hthreshold

/-- A snapshot with the file `u`. -/
def repoWithFile : Repo where
  worktree := [(["u".toList], [1])]
  index := [(["u".toList], [1])]
  head := [(["u".toList], [1])]
  ignored := fun _ => false
  valid := by decide
  separate := Files.separate_of_paths (by decide)

/-- Later `u` is a directory, and `z` is new. -/
def repoWithDir : Repo where
  worktree := [(["u".toList, "v".toList], [2]), (["z".toList], [3])]
  index := [(["u".toList], [1])]
  head := [(["u".toList], [1])]
  ignored := fun _ => false
  valid := by decide
  separate := Files.separate_of_paths (by decide)

-- `u` is a file again when `u/v` is looked up, and `z` stays
example : (createGhostCommit smallFiles repoWithFile (statusOutput repoWithFile.listing)).map
      (restoreGhostCommitWithOptions smallFiles.ghostSnapshot repoWithDir
        (statusOutput repoWithDir.listing)) =
    .ok ([(["u".toList], [1]), (["z".toList], [3])], .error (.io .notADirectory)) := by
  decide +kernel

end Supercodex.GhostCommits
