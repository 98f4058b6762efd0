import Supercodex.Permissions.LegacyTheorems

/-!
# Legacy policies converted and converted back

What a converted policy says comes back with the roots in their place. The protected paths that the
first conversion added do not: they come back as readable roots, in front of the roots.
-/

namespace Supercodex.Permissions

open Supercodex.Path FirstOccurrences FileSystemAccessMode WorkspaceWrite FirstOccurrences
open FileSystemSandboxPolicy

/-! ## Policies that deny nothing -/

section NoDenials

open FileSystemSandboxPolicy

variable {policy : FileSystemSandboxPolicy} {env : Env} {cwd : AbsolutePath}
  (hkind : policy.kind = .restricted) (hallow : ∀ entry ∈ policy.entries, entry.access ≠ .none)
include hallow

lemma mode_ne_none {e : ResolvedFileSystemEntry} (he : e ∈ policy.resolvedEntriesWithCwd env cwd) :
    e.mode ≠ .none := by
  obtain ⟨entry, hentry, heq⟩ := List.mem_filterMap.mp he
  obtain ⟨path, -, rfl⟩ := Option.map_eq_some_iff.mp heq
  exact hallow entry hentry

lemma hasDeniedReadRestrictions_eq_false : policy.hasDeniedReadRestrictions = false := by
  unfold hasDeniedReadRestrictions
  rw [Bool.and_eq_false_iff, List.any_eq_false]
  right
  intro entry hentry
  simpa using hallow entry hentry

lemma unreadableGlobs_eq_nil : getUnreadableGlobsWithCwd env cwd policy = [] := by
  have hnone : policy.entries.filter (·.access = .none) = [] := by
    rw [List.filter_eq_nil_iff]
    intro entry hentry
    simpa using hallow entry hentry
  unfold getUnreadableGlobsWithCwd
  rw [hnone]
  split <;> rfl

lemma unreadableRoots_eq_nil : policy.getUnreadableRootsWithCwd env cwd = [] := by
  have hnone : ((policy.resolvedEntriesWithCwd env cwd).filter fun entry =>
      entry.mode = .none && !policy.canReadPathWithCwd env cwd entry.path &&
        entry.path ≠ []) = [] := by
    rw [List.filter_eq_nil_iff]
    intro e he
    simp [mode_ne_none hallow he]
  unfold getUnreadableRootsWithCwd
  rw [hnone]
  split <;> rfl

include hkind

lemma readableRoots_eq (hfull : policy.hasFullDiskReadAccess = false) :
    policy.getReadableRootsWithCwd env cwd =
      firstOccurrences ((policy.resolvedEntriesWithCwd env cwd).map (·.path)) := by
  have hall : ((policy.resolvedEntriesWithCwd env cwd).filter fun entry =>
      entry.mode.canRead && policy.canReadPathWithCwd env cwd entry.path) =
        policy.resolvedEntriesWithCwd env cwd := by
    rw [List.filter_eq_self]
    intro e he
    obtain ⟨best, -, hd⟩ := PathRule.exists_decides he (List.prefix_refl e.path)
    have hread : policy.canReadPathWithCwd env cwd e.path = true := by
      unfold canReadPathWithCwd
      rw [resolveAccess_of_decides hkind hd, canRead_iff]
      exact mode_ne_none hallow hd.mem
    rw [hread, Bool.and_true, canRead_iff]
    exact mode_ne_none hallow he
  unfold getReadableRootsWithCwd
  rw [hfull, if_neg (by simp), hall, dedupAbsolutePaths_eq]

end NoDenials

namespace WorkspaceWrite

open FileSystemSandboxPolicy SandboxPolicy

variable (l : WorkspaceWrite) (env : Env) (cwd : AbsolutePath)

/-! ## Entries by kind -/

/-- The special read entries. -/
def specialReads : List FileSystemSandboxEntry :=
  match l.readOnlyAccess with
  | .fullAccess => [specialEntry .root .read]
  | .restricted includePlatformDefaults _ =>
    if includePlatformDefaults then [specialEntry .minimal .read] else []

/-- The special write entries. -/
def specialWrites : List FileSystemSandboxEntry :=
  [specialEntry .currentWorkingDirectory .write] ++
    (if l.excludeSlashTmp then [] else [specialEntry .slashTmp .write]) ++
    (if l.excludeTmpdirEnvVar then [] else [specialEntry .tmpdir .write])

lemma writes_eq : l.writes = l.specialWrites ++ l.writableRoots.map (pathEntry .write) := rfl

/-- The readable roots that stay. -/
def readPaths : List AbsolutePath :=
  match l.readOnlyAccess with
  | .fullAccess => []
  | .restricted _ readableRoots => readableRoots.filter (!l.legacyAllows env cwd ·)

/-- Does the policy let read the platform's defaults beside its roots? -/
def platformDefaults : Bool :=
  match l.readOnlyAccess with
  | .fullAccess => false
  | .restricted includePlatformDefaults _ => includePlatformDefaults

lemma keptReads_eq :
    l.keptReads env cwd = l.specialReads ++ (l.readPaths env cwd).map (pathEntry .read) := by
  unfold keptReads specialReads readPaths
  cases l.readOnlyAccess with
  | fullAccess => rfl
  | restricted includePlatformDefaults readableRoots =>
    dsimp only [readEntries]
    rw [List.nil_append, List.filter_append, List.filter_map]
    cases includePlatformDefaults <;> rfl

lemma hasPathEntry_kept (path : AbsolutePath) :
    hasPathEntry (l.keptReads env cwd ++ l.writes) path =
      decide (path ∈ l.readPaths env cwd ∨ path ∈ l.writableRoots) := by
  have hspecial : hasPathEntry l.specialReads path = false := by
    unfold specialReads
    cases l.readOnlyAccess with
    | fullAccess => rfl
    | restricted includePlatformDefaults _ => cases includePlatformDefaults <;> rfl
  have hwrites : hasPathEntry l.specialWrites path = false := by
    unfold specialWrites
    cases l.excludeSlashTmp <;> cases l.excludeTmpdirEnvVar <;> rfl
  have happend (xs ys : List FileSystemSandboxEntry) :
      hasPathEntry (xs ++ ys) path = (hasPathEntry xs path || hasPathEntry ys path) :=
    List.any_append
  rw [happend, keptReads_eq, hasPathEntry_append_map, hspecial, writes_eq,
    hasPathEntry_append_map, hwrites, Bool.false_or, Bool.false_or, Bool.decide_or]

lemma added_eq :
    l.added env cwd = (firstOccurrences (protectedPaths env cwd l.writableRoots)).filter
      fun path => path ∉ l.readPaths env cwd ∧ path ∉ l.writableRoots := by
  unfold added addedPaths
  rw [dedupAbsolutePaths_eq]
  apply List.filter_congr
  intro path _
  rw [hasPathEntry_kept, Bool.decide_or, Bool.not_or, ← decide_not, ← decide_not, Bool.decide_and]

lemma nodup_added : (l.added env cwd).Nodup := by
  rw [added_eq]
  exact (nodup _).filter _

/-! ## The signature of a converted policy -/

lemma access_ne_none : ∀ entry ∈ (l.split env cwd).entries, entry.access ≠ .none := by
  intro entry h
  rw [split_entries, List.mem_append, List.mem_append] at h
  rcases h with (h | h) | h
  · simp [access_of_mem_readEntries (by simp) (List.mem_of_mem_filter h)]
  · simp [(l.of_mem_writes h).1]
  · obtain ⟨path, -, rfl⟩ := List.mem_map.mp h
    simp [pathEntry]

lemma any_special_split {value : FileSystemSpecialPath}
    (hvalue : value = .root ∨ value = .minimal) :
    ((l.split env cwd).entries.any fun entry =>
      entry.path = .special value && entry.access.canRead) =
        l.specialReads.any fun entry => entry.path = .special value := by
  rw [Bool.eq_iff_iff, List.any_eq_true, List.any_eq_true]
  simp only [Bool.and_eq_true, decide_eq_true_eq]
  constructor
  · rintro ⟨entry, hentry, hpath, -⟩
    rw [split_entries, keptReads_eq, List.mem_append, List.mem_append, List.mem_append] at hentry
    rcases hentry with ((h | h) | h) | h
    · exact ⟨entry, h, hpath⟩
    · obtain ⟨path, -, rfl⟩ := List.mem_map.mp h
      cases hpath
    · obtain ⟨-, hroot, hminimal⟩ := l.of_mem_writes h
      rcases hvalue with rfl | rfl
      · exact absurd hpath hroot
      · exact absurd hpath hminimal
    · obtain ⟨path, -, rfl⟩ := List.mem_map.mp h
      cases hpath
  · rintro ⟨entry, hentry, hpath⟩
    have hmem : entry ∈ (l.split env cwd).entries := by
      rw [split_entries, keptReads_eq]
      simp [hentry]
    exact ⟨entry, hmem, hpath,
      (canRead_iff _).mpr (access_ne_none l env cwd entry hmem)⟩

lemma hasFullDiskReadAccess_split :
    (l.split env cwd).hasFullDiskReadAccess = decide (l.readOnlyAccess = .fullAccess) := by
  unfold hasFullDiskReadAccess hasRootAccess
  rw [split_kind, hasDeniedReadRestrictions_eq_false (access_ne_none l env cwd),
    any_special_split l env cwd (.inl rfl), specialReads]
  cases l.readOnlyAccess with
  | fullAccess => rfl
  | restricted includePlatformDefaults _ => cases includePlatformDefaults <;> rfl

lemma includePlatformDefaults_split :
    (l.split env cwd).includePlatformDefaults = l.platformDefaults := by
  unfold includePlatformDefaults
  rw [hasFullDiskReadAccess_split, split_kind, any_special_split l env cwd (.inr rfl), specialReads,
    platformDefaults]
  cases l.readOnlyAccess with
  | fullAccess => rfl
  | restricted includePlatformDefaults _ => cases includePlatformDefaults <;> rfl

/-- The paths with an entry: what may be read, the roots, and the added protected paths. -/
def entered : List AbsolutePath :=
  l.readRoots env cwd ++ (l.splitRoots env cwd ++ l.added env cwd)

variable {path : AbsolutePath}

lemma mem_entered : path ∈ l.entered env cwd ↔ l.Entered env cwd path := by
  rw [entered, List.mem_append, List.mem_append, mem_splitRoots, Entered]
  tauto

lemma map_path_rule (access : FileSystemAccessMode) (paths : List AbsolutePath) :
    (paths.map (rule access)).map (·.path) = paths := by
  rw [List.map_map]
  exact List.map_id paths

lemma readableRoots_split (h : l.readOnlyAccess ≠ .fullAccess) :
    (l.split env cwd).getReadableRootsWithCwd env cwd = firstOccurrences (l.entered env cwd) := by
  have hrestricted : (l.split env cwd).hasFullDiskReadAccess = false := by
    rw [hasFullDiskReadAccess_split, decide_eq_false h]
  rw [readableRoots_eq (split_kind l env cwd) (access_ne_none l env cwd) hrestricted,
    resolvedEntries_split, List.map_append, List.map_append, map_path_rule, map_path_rule,
    map_path_rule, entered, List.append_assoc]

lemma filter_rule (access : FileSystemAccessMode) (paths : List AbsolutePath)
    (p : ResolvedFileSystemEntry → Bool) :
    ((paths.map (rule access)).filter p).map (·.path) =
      paths.filter fun path => p (rule access path) := by
  rw [List.filter_map, map_path_rule]
  rfl

/-- Is an entry carved out of a root? -/
def carved (root path : AbsolutePath) : Bool :=
  path ∉ l.roots env cwd && (path ≠ root && root.isPrefixOf path)

lemma carved_root {root path : AbsolutePath} (h : path ∈ l.roots env cwd) :
    l.carved env cwd root path = false := by
  unfold carved
  simp [h]

lemma explicitCarveouts_split (root : AbsolutePath) :
    (l.split env cwd).explicitCarveouts env cwd root =
      (l.readRoots env cwd ++ l.added env cwd).filter (l.carved env cwd root) := by
  have hread {paths : List AbsolutePath} (h : ∀ path ∈ paths, l.Entered env cwd path) :
      paths.filter (fun path => !(rule .read path).mode.canWrite &&
        !(l.split env cwd).canWritePathWithCwd env cwd (rule .read path).path &&
          ((rule .read path).path ≠ root && root.isPrefixOf (rule .read path).path)) =
        paths.filter (l.carved env cwd root) := by
    apply List.filter_congr
    intro path hpath
    have hwrite := canWritePath_entered l env cwd (h path hpath)
    rw [Bool.eq_iff_iff]
    simp [rule, carved, canWrite, ← Bool.not_eq_true, hwrite]
    exact fun _ _ => decide_eq_true_iff
  unfold explicitCarveouts
  rw [resolvedEntries_split, List.filter_append, List.filter_append, List.map_append,
    List.map_append, filter_rule, filter_rule, filter_rule, List.filter_append]
  have hwrites : (l.splitRoots env cwd).filter (fun path =>
      !(rule .write path).mode.canWrite &&
        !(l.split env cwd).canWritePathWithCwd env cwd (rule .write path).path &&
          ((rule .write path).path ≠ root && root.isPrefixOf (rule .write path).path)) = [] := by
    rw [List.filter_eq_nil_iff]
    intro path _
    simp [rule, canWrite]
  rw [hwrites, List.append_nil, hread fun path h => .inl h, hread fun path h => .inr (.inl h)]

lemma defaultCarveouts_split (root : AbsolutePath) :
    (l.split env cwd).defaultCarveouts env cwd root =
      (protects env cwd root).filter (· ∉ l.entered env cwd) := by
  unfold defaultCarveouts protects
  apply List.filter_congr
  intro path _
  rw [Bool.eq_iff_iff, decide_eq_true_eq, mem_entered, entered_iff]
  simp

lemma writableRoots_split :
    (l.split env cwd).getWritableRootsWithCwd env cwd =
      (firstOccurrences (l.splitRoots env cwd)).map fun root => ⟨root, firstOccurrences
        ((protects env cwd root).filter (· ∉ l.entered env cwd) ++
          (l.readRoots env cwd ++ l.added env cwd).filter (l.carved env cwd root))⟩ := by
  have hread (paths : List AbsolutePath) :
      paths.filter (fun path => (rule .read path).mode.canWrite &&
        (l.split env cwd).canWritePathWithCwd env cwd (rule .read path).path) = [] := by
    rw [List.filter_eq_nil_iff]
    intro path _
    simp [rule, canWrite]
  have hwrite : (l.splitRoots env cwd).filter (fun path => (rule .write path).mode.canWrite &&
      (l.split env cwd).canWritePathWithCwd env cwd (rule .write path).path) =
        l.splitRoots env cwd := by
    rw [List.filter_eq_self]
    intro path hpath
    have hroot := (mem_splitRoots l env cwd).mp hpath
    exact (canWritePath_entered l env cwd (.inr (.inr hroot))).mpr hroot
  unfold FileSystemSandboxPolicy.getWritableRootsWithCwd
  rw [hasFullDiskWriteAccess_split, if_neg (by simp), resolvedEntries_split, List.filter_append,
    List.filter_append, List.map_append, List.map_append, filter_rule, filter_rule, filter_rule,
    hread, hread, hwrite, List.nil_append, List.append_nil, dedupAbsolutePaths_eq]
  apply List.map_congr_left
  intro root _
  rw [dedupAbsolutePaths_eq, explicitCarveouts_split, defaultCarveouts_split]

lemma semanticSignature_split :
    (l.split env cwd).semanticSignature env cwd =
      ⟨l.readOnlyAccess = .fullAccess, false, l.platformDefaults,
        if l.readOnlyAccess = .fullAccess then [] else firstOccurrences (l.entered env cwd),
        (l.split env cwd).getWritableRootsWithCwd env cwd, [], []⟩ := by
  have hreadable : (l.split env cwd).getReadableRootsWithCwd env cwd =
      if l.readOnlyAccess = .fullAccess then [] else firstOccurrences (l.entered env cwd) := by
    split
    · rename_i hfull
      unfold getReadableRootsWithCwd
      rw [hasFullDiskReadAccess_split, decide_eq_true hfull, if_pos rfl]
    · rename_i hrestricted
      exact readableRoots_split l env cwd hrestricted
  unfold semanticSignature
  rw [hasFullDiskReadAccess_split, hasFullDiskWriteAccess_split, includePlatformDefaults_split,
    hreadable, unreadableRoots_eq_nil (access_ne_none l env cwd),
    unreadableGlobs_eq_nil (access_ne_none l env cwd)]

/-! ## The way back -/

/-- The legacy policy that a converted policy comes back as. -/
def back : WorkspaceWrite where
  writableRoots := firstOccurrences (l.writableRoots.filter (· ≠ cwd))
  readOnlyAccess :=
    match l.readOnlyAccess with
    | .fullAccess => .fullAccess
    | .restricted includePlatformDefaults _ =>
      .restricted includePlatformDefaults
        (firstOccurrences (l.readPaths env cwd ++ l.added env cwd))
  networkAccess := l.networkAccess
  excludeTmpdirEnvVar := l.excludeTmpdirEnvVar
  excludeSlashTmp := l.excludeSlashTmp

lemma foldl_step_read (full : Bool) (paths : List AbsolutePath) (b : Bridge) :
    (paths.map (pathEntry .read)).foldl (Bridge.step env cwd full) b =
      { b with readableRoots := b.readableRoots ++ paths } := by
  induction paths generalizing b with
  | nil => simp
  | cons path paths ih =>
    rw [List.map_cons, List.foldl_cons, ih]
    simp [Bridge.step, pathEntry, Bridge.addReadable, canWrite,
      canRead]

lemma foldl_step_write (full : Bool) (paths : List AbsolutePath) {b : Bridge}
    (hb : b.workspaceRootWritable = true) :
    (paths.map (pathEntry .write)).foldl (Bridge.step env cwd full) b =
      { b with writableRoots := b.writableRoots ++ paths.filter (· ≠ cwd) } := by
  induction paths generalizing b with
  | nil => simp
  | cons path paths ih =>
    rw [List.map_cons, List.foldl_cons]
    by_cases hcwd : cwd = path
    · have hstep : Bridge.step env cwd full b (pathEntry .write path) = b := by
        simp [Bridge.step, pathEntry, canWrite, hcwd, ← hb]
      rw [hstep, ih hb, List.filter_cons_of_neg (by simp [hcwd])]
    · have hstep : Bridge.step env cwd full b (pathEntry .write path) =
          { b with writableRoots := b.writableRoots ++ [path] } := by
        simp [Bridge.step, pathEntry, canWrite, hcwd]
      rw [hstep, ih (b := { b with writableRoots := b.writableRoots ++ [path] }) hb,
        List.filter_cons_of_pos (by simpa using Ne.symm hcwd)]
      simp

/-- What the loop over the entries of a converted policy collects. -/
lemma foldl_step_split :
    (l.split env cwd).entries.foldl
        (Bridge.step env cwd (decide (l.readOnlyAccess = .fullAccess))) {} =
      { includePlatformDefaults := l.platformDefaults
        workspaceRootWritable := true
        writableRoots := l.writableRoots.filter (· ≠ cwd)
        readableRoots := l.readPaths env cwd ++ l.added env cwd
        tmpdirWritable := !l.excludeTmpdirEnvVar
        slashTmpWritable := !l.excludeSlashTmp
        unbridgeableRootWrite := false } := by
  have hspecial : l.specialReads.foldl
      (Bridge.step env cwd (decide (l.readOnlyAccess = .fullAccess))) {} =
        { includePlatformDefaults := l.platformDefaults } := by
    unfold specialReads platformDefaults
    cases l.readOnlyAccess with
    | fullAccess => rfl
    | restricted includePlatformDefaults _ => cases includePlatformDefaults <;> rfl
  have hwrites (full : Bool) (b : Bridge) (htmpdir : b.tmpdirWritable = false)
      (hslash : b.slashTmpWritable = false) :
      l.specialWrites.foldl (Bridge.step env cwd full) b =
        { b with
          workspaceRootWritable := true
          tmpdirWritable := !l.excludeTmpdirEnvVar
          slashTmpWritable := !l.excludeSlashTmp } := by
    cases b
    cases htmpdir
    cases hslash
    unfold specialWrites
    cases l.excludeSlashTmp <;> cases l.excludeTmpdirEnvVar <;> rfl
  rw [split_entries, List.foldl_append, List.foldl_append, keptReads_eq, List.foldl_append,
    hspecial, foldl_step_read env cwd _ (l.readPaths env cwd), writes_eq, List.foldl_append,
    hwrites _ _ rfl rfl, foldl_step_write _ _ _ _ rfl, foldl_step_read]
  simp

lemma toLegacySandboxPolicy_split :
    (l.split env cwd).toLegacySandboxPolicy env l.policy.networkSandboxPolicy cwd =
      .ok (l.back env cwd).policy := by
  have hnetwork : l.policy.networkSandboxPolicy.isEnabled = l.networkAccess := by
    unfold SandboxPolicy.networkSandboxPolicy policy SandboxPolicy.hasFullNetworkAccess
    cases l.networkAccess <;> rfl
  unfold toLegacySandboxPolicy
  rw [split_kind]
  dsimp only
  rw [hasFullDiskReadAccess_split, foldl_step_split, hasFullDiskWriteAccess_split, hnetwork]
  simp only [Bool.false_eq_true, if_false, if_true, dedupAbsolutePaths_eq, Bool.not_not,
    decide_eq_true_eq]
  unfold back policy platformDefaults
  cases l.readOnlyAccess with
  | fullAccess | restricted includePlatformDefaults _ => rfl

/-! ## What comes back -/

lemma firstOccurrences_splitRoots_back :
    firstOccurrences ((l.back env cwd).splitRoots env cwd) =
      firstOccurrences (l.splitRoots env cwd) := by
  let temps := slashTmpRoot env l.excludeSlashTmp ++ tmpdirRoot env l.excludeTmpdirEnvVar
  calc firstOccurrences ([cwd] ++ (temps ++ firstOccurrences (l.writableRoots.filter (· ≠ cwd))))
    _ = firstOccurrences ([cwd] ++ (temps ++ l.writableRoots.filter (· ≠ cwd))) :=
      append_right_congr (append_right_congr (idem _))
    _ = firstOccurrences ([cwd] ++ (temps ++ l.writableRoots)) := by
      apply append_congr
      rw [List.filter_append temps, List.filter_append temps, List.filter_filter]
      congr 1
      apply List.filter_congr
      intro path _
      by_cases h : path = cwd <;> simp [h]

lemma mem_roots_back :
    path ∈ (l.back env cwd).roots env cwd ↔ path ∈ l.roots env cwd := by
  rw [← mem_splitRoots, ← mem_splitRoots, ← mem_iff,
    firstOccurrences_splitRoots_back, mem_iff]

lemma legacyAllows_back (path : AbsolutePath) :
    (l.back env cwd).legacyAllows env cwd path = l.legacyAllows env cwd path := by
  rw [Bool.eq_iff_iff, legacyAllows_iff, legacyAllows_iff]
  simp only [mem_roots_back]

lemma carved_back (root : AbsolutePath) :
    (l.back env cwd).carved env cwd root = l.carved env cwd root := by
  funext path
  unfold carved
  simp only [mem_roots_back]

/-- Protecting a missing `.codex` only adds to what is protected. -/
lemma mem_protected_of_false {root path : AbsolutePath} {protectMissingDotCodex : Bool}
    (h : path ∈ defaultReadOnlySubpathsForWritableRoot env root false) :
    path ∈ defaultReadOnlySubpathsForWritableRoot env root protectMissingDotCodex := by
  unfold defaultReadOnlySubpathsForWritableRoot at h ⊢
  simp only [mem_dedupAbsolutePaths, List.mem_append] at h ⊢
  refine h.imp_right fun hcodex => ?_
  split at hcodex
  · rename_i hdir
    rw [Bool.false_or] at hdir
    rw [hdir, Bool.or_true, if_pos rfl]
    exact hcodex
  · cases hcodex

lemma firstOccurrences_protectedPaths_back :
    firstOccurrences (protectedPaths env cwd (l.back env cwd).writableRoots) =
      firstOccurrences (protectedPaths env cwd l.writableRoots) := by
  let workspace := defaultReadOnlySubpathsForWritableRoot env cwd true
  let protect := fun root => defaultReadOnlySubpathsForWritableRoot env root false
  have hskip (paths : List AbsolutePath) :
      ((paths.filter (· ≠ cwd)).flatMap protect).filter (· ∉ workspace) =
        (paths.flatMap protect).filter (· ∉ workspace) := by
    induction paths with
    | nil => rfl
    | cons path paths ih =>
      rw [List.flatMap_cons, List.filter_append, ← ih]
      by_cases hcwd : path = cwd
      · have hnone : (protect path).filter (· ∉ workspace) = [] := by
          rw [List.filter_eq_nil_iff]
          intro d hd
          have : d ∈ workspace := mem_protected_of_false env (hcwd ▸ hd)
          simpa using this
        rw [List.filter_cons_of_neg (by simp [hcwd]), hnone, List.nil_append]
      · rw [List.filter_cons_of_pos (by simpa using hcwd), List.flatMap_cons, List.filter_append]
  calc firstOccurrences (workspace ++
        (firstOccurrences (l.writableRoots.filter (· ≠ cwd))).flatMap protect)
    _ = firstOccurrences (workspace ++ (l.writableRoots.filter (· ≠ cwd)).flatMap protect) :=
      append_right_congr (flatMap_eq _)
    _ = firstOccurrences (workspace ++ l.writableRoots.flatMap protect) :=
      append_congr (hskip l.writableRoots)

/-- The added protected paths that the legacy policy does not let write: these come back as
readable roots. -/
def denied : List AbsolutePath :=
  match l.readOnlyAccess with
  | .fullAccess => []
  | .restricted _ _ => (l.added env cwd).filter (!l.legacyAllows env cwd ·)

lemma mem_added_of_denied (h : path ∈ l.denied env cwd) :
    path ∈ l.added env cwd := by
  unfold denied at h
  split at h
  · cases h
  · exact List.mem_of_mem_filter h

lemma nodup_denied : (l.denied env cwd).Nodup := by
  unfold denied
  split
  · exact List.nodup_nil
  · exact (l.nodup_added env cwd).filter _

lemma readPaths_back :
    (l.back env cwd).readPaths env cwd =
      firstOccurrences (l.readPaths env cwd ++ l.denied env cwd) := by
  have hallows : (fun path => !(l.back env cwd).legacyAllows env cwd path) =
      fun path => !l.legacyAllows env cwd path := by
    funext path
    rw [legacyAllows_back]
  conv_lhs => unfold readPaths
  rw [hallows]
  unfold back denied readPaths
  cases l.readOnlyAccess with
  | fullAccess => rfl
  | restricted includePlatformDefaults readableRoots =>
    dsimp only
    rw [← filter_eq, List.filter_append, List.filter_filter]
    simp only [Bool.and_self]

lemma readRoots_eq :
    l.readRoots env cwd =
      if l.readOnlyAccess = .fullAccess then [[]] else l.readPaths env cwd := by
  unfold readRoots readPaths
  cases l.readOnlyAccess <;> rfl

lemma fullAccess_back :
    (l.back env cwd).readOnlyAccess = .fullAccess ↔ l.readOnlyAccess = .fullAccess := by
  unfold back
  cases l.readOnlyAccess <;> simp

lemma denied_eq_nil (h : l.readOnlyAccess = .fullAccess) : l.denied env cwd = [] := by
  unfold denied
  rw [h]

lemma readRoots_back :
    (l.back env cwd).readRoots env cwd =
      firstOccurrences (l.readRoots env cwd ++ l.denied env cwd) := by
  rw [readRoots_eq, readRoots_eq]
  by_cases hfull : l.readOnlyAccess = .fullAccess
  · rw [if_pos ((l.fullAccess_back env cwd).mpr hfull), if_pos hfull, denied_eq_nil l env cwd hfull]
    rfl
  · rw [if_neg (mt (l.fullAccess_back env cwd).mp hfull), if_neg hfull, readPaths_back]

lemma filter_added_back {p : AbsolutePath → Bool} (hp : p cwd = false) :
    ((l.back env cwd).added env cwd).filter p =
      ((l.added env cwd).filter (· ∉ l.denied env cwd)).filter p := by
  rw [added_eq, added_eq, firstOccurrences_protectedPaths_back, List.filter_filter,
    List.filter_filter, List.filter_filter]
  apply List.filter_congr
  intro path _
  have hroots : path ∈ (l.back env cwd).writableRoots ↔ path ∈ l.writableRoots ∧ path ≠ cwd := by
    show path ∈ firstOccurrences (l.writableRoots.filter (· ≠ cwd)) ↔ _
    rw [mem_iff, List.mem_filter, decide_eq_true_eq]
  have hreads : path ∈ (l.back env cwd).readPaths env cwd ↔
      path ∈ l.readPaths env cwd ∨ path ∈ l.denied env cwd := by
    rw [readPaths_back, mem_iff, List.mem_append]
  by_cases hcwd : path = cwd
  · rw [hcwd, hp, Bool.false_and, Bool.false_and, Bool.false_and]
  · rw [Bool.eq_iff_iff]
    simp only [hroots, hreads, Bool.and_eq_true, decide_eq_true_eq]
    tauto

/-! ## Equal signatures -/

lemma firstOccurrences_entered_back :
    firstOccurrences ((l.back env cwd).entered env cwd) =
      firstOccurrences (l.readRoots env cwd ++
        (l.denied env cwd ++ (l.splitRoots env cwd ++ l.added env cwd))) := by
  have hcwd : cwd ∈ l.splitRoots env cwd := List.mem_cons_self
  have hroots : firstOccurrences
      ((l.back env cwd).splitRoots env cwd ++ (l.back env cwd).added env cwd) =
      firstOccurrences (l.splitRoots env cwd ++
        (l.added env cwd).filter (· ∉ l.denied env cwd)) := by
    rw [append_left_congr (firstOccurrences_splitRoots_back l env cwd)]
    exact append_congr (filter_added_back l env cwd (by simpa using hcwd))
  rw [entered, readRoots_back, append_left_congr (idem _), append_right_congr hroots,
    ← List.append_assoc (l.readRoots env cwd)]
  -- the denied paths stand in front already
  apply append_congr
  rw [List.filter_append, List.filter_append, List.filter_filter]
  congr 1
  apply List.filter_congr
  intro path _
  by_cases h : path ∈ l.denied env cwd <;> simp [h]

lemma mem_entered_back :
    path ∈ (l.back env cwd).entered env cwd ↔ path ∈ l.entered env cwd := by
  rw [← mem_iff, firstOccurrences_entered_back, mem_iff, entered]
  simp only [List.mem_append]
  have hadded : path ∈ l.denied env cwd → path ∈ l.added env cwd := l.mem_added_of_denied env cwd
  tauto

lemma firstOccurrences_carved_back (root : AbsolutePath) :
    firstOccurrences (((l.back env cwd).readRoots env cwd ++ (l.back env cwd).added env cwd).filter
        (l.carved env cwd root)) =
      firstOccurrences ((l.readRoots env cwd ++ (l.denied env cwd ++ l.added env cwd)).filter
        (l.carved env cwd root)) := by
  have hcwd : l.carved env cwd root cwd = false :=
    carved_root l env cwd ((mem_splitRoots l env cwd).mp List.mem_cons_self)
  rw [filter_eq, filter_eq, ← List.append_assoc, readRoots_back, append_left_congr (idem _),
    ← filter_eq, ← filter_eq, List.filter_append (l.readRoots env cwd ++ l.denied env cwd),
    List.filter_append (l.readRoots env cwd ++ l.denied env cwd), filter_added_back l env cwd hcwd]
  apply append_congr
  rw [List.filter_filter, List.filter_filter, List.filter_filter]
  apply List.filter_congr
  intro path _
  by_cases hd : path ∈ l.denied env cwd <;> by_cases hc : l.carved env cwd root path = true <;>
    simp [hd, hc]

/-- The denied protected paths lead what the policy names besides its readable roots. -/
def DeniedLead : Prop :=
  l.denied env cwd <+:
    (firstOccurrences (l.splitRoots env cwd ++ l.added env cwd)).filter (· ∉ l.readRoots env cwd)

lemma not_mem_readRoots_of_denied :
    ∀ path ∈ l.denied env cwd, path ∉ l.readRoots env cwd := by
  intro path h
  have hfull : l.readOnlyAccess ≠ .fullAccess := by
    intro hfull
    rw [denied_eq_nil l env cwd hfull] at h
    cases h
  have hadded := l.mem_added_of_denied env cwd h
  rw [added_eq, List.mem_filter, decide_eq_true_eq] at hadded
  rw [readRoots_eq, if_neg hfull]
  exact hadded.2.1

lemma entered_back_eq_iff :
    firstOccurrences (l.entered env cwd) = firstOccurrences ((l.back env cwd).entered env cwd) ↔
      l.DeniedLead env cwd := by
  rw [firstOccurrences_entered_back, entered, eq_comm]
  exact insert_eq_iff (l.nodup_denied env cwd) (l.not_mem_readRoots_of_denied env cwd)

lemma writableRoots_back (h : l.DeniedLead env cwd) :
    (l.split env cwd).getWritableRootsWithCwd env cwd =
      ((l.back env cwd).split env cwd).getWritableRootsWithCwd env cwd := by
  rw [writableRoots_split, writableRoots_split, firstOccurrences_splitRoots_back]
  apply List.map_congr_left
  intro root _
  have hcarved : firstOccurrences ((l.readRoots env cwd ++ l.added env cwd).filter
      (l.carved env cwd root)) =
        firstOccurrences (((l.back env cwd).readRoots env cwd ++
          (l.back env cwd).added env cwd).filter (l.carved env cwd root)) := by
    rw [firstOccurrences_carved_back]
    refine (insert_filter_eq (l.nodup_denied env cwd) (l.not_mem_readRoots_of_denied env cwd) h
      ?_).symm
    intro path hpath
    exact carved_root l env cwd ((mem_splitRoots l env cwd).mp hpath)
  rw [carved_back, append_right_congr hcarved]
  simp only [mem_entered_back]

lemma deniedLead_of_fullAccess (h : l.readOnlyAccess = .fullAccess) : l.DeniedLead env cwd := by
  unfold DeniedLead
  rw [denied_eq_nil l env cwd h]
  exact List.nil_prefix

lemma semanticSignature_back_eq_iff :
    (l.split env cwd).semanticSignature env cwd =
        ((l.back env cwd).split env cwd).semanticSignature env cwd ↔ l.DeniedLead env cwd := by
  have hdefaults : (l.back env cwd).platformDefaults = l.platformDefaults := by
    unfold platformDefaults back
    cases l.readOnlyAccess <;> rfl
  rw [semanticSignature_split, semanticSignature_split, hdefaults]
  by_cases hfull : l.readOnlyAccess = .fullAccess
  · have hlead := deniedLead_of_fullAccess l env cwd hfull
    have hback := (l.fullAccess_back env cwd).mpr hfull
    rw [hfull, hback, writableRoots_back l env cwd hlead]
    simp [hlead]
  · have hback := mt (l.fullAccess_back env cwd).mp hfull
    rw [if_neg hfull, if_neg hback, decide_eq_false hfull, decide_eq_false hback,
      FileSystemSandboxPolicy.SemanticSignature.mk.injEq]
    constructor
    · rintro ⟨-, -, -, hreadable, -⟩
      exact (entered_back_eq_iff l env cwd).mp hreadable
    · intro hlead
      exact ⟨rfl, rfl, rfl, (entered_back_eq_iff l env cwd).mpr hlead,
        writableRoots_back l env cwd hlead, rfl, rfl⟩

lemma needsDirectRuntimeEnforcement_split :
    (l.split env cwd).needsDirectRuntimeEnforcement env l.policy.networkSandboxPolicy cwd = false ↔
      l.DeniedLead env cwd := by
  unfold needsDirectRuntimeEnforcement
  rw [split_kind, toLegacySandboxPolicy_split]
  show (true && decide ((l.split env cwd).semanticSignature env cwd ≠
    ((l.back env cwd).split env cwd).semanticSignature env cwd)) = false ↔ _
  rw [Bool.true_and, decide_eq_false_iff_not, not_not]
  exact semanticSignature_back_eq_iff l env cwd

/-- The condition by what the legacy policy lists: protected paths that it neither lets write nor
lists come first among the roots and the protected paths, readable roots left out. -/
lemma deniedLead_iff {includePlatformDefaults : Bool} {readableRoots : List AbsolutePath}
    (h : l.readOnlyAccess = .restricted includePlatformDefaults readableRoots) :
    l.DeniedLead env cwd ↔
      (firstOccurrences (protectedPaths env cwd l.writableRoots)).filter (fun path =>
          !l.legacyAllows env cwd path && path ∉ readableRoots ++ l.writableRoots) <+:
        (firstOccurrences (l.splitRoots env cwd ++ protectedPaths env cwd l.writableRoots)).filter
          fun path => path ∉ readableRoots || l.legacyAllows env cwd path := by
  have hreads : l.readPaths env cwd = readableRoots.filter (!l.legacyAllows env cwd ·) := by
    unfold readPaths
    rw [h]
  have hroots : l.readRoots env cwd = l.readPaths env cwd := by
    rw [readRoots_eq, if_neg (by simp [h])]
  have hdenied : l.denied env cwd =
      (firstOccurrences (protectedPaths env cwd l.writableRoots)).filter fun path =>
        !l.legacyAllows env cwd path && path ∉ readableRoots ++ l.writableRoots := by
    unfold denied
    rw [h]
    rw [added_eq, hreads, List.filter_filter]
    apply List.filter_congr
    intro path _
    by_cases hallows : l.legacyAllows env cwd path = true <;> simp [hallows]
  have hrest : (firstOccurrences (l.splitRoots env cwd ++ l.added env cwd)).filter
      (· ∉ l.readRoots env cwd) =
        (firstOccurrences (l.splitRoots env cwd ++ protectedPaths env cwd l.writableRoots)).filter
          fun path => path ∉ readableRoots || l.legacyAllows env cwd path := by
    have hkeep : (fun path => path ∉ readableRoots || l.legacyAllows env cwd path) =
        fun path => decide (path ∉ l.readPaths env cwd) := by
      funext path
      rw [hreads]
      by_cases hallows : l.legacyAllows env cwd path = true <;> simp [hallows]
    rw [hkeep, hroots, append_eq, append_eq, List.filter_append, List.filter_append,
      eq_of_nodup (l.nodup_added env cwd), added_eq]
    congr 1
    rw [List.filter_filter, List.filter_filter, List.filter_filter]
    apply List.filter_congr
    intro path _
    have hwritable : path ∈ l.writableRoots → path ∈ l.splitRoots env cwd := by
      intro hmem
      exact List.mem_cons_of_mem _ (List.mem_append_right _ hmem)
    rw [Bool.eq_iff_iff]
    simp only [Bool.and_eq_true, decide_eq_true_eq]
    tauto
  unfold DeniedLead
  rw [hdenied, hrest]

end WorkspaceWrite

/-! ## Read-only policies -/

namespace FileSystemSandboxPolicy

variable (env : Env) (cwd : AbsolutePath)

/-- The converted read-only policy. -/
def readOnly (access : ReadOnlyAccess) : FileSystemSandboxPolicy :=
  restricted (readEntries [specialEntry .currentWorkingDirectory .read] access)

lemma access_readOnly (access : ReadOnlyAccess) :
    ∀ entry ∈ (readOnly access).entries, entry.access = .read :=
  fun _ h => access_of_mem_readEntries (by simp [specialEntry]) h

lemma access_readOnly_ne_none (access : ReadOnlyAccess) :
    ∀ entry ∈ (readOnly access).entries, entry.access ≠ .none := by
  intro entry h
  rw [access_readOnly access entry h]
  decide

section Restricted

variable (defaults : Bool) (roots : List AbsolutePath)

lemma any_readOnly {p : FileSystemSandboxEntry → Bool}
    (hp : ∀ path, p (pathEntry .read path) = false) :
    (readOnly (.restricted defaults roots)).entries.any p =
      (p (specialEntry .currentWorkingDirectory .read) ||
        (defaults && p (specialEntry .minimal .read))) := by
  have hpaths : (roots.map (pathEntry .read)).any p = false := by
    rw [List.any_map, List.any_eq_false]
    intro path _
    simp [hp]
  unfold readOnly restricted readEntries
  rw [List.any_append, hpaths, Bool.or_false, List.any_append]
  cases defaults <;> simp

lemma hasRootAccess_readOnly (predicate : FileSystemAccessMode → Bool) :
    (readOnly (.restricted defaults roots)).hasRootAccess predicate = false := by
  unfold hasRootAccess
  rw [any_readOnly defaults roots fun path => rfl]
  cases defaults <;> rfl

lemma hasFullDiskReadAccess_readOnly :
    (readOnly (.restricted defaults roots)).hasFullDiskReadAccess = false := by
  unfold hasFullDiskReadAccess
  rw [hasRootAccess_readOnly]
  rfl

lemma hasFullDiskWriteAccess_readOnly :
    (readOnly (.restricted defaults roots)).hasFullDiskWriteAccess = false := by
  unfold hasFullDiskWriteAccess
  rw [hasRootAccess_readOnly]
  rfl

lemma resolvedEntries_readOnly :
    (readOnly (.restricted defaults roots)).resolvedEntriesWithCwd env cwd =
      (cwd :: roots).map (rule .read) := by
  show (readOnly (.restricted defaults roots)).entries.filterMap
    (resolveEntry env cwd) = _
  unfold readOnly restricted readEntries
  rw [List.filterMap_append, filterMap_pathEntry]
  cases defaults <;> rfl

lemma semanticSignature_readOnly :
    (readOnly (.restricted defaults roots)).semanticSignature env cwd =
      ⟨false, false, defaults, firstOccurrences (cwd :: roots), [], [], []⟩ := by
  have hdefaults : (readOnly (.restricted defaults roots)).includePlatformDefaults = defaults := by
    unfold includePlatformDefaults
    rw [hasFullDiskReadAccess_readOnly, any_readOnly defaults roots fun path => rfl]
    cases defaults <;> rfl
  have hwritable : (readOnly (.restricted defaults roots)).getWritableRootsWithCwd
      env cwd = [] := by
    unfold getWritableRootsWithCwd
    rw [hasFullDiskWriteAccess_readOnly, if_neg (by simp), resolvedEntries_readOnly, List.filter_map]
    have hnone : (cwd :: roots).filter ((fun entry => entry.mode.canWrite &&
        (readOnly (.restricted defaults roots)).canWritePathWithCwd env cwd
          entry.path) ∘ rule .read) = [] := by
      rw [List.filter_eq_nil_iff]
      intro path _
      simp [rule, canWrite]
    rw [hnone]
    rfl
  have hallow := access_readOnly_ne_none (.restricted defaults roots)
  unfold semanticSignature
  rw [hasFullDiskReadAccess_readOnly, hasFullDiskWriteAccess_readOnly, hdefaults, hwritable,
    readableRoots_eq rfl hallow (hasFullDiskReadAccess_readOnly defaults roots),
    unreadableRoots_eq_nil hallow, unreadableGlobs_eq_nil hallow, resolvedEntries_readOnly,
    map_path_rule]

lemma toLegacySandboxPolicy_readOnly (network : NetworkSandboxPolicy) :
    (readOnly (.restricted defaults roots)).toLegacySandboxPolicy env network cwd =
      .ok (.readOnly (.restricted defaults (firstOccurrences (cwd :: roots)))
        network.isEnabled) := by
  have hfold : (readOnly (.restricted defaults roots)).entries.foldl
      (Bridge.step env cwd false) {} =
        { includePlatformDefaults := defaults
          readableRoots := cwd :: roots } := by
    unfold readOnly restricted readEntries
    rw [List.foldl_append, foldl_step_read]
    cases defaults <;> rfl
  unfold toLegacySandboxPolicy
  rw [show (readOnly (.restricted defaults roots)).kind = .restricted from rfl]
  dsimp only
  rw [hasFullDiskReadAccess_readOnly, hasFullDiskWriteAccess_readOnly, hfold]
  rfl

end Restricted

lemma needsDirectRuntimeEnforcement_readOnly (access : ReadOnlyAccess)
    (network : NetworkSandboxPolicy) :
    (readOnly access).needsDirectRuntimeEnforcement env network cwd = false := by
  cases access with
  | fullAccess =>
    have hback : (readOnly .fullAccess).toLegacySandboxPolicy env network cwd =
        .ok (.readOnly .fullAccess network.isEnabled) := rfl
    unfold needsDirectRuntimeEnforcement
    rw [hback]
    show (true && decide ((readOnly .fullAccess).semanticSignature env cwd ≠
      (readOnly .fullAccess).semanticSignature env cwd)) = false
    simp
  | restricted includePlatformDefaults readableRoots =>
    have hroots : firstOccurrences (cwd :: readableRoots) =
        firstOccurrences (cwd :: firstOccurrences (cwd :: readableRoots)) := by
      symm
      calc firstOccurrences ([cwd] ++ firstOccurrences (cwd :: readableRoots))
        _ = firstOccurrences ([cwd] ++ cwd :: readableRoots) := append_right_congr (idem _)
        _ = firstOccurrences ([cwd] ++ readableRoots) :=
          append_congr (List.filter_cons_of_neg (by simp))
    unfold needsDirectRuntimeEnforcement
    rw [toLegacySandboxPolicy_readOnly]
    show (true && decide (_ ≠ (readOnly (.restricted includePlatformDefaults
      (firstOccurrences (cwd :: readableRoots)))).semanticSignature env cwd)) = false
    rw [semanticSignature_readOnly, semanticSignature_readOnly, ← hroots]
    simp

end FileSystemSandboxPolicy

/-! ## Every legacy policy -/

open FileSystemSandboxPolicy

/-- A workspace-write policy with restricted reading protects paths of the workspace and of its
listed roots. Those that no root lets write and that are not listed themselves lead the roots and
the protected paths, once the readable roots that no root lets write are left out. -/
def ProtectedPathsLead (env : Env) (cwd : AbsolutePath) : SandboxPolicy → Prop
  | .workspaceWrite writableRoots (.restricted includePlatformDefaults readableRoots) networkAccess
      excludeTmpdirEnvVar excludeSlashTmp =>
    let l : WorkspaceWrite := ⟨writableRoots, .restricted includePlatformDefaults readableRoots,
      networkAccess, excludeTmpdirEnvVar, excludeSlashTmp⟩
    let protectedPaths := protectedPaths env cwd writableRoots
    (firstOccurrences protectedPaths).filter (fun path =>
        !l.legacyAllows env cwd path && path ∉ readableRoots ++ writableRoots) <+:
      (firstOccurrences (l.splitRoots env cwd ++ protectedPaths)).filter fun path =>
        path ∉ readableRoots || l.legacyAllows env cwd path
  | _ => True

/-- A legacy policy survives the conversion and the way back exactly if its protected paths lead. -/
theorem legacy_round_trip_iff (env : Env) (cwd : AbsolutePath) (sandboxPolicy : SandboxPolicy) :
    (fromLegacySandboxPolicy env cwd sandboxPolicy).needsDirectRuntimeEnforcement env
        sandboxPolicy.networkSandboxPolicy cwd = false ↔
      ProtectedPathsLead env cwd sandboxPolicy := by
  match sandboxPolicy with
  | .dangerFullAccess => exact iff_of_true rfl trivial
  | .externalSandbox _ => exact iff_of_true rfl trivial
  | .readOnly access _ =>
    exact iff_of_true
      (needsDirectRuntimeEnforcement_readOnly env cwd access _) trivial
  | .workspaceWrite writableRoots .fullAccess networkAccess excludeTmpdirEnvVar excludeSlashTmp =>
    let l : WorkspaceWrite :=
      ⟨writableRoots, .fullAccess, networkAccess, excludeTmpdirEnvVar, excludeSlashTmp⟩
    exact iff_of_true ((l.needsDirectRuntimeEnforcement_split env cwd).mpr
      (l.deniedLead_of_fullAccess env cwd rfl)) trivial
  | .workspaceWrite writableRoots (.restricted includePlatformDefaults readableRoots) networkAccess
      excludeTmpdirEnvVar excludeSlashTmp =>
    let l : WorkspaceWrite := ⟨writableRoots, .restricted includePlatformDefaults readableRoots,
      networkAccess, excludeTmpdirEnvVar, excludeSlashTmp⟩
    exact (l.needsDirectRuntimeEnforcement_split env cwd).trans (l.deniedLead_iff env cwd rfl)

/-- The workspace `/work` with restricted reading. -/
def restrictedWorkspace : SandboxPolicy := .workspaceWrite [] (.restricted false []) false true true

/-- Its `.codex` directory comes back in front of the workspace. -/
theorem restricted_workspace_changes :
    (fromLegacySandboxPolicy plainEnv ["work".toList]
      restrictedWorkspace).needsDirectRuntimeEnforcement plainEnv
        restrictedWorkspace.networkSandboxPolicy ["work".toList] = true := by
  decide +kernel

end Supercodex.Permissions
