import Supercodex.Permissions.PolicyTheorems

/-!
# Full access to the disk

Full access is read off the entries before they are resolved. A read entry is passed over if a write entry has
the same target; but the special entry for `/tmp` resolves to nothing where `/tmp` is not a directory, and has
its target all the same.
-/

namespace Supercodex.Permissions

open Supercodex.Path FileSystemAccessMode

/-- `/tmp`. -/
def slashTmpPath : AbsolutePath := ["tmp".toList]

/-- Entries with one target resolve to one path, but for the special entry for `/tmp`. -/
lemma resolveEntryPath_of_shareTarget {env : Env} {cwd p : AbsolutePath} {left right : FileSystemPath}
    (h : fileSystemPathsShareTarget left right = true) (hright : resolveEntryPath env cwd right = some p) :
    resolveEntryPath env cwd left = some p ∨ left = .special .slashTmp ∧ right = .path slashTmpPath := by
  cases left with
  | path left =>
    cases right with
    | path right =>
      have heq : left = right := by simpa [fileSystemPathsShareTarget] using h
      exact .inl (heq ▸ hright)
    | globPattern pattern => cases hright
    | special value =>
      left
      cases value with
      | root =>
        have heq : left = [] := of_decide_eq_true h
        exact heq ▸ hright
      | slashTmp =>
        have heq : left = slashTmpPath := of_decide_eq_true h
        have hdir : (if env.tree.isDir slashTmpPath then some slashTmpPath else none) = some p := hright
        split at hdir
        · exact heq ▸ hdir
        · cases hdir
      | minimal | currentWorkingDirectory | projectRoots | tmpdir | unknown => cases h
  | globPattern left =>
    cases right with
    | path right => cases h
    | globPattern pattern => cases hright
    | special value => cases h
  | special left =>
    cases right with
    | path right =>
      cases left with
      | root =>
        have heq : right = [] := of_decide_eq_true h
        rw [heq] at hright
        exact .inl hright
      | slashTmp =>
        have heq : right = slashTmpPath := of_decide_eq_true h
        exact .inr ⟨rfl, heq ▸ rfl⟩
      | minimal | currentWorkingDirectory | projectRoots | tmpdir | unknown => cases h
    | globPattern pattern => cases h
    | special right =>
      left
      have hshare : specialPathsShareTarget left right = true := h
      unfold specialPathsShareTarget at hshare
      split at hshare
      case h_8 left right =>
        rcases left with _ | left <;> rcases right with _ | right <;> try cases hshare
        · exact hright
        · have hsame := @resolvePathAgainstBase_congr env.home cwd left right hshare
          exact (congrArg some hsame).trans hright
      case h_9 => cases hright
      case h_10 => cases hshare
      all_goals exact hright

namespace FileSystemSandboxPolicy

variable {policy : FileSystemSandboxPolicy} {env : Env} {cwd : AbsolutePath}

lemma mem_resolvedEntries {entry : FileSystemSandboxEntry} (hentry : entry ∈ policy.entries) {p : AbsolutePath}
    (hresolve : resolveEntryPath env cwd entry.path = some p) :
    (⟨p, entry.access⟩ : ResolvedFileSystemEntry) ∈ policy.resolvedEntriesWithCwd env cwd := by
  refine List.mem_filterMap.mpr ⟨entry, hentry, ?_⟩
  rw [hresolve]
  rfl

lemma exists_entry_of_mem_resolvedEntries {e : ResolvedFileSystemEntry}
    (he : e ∈ policy.resolvedEntriesWithCwd env cwd) :
    ∃ entry ∈ policy.entries, resolveEntryPath env cwd entry.path = some e.path ∧ entry.access = e.mode := by
  obtain ⟨entry, hentry, heq⟩ := List.mem_filterMap.mp he
  rw [Option.map_eq_some_iff] at heq
  obtain ⟨path, hpath, rfl⟩ := heq
  exact ⟨entry, hentry, hpath, rfl⟩

lemma fullDiskWrite_of_restricted (hkind : policy.kind = .restricted)
    (hfull : policy.hasFullDiskWriteAccess = true) :
    ⟨.special .root, .write⟩ ∈ policy.entries ∧ ∀ entry ∈ policy.entries, policy.narrowsWrite entry = false := by
  simp only [hasFullDiskWriteAccess, hkind, Bool.and_eq_true, Bool.not_eq_true', hasRootAccess,
    hasWriteNarrowingEntries, decide_true, Bool.true_and, List.any_eq_true, List.any_eq_false,
    decide_eq_true_eq, canWrite_iff] at hfull
  obtain ⟨⟨entry, hentry, hroot, hwrite⟩, hnarrow⟩ := hfull
  refine ⟨?_, ?_⟩
  · cases entry
    cases hroot
    cases hwrite
    exact hentry
  · intro entry hentry
    simpa using hnarrow entry hentry

/-- An entry without write access that resolves to a path and narrows nothing can be read. It stands beside a
write entry for the path, or it is the read entry for `/tmp`. -/
lemma beside_write_of_not_narrows (hroot : ⟨.special .root, .write⟩ ∈ policy.entries)
    {entry : FileSystemSandboxEntry} (hnarrow : policy.narrowsWrite entry = false) {p : AbsolutePath}
    (hresolve : resolveEntryPath env cwd entry.path = some p) (hwrite : entry.access ≠ .write) :
    entry.access = .read ∧ ((∃ candidate ∈ policy.entries, candidate.access = .write ∧
      resolveEntryPath env cwd candidate.path = some p) ∨ entry.path = .path slashTmpPath) := by
  have hoverride : policy.hasSameTargetWriteOverride entry = true → entry.access = .read ∧
      ((∃ candidate ∈ policy.entries, candidate.access = .write ∧
        resolveEntryPath env cwd candidate.path = some p) ∨ entry.path = .path slashTmpPath) := by
    intro h
    simp only [hasSameTargetWriteOverride, List.any_eq_true, Bool.and_eq_true,
      canWrite_iff, decide_eq_true_eq] at h
    obtain ⟨candidate, hcandidate, ⟨haccess, hlt⟩, hshare⟩ := h
    refine ⟨?_, ?_⟩
    · rw [haccess] at hlt
      revert hlt
      cases entry.access <;> decide
    · rcases resolveEntryPath_of_shareTarget hshare hresolve with hpath | ⟨-, hpath⟩
      · exact .inl ⟨candidate, hcandidate, haccess, hpath⟩
      · exact .inr hpath
  have hcan : entry.access.canWrite = false := by
    rw [← Bool.not_eq_true, canWrite_iff]
    exact hwrite
  unfold narrowsWrite at hnarrow
  rw [hcan, Bool.not_false, Bool.true_and] at hnarrow
  split at hnarrow
  · exact hoverride (by simpa using hnarrow)
  · cases hnarrow
  · rename_i hpath
    rw [hpath] at hresolve
    refine ⟨?_, .inl ⟨_, hroot, rfl, hresolve⟩⟩
    rw [decide_eq_false_iff_not] at hnarrow
    cases haccess : entry.access with
    | read => rfl
    | write => exact absurd haccess hwrite
    | none => exact absurd haccess hnarrow
  · rename_i hpath
    rw [hpath] at hresolve
    cases hresolve
  · rename_i hpath
    rw [hpath] at hresolve
    cases hresolve
  · exact hoverride (by simpa using hnarrow)

/-- Where the policy has full write access, every path can be written exactly if a read entry for `/tmp` stands
beside a write entry that resolves to `/tmp`; where it has full read access, every path can be read. -/
theorem full_access_shortcuts_iff (policy : FileSystemSandboxPolicy) (env : Env) (cwd : AbsolutePath) :
    (policy.hasFullDiskWriteAccess = true →
      ((∀ path, policy.resolveAccessWithCwd env cwd path = .write) ↔
        (policy.kind = .restricted → ⟨.path slashTmpPath, .read⟩ ∈ policy.entries →
          ∃ entry ∈ policy.entries, entry.access = .write ∧
            resolveEntryPath env cwd entry.path = some slashTmpPath))) ∧
    (policy.hasFullDiskReadAccess = true → ∀ path, policy.canReadPathWithCwd env cwd path = true) := by
  refine ⟨?_, fun hfull path => canReadPath_of_fullDiskRead hfull path⟩
  intro hfull
  constructor
  · intro hall hkind hread
    -- the entry that decides for `/tmp` is one for `/tmp`
    have hmem : (⟨slashTmpPath, .read⟩ : ResolvedFileSystemEntry) ∈ policy.resolvedEntriesWithCwd env cwd :=
      mem_resolvedEntries hread rfl
    obtain ⟨e, -, hd⟩ := PathRule.exists_decides hmem (List.prefix_refl slashTmpPath)
    have hmode : e.mode = .write := by
      rw [← hall slashTmpPath, resolveAccess_of_decides hkind hd]
    have hpath : e.path = slashTmpPath := by
      rcases hd.longest _ hmem (List.prefix_refl _) with hlt | ⟨heq, -⟩
      · exact absurd hd.covers.length_le (Nat.not_le_of_lt hlt)
      · exact heq.symm
    obtain ⟨entry, hentry, hresolve, haccess⟩ := exists_entry_of_mem_resolvedEntries hd.mem
    exact ⟨entry, hentry, haccess.trans hmode, hpath ▸ hresolve⟩
  · intro htmp path
    cases hkind : policy.kind with
    | unrestricted | externalSandbox => simp [resolveAccessWithCwd, hkind]
    | restricted =>
      obtain ⟨hroot, hnarrow⟩ := fullDiskWrite_of_restricted hkind hfull
      have hmem : (⟨[], .write⟩ : ResolvedFileSystemEntry) ∈ policy.resolvedEntriesWithCwd env cwd :=
        mem_resolvedEntries hroot rfl
      obtain ⟨e, -, hd⟩ := PathRule.exists_decides hmem (List.nil_prefix (l := path))
      rw [resolveAccess_of_decides hkind hd]
      by_contra hwrite
      obtain ⟨entry, hentry, hresolve, haccess⟩ := exists_entry_of_mem_resolvedEntries hd.mem
      obtain ⟨hread, hbeside⟩ :=
        beside_write_of_not_narrows hroot (hnarrow entry hentry) hresolve (haccess ▸ hwrite)
      have hcandidate : ∃ candidate ∈ policy.entries, candidate.access = .write ∧
          resolveEntryPath env cwd candidate.path = some e.path := by
        rcases hbeside with hcandidate | hpath
        · exact hcandidate
        have hslashTmp : slashTmpPath = e.path := by
          rw [hpath] at hresolve
          exact Option.some.inj hresolve
        rw [← hslashTmp]
        obtain ⟨entryPath, entryAccess⟩ := entry
        cases hpath
        cases hread
        exact htmp hkind hentry
      obtain ⟨candidate, hmemCandidate, hcandidateAccess, hcandidatePath⟩ := hcandidate
      -- the write entry would decide instead
      rcases hd.longest _ (mem_resolvedEntries hmemCandidate hcandidatePath) hd.covers with hlt | ⟨-, hle⟩
      · exact absurd hlt (Nat.lt_irrefl _)
      · rw [hcandidateAccess, ← haccess, hread] at hle
        change write ≤ .read at hle
        exact absurd hle (by decide)

/-- A disk without `/tmp`. -/
def bareEnv : Env := ⟨none, none, none, .ofNodes []⟩

/-- Everything can be written, and `/tmp` twice over: by the special entry, which shadows a read entry. -/
def slashTmpPolicy : FileSystemSandboxPolicy :=
  .restricted [⟨.special .root, .write⟩, ⟨.path slashTmpPath, .read⟩, ⟨.special .slashTmp, .write⟩]

/-- Without a directory `/tmp` its special entry resolves to nothing, and the read entry decides. -/
theorem slash_tmp_not_writable :
    slashTmpPolicy.hasFullDiskWriteAccess = true ∧
      slashTmpPolicy.resolveAccessWithCwd bareEnv [] slashTmpPath = .read := by
  decide +kernel

end FileSystemSandboxPolicy

end Supercodex.Permissions
