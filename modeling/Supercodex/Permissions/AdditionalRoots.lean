import Supercodex.Permissions.PolicyTheorems

/-!
# Additional roots (`protocol/src/permissions.rs`)

Roots are added to a policy one after the other, each as an entry of its own unless the policy permits it
already. An entry for a path changes what is permitted below the path only where no longer entry decides, and
there it permits more than before. A denial of the path itself stands.
-/

namespace Supercodex.Permissions

open Supercodex.Path

namespace FileSystemSandboxPolicy

/-! ## Adding roots -/

/-- One round of the loops over the roots. -/
def addRoot (env : Env) (cwd : AbsolutePath) (access : FileSystemAccessMode)
    (permits : FileSystemAccessMode → Bool) (policy : FileSystemSandboxPolicy) (path : AbsolutePath) :
    FileSystemSandboxPolicy :=
  if permits (policy.resolveAccessWithCwd env cwd path) then policy
  else { policy with entries := policy.entries ++ [⟨.path path, access⟩] }

/-- `with_additional_readable_roots`. -/
def withAdditionalReadableRoots (policy : FileSystemSandboxPolicy) (env : Env) (cwd : AbsolutePath)
    (roots : List AbsolutePath) : FileSystemSandboxPolicy :=
  if policy.hasFullDiskReadAccess then policy
  else roots.foldl (addRoot env cwd .read FileSystemAccessMode.canRead) policy

/-- `with_additional_writable_roots`. -/
def withAdditionalWritableRoots (policy : FileSystemSandboxPolicy) (env : Env) (cwd : AbsolutePath)
    (roots : List AbsolutePath) : FileSystemSandboxPolicy :=
  roots.foldl (addRoot env cwd .write FileSystemAccessMode.canWrite) policy

end FileSystemSandboxPolicy

/-! ## One more rule -/

section

variable {rules : List ResolvedFileSystemEntry} {r : ResolvedFileSystemEntry} {p : AbsolutePath}

lemma access_concat_of_not_covers (h : ¬ r.path <+: p) : access (rules ++ [r]) p = access rules p := by
  unfold access
  rw [PathRule.resolve_concat h]

lemma access_concat (h : (access rules r.path).capability < r.mode.capability) (p : AbsolutePath) :
    access (rules ++ [r]) p = access rules p ∨
      r.path <+: p ∧ access (rules ++ [r]) p = r.mode ∧ (access rules p).capability < r.mode.capability := by
  by_cases hcov : r.path <+: p
  · obtain ⟨e, -, hd⟩ := PathRule.exists_decides (List.mem_append_right rules (List.mem_singleton_self r)) hcov
    rcases List.mem_append.mp hd.mem with he | he
    · left
      rw [access_of_decides hd, access_of_decides (hd.of_append he)]
    right
    rw [List.mem_singleton] at he
    subst he
    refine ⟨hcov, access_of_decides hd, ?_⟩
    by_cases hnone : access rules p = .none
    · rw [hnone]
      exact Nat.lt_of_le_of_lt (Nat.zero_le _) h
    -- what decided for `p` decided for the path of the rule as well
    obtain ⟨d, hdecides, -⟩ := exists_decides_of_access hnone
    have habove := hd.prefix_of_covers (List.mem_append_left _ hdecides.mem) hdecides.covers
    rw [access_of_decides (hdecides.between habove hcov)] at h
    rwa [access_of_decides hdecides]
  · exact .inl (access_concat_of_not_covers hcov)

lemma access_concat_self (h : (access rules r.path).capability < r.mode.capability) :
    access (rules ++ [r]) r.path = r.mode ∨ ⟨r.path, .none⟩ ∈ rules := by
  have hr : r ∈ rules ++ [r] := List.mem_append_right rules (List.mem_singleton_self r)
  obtain ⟨e, -, hd⟩ := PathRule.exists_decides hr (List.prefix_refl r.path)
  rcases List.mem_append.mp hd.mem with he | he
  · right
    rcases hd.longest r hr (List.prefix_refl _) with hlt | ⟨hpath, hmode⟩
    · exact absurd hd.covers.length_le (Nat.not_le_of_lt hlt)
    -- less than the rule permits, and yet above it: a denial
    have hnone : e.mode = .none := by
      rw [access_of_decides (hd.of_append he)] at h
      revert h hmode
      cases r.mode <;> cases e.mode <;> decide
    obtain ⟨path, mode⟩ := e
    cases hnone
    rw [hpath]
    exact he
  · left
    rw [access_of_decides hd, List.mem_singleton.mp he]

end

namespace FileSystemSandboxPolicy

variable {policy : FileSystemSandboxPolicy} {env : Env} {cwd p : AbsolutePath}

/-- An entry of the policy denies exactly this path. -/
def Denies (policy : FileSystemSandboxPolicy) (env : Env) (cwd path : AbsolutePath) : Prop :=
  policy.kind = .restricted ∧ ⟨path, .none⟩ ∈ policy.resolvedEntriesWithCwd env cwd

/-- What adding some roots does to a policy. -/
structure Extends (env : Env) (cwd : AbsolutePath) (requested : FileSystemAccessMode) (roots : List AbsolutePath)
    (policy policy' : FileSystemSandboxPolicy) : Prop where
  monotone : ∀ path, (policy.resolveAccessWithCwd env cwd path).capability ≤
    (policy'.resolveAccessWithCwd env cwd path).capability
  granted : ∀ root ∈ roots, requested.capability ≤ (policy'.resolveAccessWithCwd env cwd root).capability ∨
    policy.Denies env cwd root
  outside : ∀ path, (∀ root ∈ roots, ¬ root <+: path) →
    policy'.resolveAccessWithCwd env cwd path = policy.resolveAccessWithCwd env cwd path
  denies : ∀ path, policy'.Denies env cwd path ↔ policy.Denies env cwd path

lemma Denies.resolve (h : policy.Denies env cwd p) : policy.resolveAccessWithCwd env cwd p = .none := by
  rw [resolveAccess_of_restricted h.1]
  exact access_of_none_mem h.2 rfl

section

variable {requested : FileSystemAccessMode} {permits : FileSystemAccessMode → Bool}

lemma restricted_of_lt {path : AbsolutePath}
    (h : (policy.resolveAccessWithCwd env cwd path).capability < requested.capability) :
    policy.kind = .restricted := by
  cases hkind : policy.kind with
  | restricted => rfl
  | unrestricted | externalSandbox =>
    simp only [resolveAccessWithCwd, hkind] at h
    revert h
    cases requested <;> decide

/-- Adding one root. -/
lemma extends_addRoot (hpermits : ∀ mode, permits mode = true ↔ requested.capability ≤ mode.capability)
    (policy : FileSystemSandboxPolicy) (root : AbsolutePath) :
    Extends env cwd requested [root] policy (addRoot env cwd requested permits policy root) := by
  unfold addRoot
  split
  · rename_i hpermitted
    refine ⟨fun _ => Nat.le_refl _, ?_, fun _ _ => rfl, fun _ => Iff.rfl⟩
    intro path hpath
    rw [List.mem_singleton] at hpath
    subst hpath
    exact .inl ((hpermits _).mp hpermitted)
  · rename_i hdenied
    rw [hpermits, Nat.not_le] at hdenied
    have hkind := restricted_of_lt hdenied
    set policy' : FileSystemSandboxPolicy :=
      { policy with entries := policy.entries ++ [⟨.path root, requested⟩] } with hpolicy'
    have hkind' : policy'.kind = .restricted := hkind
    have hentries : policy'.resolvedEntriesWithCwd env cwd =
        policy.resolvedEntriesWithCwd env cwd ++ [⟨root, requested⟩] := by
      rw [hpolicy', resolvedEntriesWithCwd, List.filterMap_append]
      rfl
    have haccess : ∀ path, policy'.resolveAccessWithCwd env cwd path =
        access (policy.resolvedEntriesWithCwd env cwd ++ [⟨root, requested⟩]) path := by
      intro path
      rw [resolveAccess_of_restricted hkind', hentries]
    rw [resolveAccess_of_restricted hkind] at hdenied
    have hsomething : requested ≠ .none := by
      rintro rfl
      exact absurd hdenied (Nat.not_lt_zero _)
    constructor
    · intro path
      rw [haccess, resolveAccess_of_restricted hkind]
      rcases access_concat (r := ⟨root, requested⟩) hdenied path with hsame | ⟨-, hmode, hlt⟩
      · rw [hsame]
      · rw [hmode]
        exact hlt.le
    · intro path hpath
      rw [List.mem_singleton] at hpath
      subst hpath
      rcases access_concat_self (r := ⟨path, requested⟩) hdenied with hmode | hmem
      · left
        rw [haccess, hmode]
      · exact .inr ⟨hkind, hmem⟩
    · intro path hpath
      rw [haccess, resolveAccess_of_restricted hkind]
      exact access_concat_of_not_covers (hpath root List.mem_cons_self)
    · intro path
      unfold Denies
      rw [hentries, List.mem_append, List.mem_singleton]
      constructor
      · rintro ⟨-, hmem | heq⟩
        · exact ⟨hkind, hmem⟩
        · cases heq
          exact absurd rfl hsomething
      · rintro ⟨-, hmem⟩
        exact ⟨hkind', .inl hmem⟩

lemma extends_addRoots (hpermits : ∀ mode, permits mode = true ↔ requested.capability ≤ mode.capability)
    (policy : FileSystemSandboxPolicy) (roots : List AbsolutePath) :
    Extends env cwd requested roots policy (roots.foldl (addRoot env cwd requested permits) policy) := by
  induction roots generalizing policy with
  | nil => exact ⟨fun _ => Nat.le_refl _, List.forall_mem_nil _, fun _ _ => rfl, fun _ => Iff.rfl⟩
  | cons root roots ih =>
    have hfirst : Extends env cwd requested [root] policy (addRoot env cwd requested permits policy root) :=
      extends_addRoot hpermits policy root
    have hrest := ih (addRoot env cwd requested permits policy root)
    constructor
    · intro path
      exact (hfirst.monotone path).trans (hrest.monotone path)
    · intro path hpath
      rcases List.mem_cons.mp hpath with rfl | hpath
      · rcases hfirst.granted path (List.mem_singleton_self path) with hgranted | hdenies
        · exact .inl (hgranted.trans (hrest.monotone path))
        · exact .inr hdenies
      · rcases hrest.granted path hpath with hgranted | hdenies
        · exact .inl hgranted
        · exact .inr ((hfirst.denies path).mp hdenies)
    · intro path hpath
      obtain ⟨hroot, hroots⟩ := List.forall_mem_cons.mp hpath
      rw [List.foldl_cons, hrest.outside path hroots]
      apply hfirst.outside path
      intro other hother
      rw [List.mem_singleton.mp hother]
      exact hroot
    · intro path
      exact (hrest.denies path).trans (hfirst.denies path)

lemma canRead_iff_capability (mode : FileSystemAccessMode) :
    mode.canRead = true ↔ FileSystemAccessMode.read.capability ≤ mode.capability := by
  cases mode <;> decide

lemma canWrite_iff_capability (mode : FileSystemAccessMode) :
    mode.canWrite = true ↔ FileSystemAccessMode.write.capability ≤ mode.capability := by
  cases mode <;> decide

lemma extends_withAdditionalReadableRoots (policy : FileSystemSandboxPolicy) (roots : List AbsolutePath) :
    Extends env cwd .read roots policy (policy.withAdditionalReadableRoots env cwd roots) := by
  unfold withAdditionalReadableRoots
  split
  · rename_i hfull
    refine ⟨fun _ => Nat.le_refl _, ?_, fun _ _ => rfl, fun _ => Iff.rfl⟩
    intro root _
    exact .inl ((canRead_iff_capability _).mp (canReadPath_of_fullDiskRead hfull root))
  · exact extends_addRoots canRead_iff_capability policy roots

lemma extends_withAdditionalWritableRoots (policy : FileSystemSandboxPolicy) (roots : List AbsolutePath) :
    Extends env cwd .write roots policy (policy.withAdditionalWritableRoots env cwd roots) :=
  extends_addRoots canWrite_iff_capability policy roots

/-- An added root is granted unless the policy denies it. -/
lemma Extends.granted_or_denied {policy' : FileSystemSandboxPolicy} {roots : List AbsolutePath}
    (h : Extends env cwd requested roots policy policy')
    (hpermits : ∀ mode, permits mode = true ↔ requested.capability ≤ mode.capability) :
    ∀ root ∈ roots, permits (policy'.resolveAccessWithCwd env cwd root) = true ∨
      policy.Denies env cwd root ∧ policy'.resolveAccessWithCwd env cwd root = .none := by
  intro root hroot
  rcases h.granted root hroot with hgranted | hdenies
  · exact .inl ((hpermits _).mpr hgranted)
  · exact .inr ⟨hdenies, ((h.denies root).mpr hdenies).resolve⟩

end

/-- Additional roots never lower what a path permits, change nothing outside of the roots, and are granted, but
for the roots that an entry denies, which stay denied. -/
theorem additional_roots_monotone (policy : FileSystemSandboxPolicy) (env : Env) (cwd : AbsolutePath)
    (roots : List AbsolutePath) :
    let readable := policy.withAdditionalReadableRoots env cwd roots
    let writable := policy.withAdditionalWritableRoots env cwd roots
    ((∀ path, (policy.resolveAccessWithCwd env cwd path).capability ≤
        (readable.resolveAccessWithCwd env cwd path).capability) ∧
      (∀ root ∈ roots, readable.canReadPathWithCwd env cwd root = true ∨
        policy.Denies env cwd root ∧ readable.resolveAccessWithCwd env cwd root = .none) ∧
      ∀ path, (∀ root ∈ roots, ¬ root <+: path) →
        readable.resolveAccessWithCwd env cwd path = policy.resolveAccessWithCwd env cwd path) ∧
    (∀ path, (policy.resolveAccessWithCwd env cwd path).capability ≤
        (writable.resolveAccessWithCwd env cwd path).capability) ∧
      (∀ root ∈ roots, writable.canWritePathWithCwd env cwd root = true ∨
        policy.Denies env cwd root ∧ writable.resolveAccessWithCwd env cwd root = .none) ∧
      ∀ path, (∀ root ∈ roots, ¬ root <+: path) →
        writable.resolveAccessWithCwd env cwd path = policy.resolveAccessWithCwd env cwd path := by
  intro readable writable
  have hreadable : Extends env cwd .read roots policy readable :=
    extends_withAdditionalReadableRoots policy roots
  have hwritable : Extends env cwd .write roots policy writable :=
    extends_withAdditionalWritableRoots policy roots
  refine ⟨⟨?_, ?_, ?_⟩, ?_, ?_, ?_⟩
  · exact hreadable.monotone
  · exact hreadable.granted_or_denied canRead_iff_capability
  · exact hreadable.outside
  · exact hwritable.monotone
  · exact hwritable.granted_or_denied canWrite_iff_capability
  · exact hwritable.outside

/-- An entry denies a root that is added: it is still denied. -/
theorem denied_root_not_granted :
    let root : AbsolutePath := ["secret".toList]
    let env : Env := ⟨none, none, none, .ofNodes []⟩
    let policy : FileSystemSandboxPolicy := .restricted [⟨.path root, .none⟩]
    (policy.withAdditionalReadableRoots env [] [root]).canReadPathWithCwd env [] root = false ∧
      (policy.withAdditionalWritableRoots env [] [root]).canWritePathWithCwd env [] root = false := by
  decide +kernel

end FileSystemSandboxPolicy

end Supercodex.Permissions
