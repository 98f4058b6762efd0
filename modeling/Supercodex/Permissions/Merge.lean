import Supercodex.Permissions.Legacy
import Supercodex.Permissions.IntersectionTheorems
import Mathlib.Order.Lattice.Nat

/-!
# Additional permissions (`sandboxing/src/policy_transforms.rs`)

A profile of additional permissions is merged into another one, or applied to the policies of a sandbox.
Entries that are there already are not repeated, and the depth to which globs are scanned is that of the
side which has globs, or the greater of the two.
-/

namespace Supercodex.Permissions

/-- `FileSystemPermissions::is_empty`. -/
def FileSystemPermissions.isEmpty (fileSystem : FileSystemPermissions) : Bool := fileSystem.entries.isEmpty

/-- `PermissionProfile::is_empty`. -/
def PermissionProfile.isEmpty (profile : PermissionProfile) : Bool :=
  profile.network.isNone && profile.fileSystem.isNone

/-- `NonZeroUsize::new`. -/
def nonZero (n : ℕ) : Option ℕ+ := if h : 0 < n then some ⟨n, h⟩ else none

/-- `merge_permission_entries`. -/
def mergePermissionEntries (base permissions : List FileSystemSandboxEntry) :
    List FileSystemSandboxEntry :=
  (base ++ permissions).foldl pushNew []

/-- The network of `merge_permission_profiles`. -/
def mergeNetwork (base permissions : PermissionProfile) : Option NetworkPermissions :=
  if base.networkEnabled || permissions.networkEnabled then some ⟨some true⟩ else none

/-- The file system of `merge_permission_profiles`. -/
def mergeFileSystem (base permissions : Option FileSystemPermissions) : Option FileSystemPermissions :=
  match base, permissions with
  | some base, some permissions =>
    (some {
      entries := mergePermissionEntries base.entries permissions.entries
      globScanMaxDepth :=
        (mergeGlobScanMaxDepth base.entries (base.globScanMaxDepth.map (↑)) permissions.entries
          (permissions.globScanMaxDepth.map (↑))).bind nonZero }).filter
      fun fileSystem : FileSystemPermissions => !fileSystem.isEmpty
  | some base, none => some base
  | none, some permissions => some permissions
  | none, none => none

/-- `merge_permission_profiles`. -/
def mergePermissionProfiles (base permissions : Option PermissionProfile) : Option PermissionProfile :=
  match base, permissions with
  | base, none => base
  | some base, some permissions =>
    (some (PermissionProfile.mk (mergeNetwork base permissions)
      (mergeFileSystem base.fileSystem permissions.fileSystem))).filter fun profile => !profile.isEmpty
  | none, some permissions => (some permissions).filter fun profile => !profile.isEmpty

/-- `merge_file_system_policy_with_additional_permissions`. -/
def mergeFileSystemPolicyWithAdditionalPermissions (fileSystemPolicy : FileSystemSandboxPolicy)
    (additionalPermissions : FileSystemPermissions) : FileSystemSandboxPolicy :=
  match fileSystemPolicy.kind with
  | .restricted =>
    { fileSystemPolicy with
      entries := additionalPermissions.entries.foldl pushNew fileSystemPolicy.entries
      globScanMaxDepth := mergeGlobScanMaxDepth fileSystemPolicy.entries
        fileSystemPolicy.globScanMaxDepth additionalPermissions.entries
        (additionalPermissions.globScanMaxDepth.map (↑)) }
  | .unrestricted | .externalSandbox => fileSystemPolicy

/-- `effective_file_system_sandbox_policy`. -/
def effectiveFileSystemSandboxPolicy (fileSystemPolicy : FileSystemSandboxPolicy)
    (additionalPermissions : Option PermissionProfile) : FileSystemSandboxPolicy :=
  match additionalPermissions.bind (·.fileSystem) with
  | none => fileSystemPolicy
  | some fileSystem =>
    if fileSystem.isEmpty then fileSystemPolicy
    else mergeFileSystemPolicyWithAdditionalPermissions fileSystemPolicy fileSystem

/-- `merge_network_access`. -/
def mergeNetworkAccess (baseNetworkAccess : Bool) (additionalPermissions : PermissionProfile) : Bool :=
  baseNetworkAccess || (additionalPermissions.network.bind (·.enabled)).getD false

/-- `effective_network_sandbox_policy`. -/
def effectiveNetworkSandboxPolicy (networkPolicy : NetworkSandboxPolicy)
    (additionalPermissions : Option PermissionProfile) : NetworkSandboxPolicy :=
  if additionalPermissions.any (mergeNetworkAccess networkPolicy.isEnabled) then .enabled
  else if additionalPermissions.isSome then .restricted
  else networkPolicy

end Supercodex.Permissions

/-!
# Additional permissions compose

Applying two profiles one after the other and applying their merge once give the same entries and scan
globs to the same depth, and the order of a merge matters to no path.
-/

namespace Supercodex.Permissions

open Supercodex.Path

/-! ## Scan depth -/

/-- The depth to which globs are scanned, with nothing for no globs and the top for no bound. -/
def scanBound : Option GlobScanDepth → WithBot (WithTop ℕ)
  | none => ⊥
  | some (.bounded depth) => WithBot.some (WithTop.some depth)
  | some .unbounded => ((⊤ : WithTop ℕ) : WithBot (WithTop ℕ))

lemma scanBound_injective : Function.Injective scanBound := by
  intro a b h
  rcases a with _ | ⟨d | _⟩ <;> rcases b with _ | ⟨d' | _⟩ <;> simp_all [scanBound]

/-- Does an entry deny what a glob matches? -/
def isDenyGlob (entry : FileSystemSandboxEntry) : Bool :=
  entry.access = .none &&
    match entry.path with
    | .globPattern _ => true
    | _ => false

lemma effectiveGlobScanDepth_eq (entries : List FileSystemSandboxEntry) (depth : Option ℕ) :
    effectiveGlobScanDepth entries depth =
      if entries.any isDenyGlob then some (depth.elim .unbounded .bounded) else none := rfl

/-- The merged policy is scanned as deep as either of the two. -/
lemma scanBound_merge {left right merged : List FileSystemSandboxEntry} (leftDepth rightDepth : Option ℕ)
    (h : ∀ entry, entry ∈ merged ↔ entry ∈ left ∨ entry ∈ right) :
    scanBound (effectiveGlobScanDepth merged
        (mergeGlobScanMaxDepth left leftDepth right rightDepth)) =
      scanBound (effectiveGlobScanDepth left leftDepth) ⊔
        scanBound (effectiveGlobScanDepth right rightDepth) := by
  have hany : merged.any isDenyGlob = (left.any isDenyGlob || right.any isDenyGlob) := by
    rw [Bool.eq_iff_iff, Bool.or_eq_true, List.any_eq_true, List.any_eq_true, List.any_eq_true]
    simp only [h, or_and_right, exists_or]
  rw [mergeGlobScanMaxDepth, effectiveGlobScanDepth_eq, effectiveGlobScanDepth_eq,
    effectiveGlobScanDepth_eq, hany]
  cases hleft : left.any isDenyGlob <;> cases hright : right.any isDenyGlob
  · rfl
  · cases rightDepth <;> simp [scanBound]
  · cases leftDepth <;> simp [scanBound]
  cases leftDepth with
  | none => cases rightDepth <;> simp [scanBound]
  | some depth =>
    cases rightDepth with
    | none => simp [scanBound]
    | some depth' =>
      show WithBot.some (WithTop.some (max depth depth')) =
        WithBot.some (WithTop.some depth) ⊔ WithBot.some (WithTop.some depth')
      rw [WithTop.coe_max, WithBot.coe_max]

/-! ## Entries -/

lemma pushNew_of_mem {entries : List FileSystemSandboxEntry} {entry : FileSystemSandboxEntry}
    (h : entry ∈ entries) : pushNew entries entry = entries := if_pos h

lemma foldl_pushNew_dedup (acc new : List FileSystemSandboxEntry) :
    (new.foldl pushNew []).foldl pushNew acc = new.foldl pushNew acc := by
  induction new using List.reverseRecOn with
  | nil => rfl
  | append_singleton new entry ih =>
    rw [List.foldl_append, List.foldl_append, List.foldl_cons, List.foldl_nil, List.foldl_cons,
      List.foldl_nil, pushNew]
    split
    case isTrue h =>
      rw [mem_foldl_pushNew] at h
      have hmem : entry ∈ new := h.resolve_left List.not_mem_nil
      rw [ih, pushNew_of_mem (mem_foldl_pushNew.mpr (.inr hmem))]
    case isFalse => rw [List.foldl_append, ih, List.foldl_cons, List.foldl_nil]

/-! ## Profiles -/

/-- The entries of a profile, if there is one. -/
def entriesOf (profile : Option PermissionProfile) : List FileSystemSandboxEntry :=
  profile.elim [] PermissionProfile.entries

/-- The depth to which a profile has globs scanned. -/
def depthOf (profile : Option PermissionProfile) : Option ℕ :=
  (profile.bind (·.fileSystem)).bind fun fileSystem => fileSystem.globScanMaxDepth.map (↑)

/-- The depth to which a policy has globs scanned. -/
def FileSystemSandboxPolicy.scanDepth (policy : FileSystemSandboxPolicy) : Option GlobScanDepth :=
  effectiveGlobScanDepth policy.entries policy.globScanMaxDepth

lemma isEmpty_iff (fileSystem : FileSystemPermissions) : fileSystem.isEmpty = true ↔ fileSystem.entries = [] :=
  List.isEmpty_iff

/-- What a profile makes of a restricted policy. -/
lemma effective_of_restricted {policy : FileSystemSandboxPolicy} (h : policy.kind = .restricted)
    (profile : Option PermissionProfile) :
    (effectiveFileSystemSandboxPolicy policy profile).kind = .restricted ∧
      (effectiveFileSystemSandboxPolicy policy profile).entries =
        (entriesOf profile).foldl pushNew policy.entries ∧
      scanBound (effectiveFileSystemSandboxPolicy policy profile).scanDepth =
        scanBound policy.scanDepth ⊔ scanBound (effectiveGlobScanDepth (entriesOf profile) (depthOf profile)) := by
  have hnone (hentries : entriesOf profile = []) (hsame : effectiveFileSystemSandboxPolicy policy profile = policy) :
      (effectiveFileSystemSandboxPolicy policy profile).kind = .restricted ∧
      (effectiveFileSystemSandboxPolicy policy profile).entries =
        (entriesOf profile).foldl pushNew policy.entries ∧
      scanBound (effectiveFileSystemSandboxPolicy policy profile).scanDepth =
        scanBound policy.scanDepth ⊔ scanBound (effectiveGlobScanDepth (entriesOf profile) (depthOf profile)) := by
    rw [hsame, hentries]
    exact ⟨h, rfl, (sup_bot_eq _).symm⟩
  match profile with
  | none | some ⟨network, none⟩ => exact hnone rfl rfl
  | some ⟨network, some fileSystem⟩ =>
    cases hempty : fileSystem.isEmpty with
    | true =>
      refine hnone ((isEmpty_iff fileSystem).mp hempty) ?_
      simp [effectiveFileSystemSandboxPolicy, hempty]
    | false =>
      have heffective : effectiveFileSystemSandboxPolicy policy (some ⟨network, some fileSystem⟩) =
          mergeFileSystemPolicyWithAdditionalPermissions policy fileSystem := by
        simp [effectiveFileSystemSandboxPolicy, hempty]
      rw [heffective, mergeFileSystemPolicyWithAdditionalPermissions, h]
      refine ⟨rfl, rfl, ?_⟩
      exact scanBound_merge _ _ fun entry => mem_foldl_pushNew

lemma effective_of_not_restricted {policy : FileSystemSandboxPolicy} (h : policy.kind ≠ .restricted)
    (profile : Option PermissionProfile) : effectiveFileSystemSandboxPolicy policy profile = policy := by
  rw [effectiveFileSystemSandboxPolicy]
  split
  · rfl
  split
  · rfl
  rw [mergeFileSystemPolicyWithAdditionalPermissions]
  cases hkind : policy.kind with
  | restricted => exact absurd hkind h
  | unrestricted | externalSandbox => rfl

lemma mergeDepth_nonZero (left right : List FileSystemSandboxEntry) (leftDepth rightDepth : Option ℕ+) :
    ((mergeGlobScanMaxDepth left (leftDepth.map (↑)) right (rightDepth.map (↑))).bind nonZero).map (↑) =
      mergeGlobScanMaxDepth left (leftDepth.map (↑)) right (rightDepth.map (↑)) := by
  have hpos : ∀ depth, mergeGlobScanMaxDepth left (leftDepth.map (↑)) right (rightDepth.map (↑)) =
      some depth → 0 < depth := by
    intro depth
    rw [mergeGlobScanMaxDepth, effectiveGlobScanDepth_eq, effectiveGlobScanDepth_eq]
    cases left.any isDenyGlob <;> cases right.any isDenyGlob <;> cases leftDepth <;> cases rightDepth <;>
      simp <;> rintro rfl <;> simp
  cases hdepth : mergeGlobScanMaxDepth left (leftDepth.map (↑)) right (rightDepth.map (↑)) with
  | none => rfl
  | some depth =>
    rw [Option.bind_some, nonZero, dif_pos (hpos depth hdepth)]
    rfl

lemma fileSystem_merge (a b : PermissionProfile) :
    (mergePermissionProfiles (some a) (some b)).bind (·.fileSystem) =
      mergeFileSystem a.fileSystem b.fileSystem := by
  have hmerged : mergePermissionProfiles (some a) (some b) = (some (PermissionProfile.mk
      (mergeNetwork a b) (mergeFileSystem a.fileSystem b.fileSystem))).filter
        fun profile => !profile.isEmpty := rfl
  rw [hmerged, Option.filter_some]
  generalize mergeNetwork a b = network
  generalize mergeFileSystem a.fileSystem b.fileSystem = fileSystem
  cases fileSystem with
  | some fileSystem => cases network <;> rfl
  | none =>
    split
    · rfl
    · rfl

lemma entriesOf_eq (profile : Option PermissionProfile) :
    entriesOf profile = (profile.bind (·.fileSystem)).elim [] (·.entries) := by
  match profile with
  | none | some ⟨_, none⟩ | some ⟨_, some _⟩ => rfl

/-- A merge adds the entries of the one and then those of the other, and scans for globs as deep as the
deeper of them. -/
lemma merge_entries (a b : PermissionProfile) :
    (∀ acc, (entriesOf (mergePermissionProfiles (some a) (some b))).foldl pushNew acc =
        (a.entries ++ b.entries).foldl pushNew acc) ∧
      scanBound (effectiveGlobScanDepth (entriesOf (mergePermissionProfiles (some a) (some b)))
          (depthOf (mergePermissionProfiles (some a) (some b)))) =
        scanBound (effectiveGlobScanDepth (entriesOf (some a)) (depthOf (some a))) ⊔
          scanBound (effectiveGlobScanDepth (entriesOf (some b)) (depthOf (some b))) := by
  rw [entriesOf_eq (mergePermissionProfiles (some a) (some b)), depthOf, fileSystem_merge]
  match a, b with
  | ⟨_, none⟩, ⟨_, none⟩ => exact ⟨fun acc => rfl, (sup_bot_eq _).symm⟩
  | ⟨_, some fileSystemA⟩, ⟨_, none⟩ =>
    refine ⟨fun acc => ?_, (sup_bot_eq _).symm⟩
    show fileSystemA.entries.foldl pushNew acc = (fileSystemA.entries ++ []).foldl pushNew acc
    rw [List.append_nil]
  | ⟨_, none⟩, ⟨_, some fileSystemB⟩ => exact ⟨fun acc => rfl, (bot_sup_eq _).symm⟩
  | ⟨_, some fileSystemA⟩, ⟨_, some fileSystemB⟩ =>
    have hmem (entry : FileSystemSandboxEntry) :
        entry ∈ mergePermissionEntries fileSystemA.entries fileSystemB.entries ↔
          entry ∈ fileSystemA.entries ∨ entry ∈ fileSystemB.entries := by
      rw [mergePermissionEntries, mem_foldl_pushNew, List.mem_append]
      exact or_iff_right List.not_mem_nil
    have hdepth := scanBound_merge (fileSystemA.globScanMaxDepth.map (↑)) (fileSystemB.globScanMaxDepth.map (↑))
      hmem
    simp only [mergeFileSystem, Option.filter_some]
    split
    case isTrue =>
      refine ⟨fun acc => foldl_pushNew_dedup acc _, ?_⟩
      simp only [Option.elim_some, Option.bind_some]
      rw [mergeDepth_nonZero]
      exact hdepth
    case isFalse h =>
      have hnil : mergePermissionEntries fileSystemA.entries fileSystemB.entries = [] := by
        rw [Bool.not_eq_true', Bool.not_eq_false, isEmpty_iff] at h
        exact h
      rw [hnil] at hdepth hmem
      constructor
      · intro acc
        have hA : fileSystemA.entries = [] := List.eq_nil_iff_forall_not_mem.mpr fun entry h =>
          List.not_mem_nil ((hmem entry).mpr (.inl h))
        have hB : fileSystemB.entries = [] := List.eq_nil_iff_forall_not_mem.mpr fun entry h =>
          List.not_mem_nil ((hmem entry).mpr (.inr h))
        show acc = (fileSystemA.entries ++ fileSystemB.entries).foldl pushNew acc
        rw [hA, hB]
        rfl
      · exact hdepth

/-! ## Network -/

lemma networkEnabled_eq (profile : PermissionProfile) :
    profile.networkEnabled = (profile.network.bind (·.enabled)).getD false := by
  obtain ⟨network, fileSystem⟩ := profile
  match network with
  | none | some ⟨none⟩ | some ⟨some true⟩ | some ⟨some false⟩ => rfl

lemma isEnabled_effectiveNetwork (network : NetworkSandboxPolicy) (profile : Option PermissionProfile) :
    (effectiveNetworkSandboxPolicy network profile).isEnabled =
      (network.isEnabled || profile.any PermissionProfile.networkEnabled) := by
  rw [effectiveNetworkSandboxPolicy]
  cases profile with
  | none => cases network <;> rfl
  | some profile =>
    rw [Option.any_some, Option.any_some, networkEnabled_eq, mergeNetworkAccess]
    cases network.isEnabled <;> cases (profile.network.bind (·.enabled)).getD false <;> rfl

lemma NetworkSandboxPolicy.eq_of_isEnabled {left right : NetworkSandboxPolicy}
    (h : left.isEnabled = right.isEnabled) : left = right := by
  cases left <;> cases right <;> first | rfl | cases h

lemma networkEnabled_merge (a b : PermissionProfile) :
    (mergePermissionProfiles (some a) (some b)).any PermissionProfile.networkEnabled =
      (a.networkEnabled || b.networkEnabled) := by
  have hmerged : mergePermissionProfiles (some a) (some b) = (some (PermissionProfile.mk
      (if a.networkEnabled || b.networkEnabled then some ⟨some true⟩ else none)
      (mergeFileSystem a.fileSystem b.fileSystem))).filter fun profile => !profile.isEmpty := rfl
  rw [hmerged]
  generalize (a.networkEnabled || b.networkEnabled) = enabled
  cases enabled with
  | true => rfl
  | false =>
    rw [if_neg Bool.false_ne_true, Option.filter_some]
    split
    · rfl
    · rfl

/-! ## Composition -/

lemma resolveAccess_congr {policy policy' : FileSystemSandboxPolicy} (hkind : policy'.kind = policy.kind)
    (h : ∀ entry, entry ∈ policy'.entries ↔ entry ∈ policy.entries) (env : Env) (cwd path : AbsolutePath) :
    policy'.resolveAccessWithCwd env cwd path = policy.resolveAccessWithCwd env cwd path := by
  have hrules (rule : ResolvedFileSystemEntry) : rule ∈ policy'.resolvedEntriesWithCwd env cwd ↔
      rule ∈ policy.resolvedEntriesWithCwd env cwd := by
    simp only [FileSystemSandboxPolicy.resolvedEntriesWithCwd, List.mem_filterMap, h]
  rw [FileSystemSandboxPolicy.resolveAccessWithCwd, FileSystemSandboxPolicy.resolveAccessWithCwd, hkind,
    PathRule.resolve_congr hrules]

/-- Two profiles applied one after the other resolve every path, every deny glob with its scan depth and
the network as their merge does, and the merge in the other order resolves every path and the network
alike. -/
theorem additional_permissions_compose (policy : FileSystemSandboxPolicy) (network : NetworkSandboxPolicy)
    (a b : PermissionProfile) (env : Env) (cwd : AbsolutePath) :
    let oneByOne := effectiveFileSystemSandboxPolicy (effectiveFileSystemSandboxPolicy policy a) b
    let merged := effectiveFileSystemSandboxPolicy policy (mergePermissionProfiles a b)
    let reversed := effectiveFileSystemSandboxPolicy policy (mergePermissionProfiles b a)
    ((∀ path, oneByOne.resolveAccessWithCwd env cwd path = merged.resolveAccessWithCwd env cwd path) ∧
        getUnreadableGlobsWithCwd env cwd oneByOne = getUnreadableGlobsWithCwd env cwd merged ∧
        oneByOne.scanDepth = merged.scanDepth ∧
        effectiveNetworkSandboxPolicy (effectiveNetworkSandboxPolicy network a) b =
          effectiveNetworkSandboxPolicy network (mergePermissionProfiles a b)) ∧
      (∀ path, reversed.resolveAccessWithCwd env cwd path = merged.resolveAccessWithCwd env cwd path) ∧
        effectiveNetworkSandboxPolicy network (mergePermissionProfiles b a) =
          effectiveNetworkSandboxPolicy network (mergePermissionProfiles a b) := by
  intro oneByOne merged reversed
  have hnetwork : effectiveNetworkSandboxPolicy (effectiveNetworkSandboxPolicy network a) b =
      effectiveNetworkSandboxPolicy network (mergePermissionProfiles a b) := by
    refine NetworkSandboxPolicy.eq_of_isEnabled ?_
    rw [isEnabled_effectiveNetwork, isEnabled_effectiveNetwork, isEnabled_effectiveNetwork,
      networkEnabled_merge, Option.any_some, Option.any_some, Bool.or_assoc]
  have hreversed : effectiveNetworkSandboxPolicy network (mergePermissionProfiles b a) =
      effectiveNetworkSandboxPolicy network (mergePermissionProfiles a b) := by
    refine NetworkSandboxPolicy.eq_of_isEnabled ?_
    rw [isEnabled_effectiveNetwork, isEnabled_effectiveNetwork, networkEnabled_merge, networkEnabled_merge,
      Bool.or_comm b.networkEnabled]
  by_cases hkind : policy.kind = .restricted
  · obtain ⟨hkindA, hentriesA, hdepthA⟩ := effective_of_restricted hkind (some a)
    obtain ⟨hkindAB, hentriesAB, hdepthAB⟩ := effective_of_restricted hkindA (some b)
    obtain ⟨hkindM, hentriesM, hdepthM⟩ := effective_of_restricted hkind (mergePermissionProfiles a b)
    obtain ⟨hkindR, hentriesR, -⟩ := effective_of_restricted hkind (mergePermissionProfiles b a)
    obtain ⟨hmerge, hdepth⟩ := merge_entries a b
    obtain ⟨hmergeR, -⟩ := merge_entries b a
    have hentries : oneByOne.entries = merged.entries := by
      rw [hentriesAB, hentriesA, hentriesM, hmerge, List.foldl_append]
      rfl
    have hsame : oneByOne.kind = merged.kind := hkindAB.trans hkindM.symm
    have hscan : oneByOne.scanDepth = merged.scanDepth := by
      refine scanBound_injective ?_
      rw [hdepthAB, hdepthA, hdepthM, hdepth, sup_assoc]
    have hmembers (entry : FileSystemSandboxEntry) : entry ∈ reversed.entries ↔ entry ∈ merged.entries := by
      rw [hentriesR, hentriesM, hmerge, hmergeR, mem_foldl_pushNew, mem_foldl_pushNew, List.mem_append,
        List.mem_append, or_comm (a := entry ∈ b.entries)]
    refine ⟨⟨fun path => ?_, ?_, hscan, hnetwork⟩, fun path => ?_, hreversed⟩
    · exact resolveAccess_congr hsame (fun entry => by rw [hentries]) env cwd path
    · rw [getUnreadableGlobsWithCwd, getUnreadableGlobsWithCwd, hsame, hentries]
    · exact resolveAccess_congr (hkindR.trans hkindM.symm) hmembers env cwd path
  · have hsame (profile : Option PermissionProfile) :
        effectiveFileSystemSandboxPolicy policy profile = policy := effective_of_not_restricted hkind profile
    have hone : oneByOne = policy := by
      show effectiveFileSystemSandboxPolicy (effectiveFileSystemSandboxPolicy policy a) b = policy
      rw [hsame, hsame]
    have hmerged : merged = policy := hsame _
    have hreversed' : reversed = policy := hsame _
    rw [hone, hmerged, hreversed']
    exact ⟨⟨fun _ => rfl, rfl, rfl, hnetwork⟩, fun _ => rfl, hreversed⟩

end Supercodex.Permissions
