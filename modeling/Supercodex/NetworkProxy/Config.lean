import Supercodex.Library.Text
import Supercodex.Library.SortedMap

/-!
# The network proxy's configuration

`network-proxy/src/config.rs`: the settings with their domain and Unix-socket permissions, and the
lists read off them.
-/

namespace Supercodex.NetworkProxy

/-- `NetworkDomainPermission`. -/
inductive NetworkDomainPermission where
  | none
  | allow
  | deny
deriving DecidableEq

/-- The variant order `None < Allow < Deny`. -/
def NetworkDomainPermission.rank : NetworkDomainPermission → ℕ
  | .none => 0
  | .allow => 1
  | .deny => 2

/-- The name of a variant where it is serialised (`rename_all = "lowercase"`). -/
def NetworkDomainPermission.name : NetworkDomainPermission → Text
  | .none => "none".toList
  | .allow => "allow".toList
  | .deny => "deny".toList

/-- The variant of a name. -/
def NetworkDomainPermission.parse (name : Text) : Option NetworkDomainPermission :=
  [NetworkDomainPermission.none, .allow, .deny].find? (·.name = name)

/-- `NetworkDomainPermissionEntry`. -/
structure NetworkDomainPermissionEntry where
  pattern : Text
  permission : NetworkDomainPermission
deriving DecidableEq

/-- `NetworkDomainPermissions`. -/
structure NetworkDomainPermissions where
  entries : List NetworkDomainPermissionEntry := []
deriving DecidableEq

/-- `NetworkUnixSocketPermission`. -/
inductive NetworkUnixSocketPermission where
  | allow
  | none
deriving DecidableEq

/-- `NetworkMode`. -/
inductive NetworkMode where
  | limited
  | full
deriving DecidableEq

/-- `NetworkProxySettings`. The entries of `unixSockets` are those of a `BTreeMap`, in the order of
their keys. -/
structure NetworkProxySettings where
  enabled : Bool := false
  proxyUrl : Text := "http://127.0.0.1:3128".toList
  enableSocks5 : Bool := true
  socksUrl : Text := "http://127.0.0.1:8081".toList
  enableSocks5Udp : Bool := true
  allowUpstreamProxy : Bool := true
  dangerouslyAllowNonLoopbackProxy : Bool := false
  dangerouslyAllowAllUnixSockets : Bool := false
  mode : NetworkMode := .full
  domains : Option NetworkDomainPermissions := .none
  unixSockets : Option (List (Text × NetworkUnixSocketPermission)) := .none
  allowLocalBinding : Bool := false
  mitm : Bool := false
deriving DecidableEq

/-- `NetworkProxyConfig`. -/
structure NetworkProxyConfig where
  network : NetworkProxySettings := {}
deriving DecidableEq

namespace NetworkDomainPermissions

/-- One round of the loop of `effective_entries`: the entries found so far, in the order of their
first occurrence, and one more. A pattern seen again keeps the higher permission. -/
def mergeEntry (effective : List NetworkDomainPermissionEntry)
    (entry : NetworkDomainPermissionEntry) : List NetworkDomainPermissionEntry :=
  if effective.any (fun seen => seen.pattern == entry.pattern) then
    effective.map fun seen =>
      if seen.pattern == entry.pattern && seen.permission.rank < entry.permission.rank then entry
      else seen
  else effective ++ [entry]

/-- `NetworkDomainPermissions::effective_entries`. -/
def effectiveEntries (domains : NetworkDomainPermissions) : List NetworkDomainPermissionEntry :=
  domains.entries.foldl mergeEntry []

/-- `Serialize` of the permissions: the pairs of the map that is written. -/
def serialize (domains : NetworkDomainPermissions) : List (Text × Text) :=
  let map : SortedMap Text NetworkDomainPermission :=
    .ofList (domains.effectiveEntries.map fun entry => (entry.pattern, entry.permission))
  map.entries.map fun entry => (entry.1, entry.2.name)

/-- `Deserialize` of the permissions, from the pairs of a map. -/
def deserialize (pairs : List (Text × Text)) : Option NetworkDomainPermissions :=
  (pairs.mapM fun pair => (NetworkDomainPermission.parse pair.2).map (pair.1, ·)).map fun read =>
    let map : SortedMap Text NetworkDomainPermission := .ofList read
    ⟨map.entries.map fun entry => ⟨entry.1, entry.2⟩⟩

end NetworkDomainPermissions

namespace NetworkProxySettings

/-- `NetworkProxySettings::domain_entries`: an empty list reads as none. -/
def domainEntries (settings : NetworkProxySettings) (permission : NetworkDomainPermission) :
    Option (List Text) :=
  (settings.domains.map fun domains =>
      (domains.effectiveEntries.filter (·.permission == permission)).map (·.pattern)).filter
    (!·.isEmpty)

/-- `NetworkProxySettings::allowed_domains`. -/
def allowedDomains (settings : NetworkProxySettings) : Option (List Text) :=
  settings.domainEntries .allow

/-- `NetworkProxySettings::denied_domains`. -/
def deniedDomains (settings : NetworkProxySettings) : Option (List Text) :=
  settings.domainEntries .deny

/-- `NetworkProxySettings::allow_unix_sockets`. -/
def allowUnixSockets (settings : NetworkProxySettings) : List Text :=
  match settings.unixSockets with
  | .none => []
  | some entries => (entries.filter (·.2 == .allow)).map (·.1)

/-- `NetworkProxySettings::upsert_domain_permission`. -/
def upsertDomainPermission (settings : NetworkProxySettings) (host : Text)
    (permission : NetworkDomainPermission) (normalize : Text → Text) : NetworkProxySettings :=
  let kept := (settings.domains.getD {}).entries.filter fun entry =>
    normalize entry.pattern != normalize host
  { settings with domains := some ⟨kept ++ [⟨host, permission⟩]⟩ }

end NetworkProxySettings

/-- `ValidatedUnixSocketPath::parse` on Unix, where the absolute paths are those that start with
`'/'`: does it accept the path? -/
def validatedUnixSocketPath (socketPath : Text) : Bool := socketPath.head? == some '/'

/-- `validate_unix_socket_allowlist_paths`: the index of the first path that is not absolute. -/
def validateUnixSocketAllowlistPaths (config : NetworkProxyConfig) : Except ℕ Unit :=
  match config.network.allowUnixSockets.findIdx? (!validatedUnixSocketPath ·) with
  | some index => .error index
  | .none => .ok ()

end Supercodex.NetworkProxy

/-!
# Effective domain permissions

The effective entries are the strictest ones of their patterns. They have distinct patterns, so that a map of
them holds them all, and what is read back from the map is its own effective entries.
-/

namespace Supercodex.NetworkProxy

lemma NetworkDomainPermission.rank_injective : Function.Injective NetworkDomainPermission.rank := by
  intro p q h
  cases p <;> cases q <;> first | rfl | cases h

lemma NetworkDomainPermission.parse_name (permission : NetworkDomainPermission) :
    NetworkDomainPermission.parse permission.name = some permission := by
  cases permission <;> decide

variable {domains : NetworkDomainPermissions}

namespace NetworkDomainPermissions

/-- An entry that no other entry of its pattern is stricter than. -/
def Strictest (entries : List NetworkDomainPermissionEntry) (entry : NetworkDomainPermissionEntry) : Prop :=
  entry ∈ entries ∧ ∀ other ∈ entries, other.pattern = entry.pattern →
    other.permission.rank ≤ entry.permission.rank

/-- What the loop of `effective_entries` has found after some entries. -/
structure Merged (entries effective : List NetworkDomainPermissionEntry) : Prop where
  nodup : (effective.map (·.pattern)).Nodup
  strictest : ∀ entry ∈ effective, Strictest entries entry
  covered : ∀ entry ∈ entries, ∃ seen ∈ effective, seen.pattern = entry.pattern

lemma Strictest.concat {entries : List NetworkDomainPermissionEntry} {seen entry : NetworkDomainPermissionEntry}
    (h : Strictest entries seen)
    (hentry : entry.pattern = seen.pattern → entry.permission.rank ≤ seen.permission.rank) :
    Strictest (entries ++ [entry]) seen := by
  refine ⟨List.mem_append_left _ h.1, ?_⟩
  intro other hother hpattern
  rcases List.mem_append.mp hother with hother | hother
  · exact h.2 other hother hpattern
  · rw [List.mem_singleton] at hother
    subst hother
    exact hentry hpattern

variable {entry : NetworkDomainPermissionEntry}

variable {entries effective : List NetworkDomainPermissionEntry}

/-- A pattern that is seen for the first time. -/
lemma Merged.push (h : Merged entries effective)
    (hnew : ∀ seen ∈ effective, seen.pattern ≠ entry.pattern) :
    Merged (entries ++ [entry]) (effective ++ [entry]) where
  nodup := by
    rw [List.map_append, List.map_singleton, List.nodup_append]
    refine ⟨h.nodup, List.nodup_singleton _, ?_⟩
    intro pattern hpattern other hother
    obtain ⟨seen, hseen, rfl⟩ := List.mem_map.mp hpattern
    rw [List.mem_singleton] at hother
    subst hother
    exact hnew seen hseen
  strictest := by
    intro seen hseen
    rcases List.mem_append.mp hseen with hseen | hseen
    · exact (h.strictest seen hseen).concat fun heq => absurd heq.symm (hnew seen hseen)
    rw [List.mem_singleton] at hseen
    subst hseen
    refine ⟨List.mem_append_right _ List.mem_cons_self, ?_⟩
    intro other hother hpattern
    rcases List.mem_append.mp hother with hother | hother
    · obtain ⟨seen', hseen', heq⟩ := h.covered other hother
      exact absurd (heq.trans hpattern) (hnew seen' hseen')
    · rw [List.mem_singleton.mp hother]
  covered := by
    intro other hother
    rcases List.mem_append.mp hother with hother | hother
    · obtain ⟨seen, hseen, heq⟩ := h.covered other hother
      exact ⟨seen, List.mem_append_left _ hseen, heq⟩
    · rw [List.mem_singleton.mp hother]
      exact ⟨entry, List.mem_append_right _ List.mem_cons_self, rfl⟩

/-- What a pattern that is seen again leaves of an entry. -/
def raised (entry seen : NetworkDomainPermissionEntry) : NetworkDomainPermissionEntry :=
  if seen.pattern == entry.pattern && seen.permission.rank < entry.permission.rank then entry else seen

lemma raised_pattern (entry seen : NetworkDomainPermissionEntry) : (raised entry seen).pattern = seen.pattern := by
  unfold raised
  split
  · rename_i h
    rw [Bool.and_eq_true, beq_iff_eq] at h
    exact h.1.symm
  · rfl

/-- A pattern that is seen again keeps its place. -/
lemma Merged.raise (h : Merged entries effective)
    (hold : ∃ seen ∈ effective, seen.pattern = entry.pattern) :
    Merged (entries ++ [entry]) (effective.map (raised entry)) where
  nodup := by
    have hpatterns : (effective.map (raised entry)).map (·.pattern) = effective.map (·.pattern) := by
      rw [List.map_map]
      apply List.map_congr_left
      intro seen _
      exact raised_pattern entry seen
    rw [hpatterns]
    exact h.nodup
  strictest := by
    intro kept hkept
    obtain ⟨seen, hseen, rfl⟩ := List.mem_map.mp hkept
    unfold raised
    split
    · rename_i hraise
      rw [Bool.and_eq_true, beq_iff_eq, decide_eq_true_eq] at hraise
      refine ⟨List.mem_append_right _ List.mem_cons_self, ?_⟩
      intro other hother hpattern
      rcases List.mem_append.mp hother with hother | hother
      · have hle := (h.strictest seen hseen).2 other hother (hpattern.trans hraise.1.symm)
        omega
      · rw [List.mem_singleton.mp hother]
    · rename_i hkeep
      rw [Bool.and_eq_true, beq_iff_eq, decide_eq_true_eq] at hkeep
      apply (h.strictest seen hseen).concat
      intro heq
      by_contra hlt
      exact hkeep ⟨heq.symm, Nat.lt_of_not_le hlt⟩
  covered := by
    intro other hother
    have hseen : ∃ seen ∈ effective, seen.pattern = other.pattern := by
      rcases List.mem_append.mp hother with hother | hother
      · exact h.covered other hother
      · rw [List.mem_singleton.mp hother]
        exact hold
    obtain ⟨seen, hseen, heq⟩ := hseen
    exact ⟨raised entry seen, List.mem_map_of_mem hseen, (raised_pattern entry seen).trans heq⟩

lemma merged_mergeEntry (h : Merged entries effective) :
    Merged (entries ++ [entry]) (mergeEntry effective entry) := by
  unfold mergeEntry
  split
  · rename_i hold
    apply h.raise
    simpa using hold
  · rename_i hnew
    apply h.push
    simpa using hnew

lemma merged_effectiveEntries (domains : NetworkDomainPermissions) :
    Merged domains.entries domains.effectiveEntries := by
  unfold effectiveEntries
  induction domains.entries using List.reverseRecOn with
  | nil => exact ⟨List.nodup_nil, List.forall_mem_nil _, List.forall_mem_nil _⟩
  | append_singleton entries entry ih =>
    rw [List.foldl_concat]
    exact merged_mergeEntry ih

lemma mem_effectiveEntries :
    entry ∈ domains.effectiveEntries ↔ Strictest domains.entries entry := by
  have hmerged := merged_effectiveEntries domains
  constructor
  · exact hmerged.strictest entry
  · intro h
    obtain ⟨seen, hseen, heq⟩ := hmerged.covered entry h.1
    obtain ⟨hmem, hmax⟩ := hmerged.strictest seen hseen
    have hrank : seen.permission.rank = entry.permission.rank :=
      Nat.le_antisymm (h.2 seen hmem heq) (hmax entry h.1 heq.symm)
    have hsame : seen = entry := by
      cases seen
      cases entry
      cases heq
      cases NetworkDomainPermission.rank_injective hrank
      rfl
    exact hsame ▸ hseen

lemma mem_effectiveEntries_of_nodup (h : (domains.entries.map (·.pattern)).Nodup) :
    entry ∈ domains.effectiveEntries ↔ entry ∈ domains.entries := by
  rw [mem_effectiveEntries]
  constructor
  · exact fun hstrictest => hstrictest.1
  · intro hentry
    refine ⟨hentry, ?_⟩
    intro other hother hpattern
    rw [List.inj_on_of_nodup_map h hother hentry hpattern]

/-! ## What is written and read back -/

lemma parse_names (entries : List (Text × NetworkDomainPermission)) :
    ((entries.map fun entry => (entry.1, entry.2.name)).mapM fun pair =>
      (NetworkDomainPermission.parse pair.2).map (pair.1, ·)) = some entries := by
  induction entries with
  | nil => rfl
  | cons entry entries ih =>
    rw [List.map_cons, List.mapM_cons, ih, NetworkDomainPermission.parse_name]
    rfl

/-- What is read back has the effective entries of what was written. -/
lemma deserialize_serialize (domains : NetworkDomainPermissions) :
    ∃ domains', deserialize domains.serialize = some domains' ∧
      ∀ entry, entry ∈ domains'.effectiveEntries ↔ entry ∈ domains.effectiveEntries := by
  let pairs := domains.effectiveEntries.map fun entry => (entry.pattern, entry.permission)
  let read := SortedMap.ofList (SortedMap.ofList pairs).entries
  have hpairs : (pairs.map Prod.fst).Nodup := by
    rw [List.map_map]
    exact (merged_effectiveEntries domains).nodup
  refine ⟨⟨read.entries.map fun entry => ⟨entry.1, entry.2⟩⟩, ?_, ?_⟩
  · show Option.map _ ((List.map _ (SortedMap.ofList pairs).entries).mapM _) = _
    rw [parse_names]
    rfl
  · intro entry
    have hpatterns : ((read.entries.map fun entry =>
        (⟨entry.1, entry.2⟩ : NetworkDomainPermissionEntry)).map (·.pattern)).Nodup := by
      rw [List.map_map]
      exact read.nodup_keys
    have hread : entry ∈ (read.entries.map fun entry => (⟨entry.1, entry.2⟩ : NetworkDomainPermissionEntry)) ↔
        (entry.pattern, entry.permission) ∈ read.entries := by
      rw [List.mem_map]
      constructor
      · rintro ⟨e, he, rfl⟩
        exact he
      · intro h
        exact ⟨_, h, rfl⟩
    have hwritten : (entry.pattern, entry.permission) ∈ pairs ↔ entry ∈ domains.effectiveEntries := by
      rw [List.mem_map]
      constructor
      · rintro ⟨e, he, heq⟩
        cases e
        cases entry
        cases heq
        exact he
      · intro h
        exact ⟨entry, h, rfl⟩
    rw [mem_effectiveEntries_of_nodup hpatterns, hread,
      SortedMap.mem_ofList (SortedMap.nodup_keys _), SortedMap.mem_ofList hpairs, hwritten]

end NetworkDomainPermissions

lemma NetworkProxySettings.mem_domainEntries {settings : NetworkProxySettings}
    {permission : NetworkDomainPermission} {pattern : Text} :
    pattern ∈ ({ settings with domains := some domains }.domainEntries permission).getD [] ↔
      ⟨pattern, permission⟩ ∈ domains.effectiveEntries := by
  have hfilter : ∀ l : List Text, ((some l).filter (!·.isEmpty)).getD [] = l := by
    intro l
    cases l <;> rfl
  unfold domainEntries
  rw [Option.map_some, hfilter, List.mem_map]
  constructor
  · rintro ⟨entry, hentry, rfl⟩
    rw [List.mem_filter, beq_iff_eq] at hentry
    rw [← hentry.2]
    exact hentry.1
  · intro h
    exact ⟨_, List.mem_filter.mpr ⟨h, beq_self_eq_true _⟩, rfl⟩

open NetworkDomainPermissions in
/-- The effective entries are one for each pattern, the strictest one; no pattern is both allowed and denied;
and what is read back from the serialised permissions allows and denies the same patterns. -/
theorem effective_permissions_round_trip (domains : NetworkDomainPermissions) :
    (domains.effectiveEntries.map (·.pattern)).Nodup ∧
    (∀ pattern, pattern ∈ domains.effectiveEntries.map (·.pattern) ↔ pattern ∈ domains.entries.map (·.pattern)) ∧
    (∀ entry ∈ domains.effectiveEntries, entry ∈ domains.entries ∧
      ∀ other ∈ domains.entries, other.pattern = entry.pattern →
        other.permission.rank ≤ entry.permission.rank) ∧
    ∀ settings : NetworkProxySettings,
      let before := { settings with domains := some domains }
      (before.allowedDomains.getD []).Disjoint (before.deniedDomains.getD []) ∧
      ∃ domains', deserialize domains.serialize = some domains' ∧
        let after := { settings with domains := some domains' }
        (∀ pattern, pattern ∈ after.allowedDomains.getD [] ↔ pattern ∈ before.allowedDomains.getD []) ∧
        ∀ pattern, pattern ∈ after.deniedDomains.getD [] ↔ pattern ∈ before.deniedDomains.getD [] := by
  have hmerged := merged_effectiveEntries domains
  refine ⟨hmerged.nodup, ?_, hmerged.strictest, ?_⟩
  · intro pattern
    constructor
    · intro h
      obtain ⟨entry, hentry, rfl⟩ := List.mem_map.mp h
      exact List.mem_map_of_mem (hmerged.strictest entry hentry).1
    · intro h
      obtain ⟨entry, hentry, rfl⟩ := List.mem_map.mp h
      obtain ⟨seen, hseen, heq⟩ := hmerged.covered entry hentry
      exact List.mem_map.mpr ⟨seen, hseen, heq⟩
  · intro settings before
    obtain ⟨domains', hread, hsame⟩ := deserialize_serialize domains
    refine ⟨?_, domains', hread, ?_, ?_⟩
    · intro pattern hallowed hdenied
      have hallow := NetworkProxySettings.mem_domainEntries.mp hallowed
      have hdeny := NetworkProxySettings.mem_domainEntries.mp hdenied
      cases List.inj_on_of_nodup_map hmerged.nodup hallow hdeny rfl
    · intro pattern
      exact NetworkProxySettings.mem_domainEntries.trans
        ((hsame _).trans NetworkProxySettings.mem_domainEntries.symm)
    · intro pattern
      exact NetworkProxySettings.mem_domainEntries.trans
        ((hsame _).trans NetworkProxySettings.mem_domainEntries.symm)

end Supercodex.NetworkProxy
