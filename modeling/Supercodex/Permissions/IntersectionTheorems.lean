import Supercodex.Permissions.Intersection

/-!
# What an intersection of profiles permits

`Meet` states the intersection on resolved entries: the granted entries that the request covers,
and the denials of both sides that overlap with one of them. An intersection never exceeds the
grant. It exceeds the request exactly where the request narrows a write grant to reading: only
denials are carried over, so a read entry of the request below an accepted write entry is lost.
-/

namespace Supercodex.Permissions

open Supercodex.Path FileSystemSandboxPolicy

/-! ## The meet of two sets of entries -/

variable {rR rG rI : List ResolvedFileSystemEntry}

/-- Does the request deny reading a path by an entry other than one for the root? -/
def Denied (rR : List ResolvedFileSystemEntry) (q : AbsolutePath) : Prop :=
  ∃ u ∈ rR, u.mode = .none ∧ u.path ≠ [] ∧ u.path <+: q

/-- A granted entry that the request covers at its own path. -/
structure Accepted (rR rG : List ResolvedFileSystemEntry) (g : ResolvedFileSystemEntry) : Prop where
  mem : g ∈ rG
  notDenied : ¬ Denied rR g.path
  covered : accessCovers (access rR g.path) g.mode = true

/-- A denial of either side that overlaps with an accepted entry. -/
structure Retained (rR rG : List ResolvedFileSystemEntry) (d : ResolvedFileSystemEntry) : Prop where
  mem : d ∈ rR ∨ d ∈ rG
  mode : d.mode = .none
  overlaps : ∃ g, Accepted rR rG g ∧ (g.path <+: d.path ∨ d.path <+: g.path)

/-- `rI` holds what is accepted and what is retained. -/
def Meet (rR rG rI : List ResolvedFileSystemEntry) : Prop :=
  ∀ e, e ∈ rI ↔ Accepted rR rG e ∨ Retained rR rG e

variable {g : ResolvedFileSystemEntry}

lemma Accepted.mode_ne_none (h : Accepted rR rG g) :
    g.mode ≠ .none := by
  intro hmode
  have hcov := h.covered
  rw [hmode] at hcov
  exact absurd hcov (by simp [accessCovers])

lemma Accepted.access_eq_write (h : Accepted rR rG g)
    (hmode : g.mode = .write) : access rR g.path = .write := by
  have hcov := h.covered
  rw [hmode] at hcov
  exact (FileSystemAccessMode.canWrite_iff _).mp hcov

lemma Accepted.access_ne_none (h : Accepted rR rG g) :
    access rR g.path ≠ .none := by
  have hcov := h.covered
  revert hcov
  cases access rR g.path <;> cases g.mode <;> simp [accessCovers, FileSystemAccessMode.canRead,
    FileSystemAccessMode.canWrite]

lemma Meet.accepted (hI : Meet rR rG rI) {e : ResolvedFileSystemEntry} (he : e ∈ rI)
    (hmode : e.mode ≠ .none) : Accepted rR rG e := by
  rcases (hI e).mp he with h | h
  · exact h
  · exact absurd h.mode hmode

lemma Meet.not_none_between (hI : Meet rR rG rI) {p : AbsolutePath} {d u : ResolvedFileSystemEntry}
    (hd : PathRule.Decides rI p d) (hmode : d.mode ≠ .none) (hu : u ∈ rR ∨ u ∈ rG)
    (hnone : u.mode = .none) (hdu : d.path <+: u.path) : ¬ u.path <+: p := by
  intro hup
  have hret : Retained rR rG u := ⟨hu, hnone, d, hI.accepted hd.mem hmode, Or.inl hdu⟩
  rcases hd.longest u ((hI u).mpr (Or.inr hret)) hup with hlt | ⟨-, hle⟩
  · have := hdu.length_le
    omega
  · rw [hnone] at hle
    revert hle hmode
    cases d.mode <;> decide

lemma Accepted.access_below {d : ResolvedFileSystemEntry} (hd : Accepted rR rG d)
    {q : AbsolutePath} (hdq : d.path <+: q)
    (hfree : ∀ u ∈ rR, u.mode = .none → d.path <+: u.path → ¬ u.path <+: q) :
    ∃ v, PathRule.Decides rR q v ∧ v.mode ≠ .none := by
  obtain ⟨e, he, -⟩ := exists_decides_of_access hd.access_ne_none
  obtain ⟨v, -, hv⟩ := PathRule.exists_decides he.mem (he.covers.trans hdq)
  refine ⟨v, hv, ?_⟩
  intro hnone
  rcases List.prefix_or_prefix_of_prefix hv.covers hdq with habove | hbelow
  · -- the denial would decide at the accepted entry as well
    have := access_of_decides (hv.between habove hdq)
    rw [hnone] at this
    exact hd.access_ne_none this
  · exact hfree v hv.mem hnone hbelow hv.covers

lemma Accepted.read_below {d x : ResolvedFileSystemEntry} (hd : Accepted rR rG d) (hx : x ∈ rG)
    (hread : x.mode = .read) (hdx : d.path <+: x.path)
    (hfree : ∀ u ∈ rR, u.mode = .none → d.path <+: u.path → ¬ u.path <+: x.path) :
    Accepted rR rG x := by
  refine ⟨hx, ?_, ?_⟩
  · intro ⟨u, hu, hnone, hne, hux⟩
    rcases List.prefix_or_prefix_of_prefix hux hdx with habove | hbelow
    · exact hd.notDenied ⟨u, hu, hnone, hne, habove⟩
    · exact hfree u hu hnone hbelow hux
  · obtain ⟨v, hv, hmode⟩ := hd.access_below hdx hfree
    rw [hread, access_of_decides hv]
    exact (FileSystemAccessMode.canRead_iff _).mpr hmode

/-! ## The meet and the grant -/

/-- A meet never exceeds the grant. -/
lemma Meet.le_granted (hI : Meet rR rG rI) (p : AbsolutePath) :
    (access rI p).capability ≤ (access rG p).capability := by
  by_cases hnone : access rI p = .none
  · rw [hnone]
    exact Nat.zero_le _
  obtain ⟨d, hd, hmode⟩ := exists_decides_of_access hnone
  rw [← hmode] at hnone ⊢
  have hacc := hI.accepted hd.mem hnone
  obtain ⟨e, -, he⟩ := PathRule.exists_decides hacc.mem hd.covers
  rw [access_of_decides he]
  have hde : d.path <+: e.path := he.prefix_of_covers hacc.mem hd.covers
  cases hem : e.mode with
  | write => cases d.mode <;> decide
  | none =>
    exact absurd he.covers (hI.not_none_between hd hnone (Or.inr he.mem) hem hde)
  | read =>
    cases hdm : d.mode with
    | none => exact absurd hdm hnone
    | read => exact Nat.le_refl _
    | write =>
      -- the read entry is accepted too, and more specific than the one that decides
      have hfree : ∀ u ∈ rR, u.mode = .none → d.path <+: u.path → ¬ u.path <+: e.path :=
        fun u hu hun hdu hue =>
          hI.not_none_between hd hnone (Or.inl hu) hun hdu (hue.trans he.covers)
      have hin : e ∈ rI := (hI e).mpr (Or.inl (hacc.read_below he.mem hem hde hfree))
      have hlen : d.path.length < e.path.length := by
        rcases he.longest d hacc.mem hd.covers with hlt | ⟨-, hle⟩
        · exact hlt
        · rw [hdm, hem] at hle
          exact absurd hle (by decide)
      rcases hd.longest e hin he.covers with hlt | ⟨heq, -⟩
      · omega
      · rw [heq] at hlen
        omega

/-! ## The meet and the request -/

lemma Meet.le_requested_iff (hI : Meet rR rG rI) (p : AbsolutePath) :
    (access rI p).capability ≤ (access rR p).capability ↔
      ¬ (access rI p = .write ∧ access rR p = .read) := by
  constructor
  · intro h ⟨hw, hr⟩
    rw [hw, hr] at h
    exact absurd h (by decide)
  · intro h
    by_cases hnone : access rI p = .none
    · rw [hnone]
      exact Nat.zero_le _
    obtain ⟨d, hd, hmode⟩ := exists_decides_of_access hnone
    rw [← hmode] at hnone h ⊢
    have hfree : ∀ u ∈ rR, u.mode = .none → d.path <+: u.path → ¬ u.path <+: p :=
      fun u hu => hI.not_none_between hd hnone (Or.inl hu)
    obtain ⟨v, hv, hvm⟩ := (hI.accepted hd.mem hnone).access_below hd.covers hfree
    rw [access_of_decides hv] at h ⊢
    revert h hvm
    cases d.mode <;> cases v.mode <;> decide

/-- The request narrows a write entry of the grant to reading, and no denial and no read entry of
the grant comes between the two. -/
def Overreach (rR rG : List ResolvedFileSystemEntry) : Prop :=
  ∃ r ∈ rR, r.mode = .read ∧ access rR r.path = .read ∧
    ∃ g ∈ rG, g.mode = .write ∧ g.path <+: r.path ∧ access rR g.path = .write ∧
      ¬ Denied rR g.path ∧
      (∀ u, u ∈ rR ∨ u ∈ rG → u.mode = .none → g.path <+: u.path → ¬ u.path <+: r.path) ∧
      ∀ x ∈ rG, x.mode = .read → g.path <+: x.path → x.path ≠ g.path → ¬ x.path <+: r.path

/-- A path that shows the excess leads to entries that do. -/
lemma Meet.overreach_of_excess (hI : Meet rR rG rI) {p : AbsolutePath}
    (hw : access rI p = .write) (hr : access rR p = .read) : Overreach rR rG := by
  have hwn : access rI p ≠ .none := by
    rw [hw]
    simp
  have hrn : access rR p ≠ .none := by
    rw [hr]
    simp
  obtain ⟨g, hg, hgm⟩ := exists_decides_of_access hwn
  obtain ⟨r, hrd, hrm⟩ := exists_decides_of_access hrn
  rw [hw] at hgm
  rw [hr] at hrm
  have hgn : g.mode ≠ .none := by
    rw [hgm]
    simp
  have hacc := hI.accepted hg.mem hgn
  have hwrite := hacc.access_eq_write hgm
  have hgr : g.path <+: r.path := by
    refine (List.prefix_or_prefix_of_prefix hg.covers hrd.covers).resolve_right ?_
    intro hrg
    -- the read entry would decide at the granted one
    rw [access_of_decides (hrd.between hrg hg.covers), hrm] at hwrite
    cases hwrite
  have hfree : ∀ u, u ∈ rR ∨ u ∈ rG → u.mode = .none → g.path <+: u.path →
      ¬ u.path <+: r.path :=
    fun u hu hun hgu hur => hI.not_none_between hg hgn hu hun hgu (hur.trans hrd.covers)
  refine ⟨r, hrd.mem, hrm, by rw [access_of_decides hrd.self, hrm], g, hacc.mem, hgm, hgr, hwrite,
    hacc.notDenied, hfree, ?_⟩
  intro x hx hxm hgx hne hxr
  have hxfree : ∀ u ∈ rR, u.mode = .none → g.path <+: u.path → ¬ u.path <+: x.path :=
    fun u hu hun hgu hux => hfree u (Or.inl hu) hun hgu (hux.trans hxr)
  have hin : x ∈ rI := (hI x).mpr (Or.inl (hacc.read_below hx hxm hgx hxfree))
  rcases hg.longest x hin (hxr.trans hrd.covers) with hlt | ⟨heq, -⟩
  · have := hgx.length_le
    omega
  · exact hne heq

lemma Meet.excess_of_overreach (hI : Meet rR rG rI) (h : Overreach rR rG) :
    ∃ p, access rI p = .write ∧ access rR p = .read := by
  obtain ⟨r, -, -, hread, g, hgG, hgm, hgr, hwrite, hnd, hfree, hreads⟩ := h
  have hacc : Accepted rR rG g := ⟨hgG, hnd, by rw [hgm, hwrite]; rfl⟩
  have hgI : g ∈ rI := (hI g).mpr (Or.inl hacc)
  obtain ⟨d, -, hd⟩ := PathRule.exists_decides hgI hgr
  have hgd : g.path <+: d.path := hd.prefix_of_covers hgI hgr
  refine ⟨r.path, ?_, hread⟩
  rw [access_of_decides hd]
  cases hdm : d.mode with
  | write => rfl
  | none =>
    rcases (hI d).mp hd.mem with hda | hdr
    · exact absurd hdm hda.mode_ne_none
    · exact absurd hd.covers (hfree d hdr.mem hdm hgd)
  | read =>
    have hda := hI.accepted hd.mem (by rw [hdm]; simp)
    by_cases heq : d.path = g.path
    · -- a write entry beats a read entry with the same path
      rcases hd.longest g hgI hgr with hlt | ⟨-, hle⟩
      · rw [heq] at hlt
        omega
      · rw [hgm, hdm] at hle
        exact absurd hle (by decide)
    · exact absurd hd.covers (hreads d hda.mem hdm hgd heq)

lemma Meet.le_requested_forall_iff (hI : Meet rR rG rI) :
    (∀ p, (access rI p).capability ≤ (access rR p).capability) ↔ ¬ Overreach rR rG := by
  constructor
  · intro h hover
    obtain ⟨p, hw, hr⟩ := hI.excess_of_overreach hover
    exact (hI.le_requested_iff p).mp (h p) ⟨hw, hr⟩
  · intro h p
    rw [hI.le_requested_iff]
    intro ⟨hw, hr⟩
    exact h (hI.overreach_of_excess hw hr)

/-! ## Resolved entries of profiles -/

section
variable {buildGlobMatcher : Text → Option (Text → Bool)} {env : Env} {cwd : AbsolutePath}

/-- The entries of a restricted policy, resolved. -/
def rulesOf (env : Env) (cwd : AbsolutePath) (entries : List FileSystemSandboxEntry) :
    List ResolvedFileSystemEntry :=
  (FileSystemSandboxPolicy.restricted entries).resolvedEntriesWithCwd env cwd

variable {r : ResolvedFileSystemEntry}

lemma mem_rulesOf {entries : List FileSystemSandboxEntry} :
    r ∈ rulesOf env cwd entries ↔
      ∃ e ∈ entries, resolveEntryPath env cwd e.path = some r.path ∧ e.access = r.mode := by
  unfold rulesOf resolvedEntriesWithCwd
  rw [List.mem_filterMap]
  constructor
  · intro ⟨e, he, hr⟩
    obtain ⟨path, hpath, rfl⟩ := Option.map_eq_some_iff.mp hr
    exact ⟨e, he, hpath, rfl⟩
  · intro ⟨e, he, hpath, hmode⟩
    refine ⟨e, he, Option.map_eq_some_iff.mpr ⟨r.path, hpath, ?_⟩⟩
    rw [hmode]

lemma resolvePermissionPath_eq (path : FileSystemPath) :
    resolvePermissionPath env cwd path = resolveEntryPath env cwd path := by
  match path with
  | .path _ => rfl
  | .globPattern _ => rfl
  | .special value => cases value <;> rfl

lemma access_materialize (entry : FileSystemSandboxEntry) :
    (materializeCwdDependentEntry env cwd entry).access = entry.access := by
  unfold materializeCwdDependentEntry
  split
  · split <;> rfl
  · split <;> rfl
  · rfl
  · rfl
  · rfl

/-- A materialized entry means under every directory what the entry meant under `cwd`. -/
lemma resolveEntryPath_materialize (entry : FileSystemSandboxEntry) (later : AbsolutePath) :
    resolveEntryPath env later (materializeCwdDependentEntry env cwd entry).path =
      resolveEntryPath env cwd entry.path := by
  obtain ⟨path, mode⟩ := entry
  match path with
  | .path _ => rfl
  | .globPattern _ => rfl
  | .special .root => rfl
  | .special .minimal => rfl
  | .special .currentWorkingDirectory => rfl
  | .special (.projectRoots none) => rfl
  | .special (.projectRoots (some _)) => rfl
  | .special .tmpdir => rfl
  | .special .slashTmp => rfl
  | .special (.unknown _ _) => rfl

lemma mem_foldl_pushNew {new acc : List FileSystemSandboxEntry} {e : FileSystemSandboxEntry} :
    e ∈ new.foldl pushNew acc ↔ e ∈ acc ∨ e ∈ new := by
  induction new generalizing acc with
  | nil => simp
  | cons a new ih =>
    have hpush : e ∈ pushNew acc a ↔ e ∈ acc ∨ e = a := by
      unfold pushNew
      split
      · rename_i ha
        constructor
        · exact Or.inl
        · intro h
          rcases h with h | rfl
          · exact h
          · exact ha
      · simp
    rw [List.foldl_cons, ih, hpush, List.mem_cons, or_assoc]

lemma isReadDenied_iff {entries : List FileSystemSandboxEntry} (hg : NoGlobs entries)
    (q : AbsolutePath) :
    isReadDenied buildGlobMatcher env cwd (.restricted entries) q = true ↔
      Denied (rulesOf env cwd entries) q := by
  have hglobs : getUnreadableGlobsWithCwd env cwd (.restricted entries) = [] :=
    getUnreadableGlobs_eq_nil hg
  unfold isReadDenied
  simp only [hglobs, List.any_nil, Bool.false_or, Bool.or_false, Bool.and_eq_true, List.any_eq_true,
    List.isPrefixOf_iff_prefix]
  unfold getUnreadableRootsWithCwd
  rw [if_neg (by simp [restricted])]
  simp only [mem_dedupAbsolutePaths, List.mem_map, List.mem_filter, Bool.and_eq_true,
    decide_eq_true_eq]
  constructor
  · rintro ⟨-, u, ⟨r, ⟨hr, ⟨hmode, -⟩, hne⟩, hu⟩, hpre⟩
    exact ⟨r, hr, hmode, by simpa using hne, hu ▸ hpre⟩
  · rintro ⟨r, hr, hmode, hne, hpre⟩
    obtain ⟨e, he, -, hem⟩ := mem_rulesOf.mp hr
    refine ⟨?_, r.path, ⟨r, ⟨hr, ⟨hmode, ?_⟩, by simpa using hne⟩, rfl⟩, hpre⟩
    · unfold hasDeniedReadRestrictions
      simp only [restricted, decide_true, Bool.true_and, List.any_eq_true,
        decide_eq_true_eq]
      exact ⟨e, he, hem.trans hmode⟩
    · rw [Bool.not_eq_true', ← Bool.not_eq_true, canReadPath_iff, not_not,
        resolveAccess_of_restricted rfl]
      exact access_of_none_mem hr hmode

/-! ## The intersection is a meet -/

variable {requested granted : FileSystemPermissions}

/-- A grant is within the request where the request covers its access and does not deny it. -/
lemma grantedWithinRequest_iff (hR : NoGlobs requested.entries) {g : FileSystemSandboxEntry}
    {q : AbsolutePath} (hq : resolveEntryPath env cwd g.path = some q) :
    grantedFileSystemEntryWithinRequest buildGlobMatcher env cwd requested g = true ↔
      ¬ Denied (rulesOf env cwd requested.entries) q ∧
        accessCovers (access (rulesOf env cwd requested.entries) q) g.access = true := by
  have hcanRead : accessCovers (access (rulesOf env cwd requested.entries) q) g.access = true →
      g.access.canRead = true := by
    cases g.access <;> simp [accessCovers, FileSystemAccessMode.canRead]
  unfold grantedFileSystemEntryWithinRequest
  simp only [resolvePermissionPath_eq, hq, Bool.and_eq_true, Bool.not_eq_true']
  rw [← Bool.not_eq_true, isReadDenied_iff hR,
    resolveAccess_of_restricted rfl]
  constructor
  · rintro ⟨-, hd, hc⟩
    exact ⟨hd, hc⟩
  · rintro ⟨hd, hc⟩
    exact ⟨hcanRead hc, hd, hc⟩

lemma mem_acceptedEntries {a : FileSystemSandboxEntry} :
    a ∈ acceptedEntries buildGlobMatcher env cwd requested granted ↔
      ∃ g ∈ granted.entries,
        grantedFileSystemEntryWithinRequest buildGlobMatcher env cwd requested g = true ∧
        materializeCwdDependentEntry env cwd g = a := by
  unfold acceptedEntries
  rw [mem_foldl_pushNew, List.mem_map]
  simp only [List.not_mem_nil, false_or, List.mem_filter, and_assoc]

lemma mem_rulesOf_acceptedEntries (hR : NoGlobs requested.entries) :
    r ∈ rulesOf env cwd (acceptedEntries buildGlobMatcher env cwd requested granted) ↔
      Accepted (rulesOf env cwd requested.entries) (rulesOf env cwd granted.entries) r := by
  rw [mem_rulesOf]
  constructor
  · intro ⟨a, ha, hpath, hmode⟩
    obtain ⟨g, hg, hwithin, rfl⟩ := mem_acceptedEntries.mp ha
    rw [resolveEntryPath_materialize] at hpath
    rw [access_materialize] at hmode
    obtain ⟨hd, hc⟩ := (grantedWithinRequest_iff hR hpath).mp hwithin
    exact ⟨mem_rulesOf.mpr ⟨g, hg, hpath, hmode⟩, hd, hmode ▸ hc⟩
  · intro ⟨hmem, hd, hc⟩
    obtain ⟨g, hg, hpath, hmode⟩ := mem_rulesOf.mp hmem
    have hwithin : grantedFileSystemEntryWithinRequest buildGlobMatcher env cwd requested g = true :=
      (grantedWithinRequest_iff hR hpath).mpr ⟨hd, hmode ▸ hc⟩
    refine ⟨_, mem_acceptedEntries.mpr ⟨g, hg, hwithin, rfl⟩, ?_, ?_⟩
    · rw [resolveEntryPath_materialize, hpath]
    · rw [access_materialize, hmode]

lemma denyEntryConstrains_iff {d : FileSystemSandboxEntry}
    (hd : ∀ pattern, d.path ≠ .globPattern pattern) {accepted : List FileSystemSandboxEntry} :
    denyEntryConstrainsAcceptedGrant env cwd d accepted = true ↔
      ∃ dp, resolveEntryPath env cwd d.path = some dp ∧
        ∃ g ∈ rulesOf env cwd accepted, g.mode ≠ .none ∧ (g.path <+: dp ∨ dp <+: g.path) := by
  have hconstrains : denyEntryConstrainsAcceptedGrant env cwd d accepted =
      (accepted.filter (·.access.canRead)).any fun entry =>
        (resolveEntryPath env cwd entry.path).any fun grantPath =>
          (resolveEntryPath env cwd d.path).any (pathsOverlap · grantPath) := by
    obtain ⟨path, mode⟩ := d
    unfold denyEntryConstrainsAcceptedGrant
    simp only [resolvePermissionPath_eq]
    cases path with
    | path _ => rfl
    | globPattern pattern => exact absurd rfl (hd pattern)
    | special _ => rfl
  rw [hconstrains]
  simp only [List.any_eq_true, List.mem_filter, FileSystemAccessMode.canRead_iff,
    Option.any_eq_true, pathsOverlap, Bool.or_eq_true, List.isPrefixOf_iff_prefix]
  constructor
  · rintro ⟨a, ⟨ha, hmode⟩, gp, hgp, dp, hdp, hover⟩
    exact ⟨dp, hdp, ⟨gp, a.access⟩, mem_rulesOf.mpr ⟨a, ha, hgp, rfl⟩, hmode, hover⟩
  · rintro ⟨dp, hdp, g, hg, hmode, hover⟩
    obtain ⟨a, ha, hgp, ham⟩ := mem_rulesOf.mp hg
    exact ⟨a, ⟨ha, ham ▸ hmode⟩, g.path, hgp, dp, hdp, hover⟩

lemma mem_rulesOf_constrainingDenyEntries {source accepted : List FileSystemSandboxEntry}
    (hs : NoGlobs source) :
    r ∈ rulesOf env cwd (constrainingDenyEntries env cwd source accepted) ↔
      r ∈ rulesOf env cwd source ∧ r.mode = .none ∧
        ∃ g ∈ rulesOf env cwd accepted, g.mode ≠ .none ∧
          (g.path <+: r.path ∨ r.path <+: g.path) := by
  rw [mem_rulesOf]
  unfold constrainingDenyEntries
  simp only [List.mem_map, List.mem_filter, decide_eq_true_eq]
  constructor
  · intro ⟨a, ⟨d, ⟨⟨hd, hnone⟩, hcon⟩, hda⟩, hpath, hmode⟩
    rw [← hda, resolveEntryPath_materialize] at hpath
    rw [← hda, access_materialize] at hmode
    obtain ⟨dp, hdp, hover⟩ := (denyEntryConstrains_iff (hs d hd)).mp hcon
    rw [hpath, Option.some.injEq] at hdp
    rw [← hdp] at hover
    exact ⟨mem_rulesOf.mpr ⟨d, hd, hpath, hmode⟩, hmode ▸ hnone, hover⟩
  · intro ⟨hmem, hnone, hover⟩
    obtain ⟨d, hd, hpath, hmode⟩ := mem_rulesOf.mp hmem
    refine ⟨_, ⟨d, ⟨⟨hd, hmode.trans hnone⟩, ?_⟩, rfl⟩, ?_, ?_⟩
    · exact (denyEntryConstrains_iff (hs d hd)).mpr ⟨r.path, hpath, hover⟩
    · rw [resolveEntryPath_materialize, hpath]
    · rw [access_materialize, hmode]

/-- The entries of an intersection resolve to the meet of the entries of both sides. -/
lemma meet_intersectFileSystem (hR : NoGlobs requested.entries) (hG : NoGlobs granted.entries) :
    Meet (rulesOf env cwd requested.entries) (rulesOf env cwd granted.entries)
      (rulesOf env cwd (intersectFileSystem buildGlobMatcher env cwd requested granted).entries) := by
  intro r
  let accepted := acceptedEntries buildGlobMatcher env cwd requested granted
  have hsplit : r ∈ rulesOf env cwd
        (intersectFileSystem buildGlobMatcher env cwd requested granted).entries ↔
      r ∈ rulesOf env cwd accepted ∨
        r ∈ rulesOf env cwd (constrainingDenyEntries env cwd requested.entries accepted) ∨
        r ∈ rulesOf env cwd (constrainingDenyEntries env cwd granted.entries accepted) := by
    simp only [mem_rulesOf, intersectFileSystem, mem_foldl_pushNew, or_and_right, exists_or,
      or_assoc]
    rfl
  have hover : (∃ g ∈ rulesOf env cwd accepted, g.mode ≠ .none ∧
        (g.path <+: r.path ∨ r.path <+: g.path)) ↔
      ∃ g, Accepted (rulesOf env cwd requested.entries) (rulesOf env cwd granted.entries) g ∧
        (g.path <+: r.path ∨ r.path <+: g.path) := by
    simp only [accepted, mem_rulesOf_acceptedEntries hR]
    constructor
    · intro ⟨g, hg, _, h⟩
      exact ⟨g, hg, h⟩
    · intro ⟨g, hg, h⟩
      exact ⟨g, hg, hg.mode_ne_none, h⟩
  rw [hsplit, mem_rulesOf_constrainingDenyEntries hR, mem_rulesOf_constrainingDenyEntries hG,
    hover, mem_rulesOf_acceptedEntries hR]
  constructor
  · intro h
    rcases h with h | ⟨hmem, hnone, h⟩ | ⟨hmem, hnone, h⟩
    · exact Or.inl h
    · exact Or.inr ⟨Or.inl hmem, hnone, h⟩
    · exact Or.inr ⟨Or.inr hmem, hnone, h⟩
  · intro h
    rcases h with h | ⟨hmem | hmem, hnone, h⟩
    · exact Or.inl h
    · exact Or.inr (Or.inl ⟨hmem, hnone, h⟩)
    · exact Or.inr (Or.inr ⟨hmem, hnone, h⟩)

end

/-! ## Profiles -/

/-- A profile that stays within two others, and means the same under any later directory. -/
structure WithinBoth (env : Env) (cwd : AbsolutePath)
    (requested granted profile : PermissionProfile) : Prop where
  withinRequested : ∀ p, (profile.policy.resolveAccessWithCwd env cwd p).capability ≤
    (requested.policy.resolveAccessWithCwd env cwd p).capability
  withinGranted : ∀ p, (profile.policy.resolveAccessWithCwd env cwd p).capability ≤
    (granted.policy.resolveAccessWithCwd env cwd p).capability
  network : profile.networkEnabled = true →
    requested.networkEnabled = true ∧ granted.networkEnabled = true
  laterCwd : ∀ later p, profile.policy.resolveAccessWithCwd env later p =
    profile.policy.resolveAccessWithCwd env cwd p

section
variable (buildGlobMatcher : Text → Option (Text → Bool)) (env : Env) (cwd : AbsolutePath)
  (requested granted : PermissionProfile)

lemma entries_eq_getD (profile : PermissionProfile) :
    profile.entries = (profile.fileSystem.getD .default).entries := by
  unfold PermissionProfile.entries
  cases profile.fileSystem <;> rfl

lemma entries_intersect_some {fileSystem : FileSystemPermissions}
    (h : requested.fileSystem = some fileSystem) :
    (intersectPermissionProfiles buildGlobMatcher env cwd requested granted).entries =
      (intersectFileSystem buildGlobMatcher env cwd fileSystem
        (granted.fileSystem.getD .default)).entries := by
  let fs := intersectFileSystem buildGlobMatcher env cwd fileSystem
    (granted.fileSystem.getD .default)
  have hfs : (intersectPermissionProfiles buildGlobMatcher env cwd requested granted).fileSystem =
      (some fs).filter fun fileSystem => !fileSystem.entries.isEmpty := by
    unfold intersectPermissionProfiles
    rw [h]
    rfl
  unfold PermissionProfile.entries
  rw [hfs, Option.filter_some]
  split
  · rfl
  · rename_i hempty
    have hnil : fs.entries = [] := by simpa using hempty
    exact hnil.symm

lemma entries_intersect_none (h : requested.fileSystem = none) :
    (intersectPermissionProfiles buildGlobMatcher env cwd requested granted).entries = [] := by
  unfold PermissionProfile.entries intersectPermissionProfiles
  rw [h]
  rfl

lemma exists_materialize_of_mem_entries {e : FileSystemSandboxEntry}
    (he : e ∈ (intersectPermissionProfiles buildGlobMatcher env cwd requested granted).entries) :
    ∃ e', materializeCwdDependentEntry env cwd e' = e := by
  cases hr : requested.fileSystem with
  | none => simp [entries_intersect_none buildGlobMatcher env cwd requested granted hr] at he
  | some fileSystem =>
    rw [entries_intersect_some buildGlobMatcher env cwd requested granted hr] at he
    simp only [intersectFileSystem, mem_foldl_pushNew, mem_acceptedEntries,
      constrainingDenyEntries, List.mem_map] at he
    rcases he with (⟨g, -, -, h⟩ | ⟨d, -, h⟩) | ⟨d, -, h⟩
    · exact ⟨g, h⟩
    · exact ⟨d, h⟩
    · exact ⟨d, h⟩

lemma rulesOf_later (later : AbsolutePath) :
    rulesOf env later
        (intersectPermissionProfiles buildGlobMatcher env cwd requested granted).entries =
      rulesOf env cwd
        (intersectPermissionProfiles buildGlobMatcher env cwd requested granted).entries := by
  unfold rulesOf resolvedEntriesWithCwd
  apply List.filterMap_congr
  intro e he
  obtain ⟨e', rfl⟩ :=
    exists_materialize_of_mem_entries buildGlobMatcher env cwd requested granted he
  rw [resolveEntryPath_materialize, resolveEntryPath_materialize]

/-- The meet of the entries of two profiles without globs. -/
lemma meet_intersect (hR : NoGlobs requested.entries) (hG : NoGlobs granted.entries) :
    Meet (rulesOf env cwd requested.entries) (rulesOf env cwd granted.entries) (rulesOf env cwd
      (intersectPermissionProfiles buildGlobMatcher env cwd requested granted).entries) := by
  rw [entries_eq_getD granted] at hG ⊢
  cases hr : requested.fileSystem with
  | some fileSystem =>
    have hentries : requested.entries = fileSystem.entries := by
      unfold PermissionProfile.entries
      rw [hr]
      rfl
    rw [entries_intersect_some buildGlobMatcher env cwd requested granted hr]
    rw [hentries] at hR ⊢
    exact meet_intersectFileSystem hR hG
  | none =>
    -- an empty request accepts nothing
    have hentries : requested.entries = [] := by
      unfold PermissionProfile.entries
      rw [hr]
      rfl
    rw [entries_intersect_none buildGlobMatcher env cwd requested granted hr, hentries]
    have hnone : ∀ g, ¬ Accepted (rulesOf env cwd []) (rulesOf env cwd
        (granted.fileSystem.getD .default).entries) g :=
      fun g hg => hg.access_ne_none rfl
    intro e
    constructor
    · intro he
      simp [mem_rulesOf] at he
    · intro he
      rcases he with he | ⟨-, -, g, hg, -⟩
      · exact absurd he (hnone e)
      · exact absurd hg (hnone g)

/-- The intersection of two profiles stays within both exactly if the request does not narrow a
granted write entry to reading. -/
theorem intersectPermissionProfiles_withinBoth_iff (hR : NoGlobs requested.entries)
    (hG : NoGlobs granted.entries) :
    WithinBoth env cwd requested granted
        (intersectPermissionProfiles buildGlobMatcher env cwd requested granted) ↔
      ¬ Overreach (requested.policy.resolvedEntriesWithCwd env cwd)
        (granted.policy.resolvedEntriesWithCwd env cwd) := by
  have hI := meet_intersect buildGlobMatcher env cwd requested granted hR hG
  have hiff : (∀ p,
      ((intersectPermissionProfiles buildGlobMatcher env cwd requested granted).policy
        |>.resolveAccessWithCwd env cwd p).capability ≤
      (requested.policy.resolveAccessWithCwd env cwd p).capability) ↔
      ¬ Overreach (requested.policy.resolvedEntriesWithCwd env cwd)
        (granted.policy.resolvedEntriesWithCwd env cwd) := hI.le_requested_forall_iff
  constructor
  · intro h
    exact hiff.mp h.withinRequested
  · intro h
    refine ⟨hiff.mpr h, hI.le_granted, ?_, ?_⟩
    · intro hnet
      by_cases hboth : (requested.networkEnabled && granted.networkEnabled) = true
      · exact Bool.and_eq_true_iff.mp hboth
      have hnone : (intersectPermissionProfiles buildGlobMatcher env cwd requested
          granted).network = none := if_neg hboth
      unfold PermissionProfile.networkEnabled at hnet
      rw [hnone] at hnet
      cases hnet
    · intro later p
      show access (rulesOf env later _) p = access (rulesOf env cwd _) p
      rw [rulesOf_later]

end

/-! ## A request that narrows the grant -/

/-- An environment with nothing but the root directory. -/
def emptyEnv : Env := ⟨none, none, none, .empty⟩

/-- A profile with the given entries. -/
def fileSystemProfile (entries : List FileSystemSandboxEntry) : PermissionProfile :=
  ⟨none, some ⟨entries, none⟩⟩

/-- Write access to `/w`, and reading only below `/w/ro`. -/
def narrowedRequest : PermissionProfile :=
  fileSystemProfile [⟨.path ["w".toList], .write⟩, ⟨.path ["w".toList, "ro".toList], .read⟩]

/-- Write access to `/w`. -/
def workspaceGrant : PermissionProfile := fileSystemProfile [⟨.path ["w".toList], .write⟩]

/-- The intersection permits writing `/w/ro`, which the request only reads. -/
theorem intersection_loses_requested_read_entry :
    let p : AbsolutePath := ["w".toList, "ro".toList]
    let intersection :=
      intersectPermissionProfiles (fun _ => none) emptyEnv [] narrowedRequest workspaceGrant
    intersection.policy.resolveAccessWithCwd emptyEnv [] p = .write ∧
      narrowedRequest.policy.resolveAccessWithCwd emptyEnv [] p = .read ∧
      ¬ (intersection.policy.resolveAccessWithCwd emptyEnv [] p).capability ≤
        (narrowedRequest.policy.resolveAccessWithCwd emptyEnv [] p).capability := by
  decide

/-- A request for `/w` without `/w/secret`, of which `/w/ro` is only read. -/
def nestedRequest : PermissionProfile :=
  fileSystemProfile [⟨.path ["w".toList], .write⟩, ⟨.path ["w".toList, "ro".toList], .read⟩,
    ⟨.path ["w".toList, "secret".toList], .none⟩]

/-- A grant of `/w/a` without `/w/a/keys`, and of reading `/w/ro/docs`. -/
def nestedGrant : PermissionProfile :=
  fileSystemProfile [⟨.path ["w".toList, "a".toList], .write⟩,
    ⟨.path ["w".toList, "a".toList, "keys".toList], .none⟩,
    ⟨.path ["w".toList, "ro".toList, "docs".toList], .read⟩]

/-- A grant within the request is met, and the deny entry that bears on it is kept. -/
theorem intersectPermissionProfiles_withinBoth_nested :
    let intersection := intersectPermissionProfiles (fun _ => none) emptyEnv [] nestedRequest nestedGrant
    intersection.entries = [⟨.path ["w".toList, "a".toList], .write⟩,
        ⟨.path ["w".toList, "ro".toList, "docs".toList], .read⟩,
        ⟨.path ["w".toList, "a".toList, "keys".toList], .none⟩] ∧
      WithinBoth emptyEnv [] nestedRequest nestedGrant intersection := by
  refine ⟨by decide, (intersectPermissionProfiles_withinBoth_iff (fun _ => none) emptyEnv [] nestedRequest
    nestedGrant ?_ ?_).mpr ?_⟩
  · simp [NoGlobs, nestedRequest, fileSystemProfile, PermissionProfile.entries]
  · simp [NoGlobs, nestedGrant, fileSystemProfile, PermissionProfile.entries]
  · rintro ⟨r, hr, hread, -, g, hg, hwrite, hprefix, -⟩
    have hapart : ∀ r ∈ nestedRequest.policy.resolvedEntriesWithCwd emptyEnv [],
        ∀ g ∈ nestedGrant.policy.resolvedEntriesWithCwd emptyEnv [],
          r.mode = .read → g.mode = .write → ¬g.path <+: r.path := by decide
    exact hapart r hr g hg hread hwrite hprefix

end Supercodex.Permissions
