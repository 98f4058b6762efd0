import Supercodex.NetworkProxy.AllowlistTheorems
import Supercodex.NetworkProxy.RuntimeTheorems

/-!
# Updates of the domain lists

`update_domain_list` builds a state between two locks and installs it if nothing has changed in between. The
compiled sets belong to the configuration in every state, so what the lists say is what is enforced.
-/

namespace Supercodex.NetworkProxy

open Runs

/-! ## The entries for a host -/

/-- The entries that normalise to a host. -/
def entriesFor (host : Text) (config : NetworkProxyConfig) : List NetworkDomainPermissionEntry :=
  (config.network.domains.getD {}).entries.filter (normalizeHost ·.pattern == host)

/-- The entries for other hosts, in their order. -/
def otherEntries (host : Text) (config : NetworkProxyConfig) : List NetworkDomainPermissionEntry :=
  (config.network.domains.getD {}).entries.filter (normalizeHost ·.pattern != host)

/-- The only entry for a host is a new one, and all else is as it was. -/
structure DomainSet (host : Text) (permission : NetworkDomainPermission) (before after : NetworkProxyConfig) :
    Prop where
  only : entriesFor host after = [⟨host, permission⟩]
  others : otherEntries host after = otherEntries host before
  settings : { after.network with domains := before.network.domains } = before.network

/-- The host is in the target list, and not in the opposite list. -/
def Listed (host : Text) (target : DomainListKind) (config : NetworkProxyConfig) : Prop :=
  (∃ entry ∈ target.entries config.network, normalizeHost entry = host) ∧
    ∀ entry ∈ target.oppositeEntries config.network, normalizeHost entry ≠ host

lemma updateCandidate_eq_none {previous : NetworkProxyConfig} {host : Text} {target : DomainListKind}
    (h : updateCandidate previous host target = none) : Listed host target previous := by
  unfold updateCandidate at h
  dsimp only at h
  split at h
  · rename_i hlisted
    rw [Bool.and_eq_true, List.any_eq_true, Bool.not_eq_true', List.any_eq_false] at hlisted
    simpa [Listed] using hlisted
  · cases h

section Upsert

variable {host : Text} (hstable : normalizeHost host = host) (network : NetworkProxySettings)
  (permission : NetworkDomainPermission)
include hstable

lemma entries_upsertDomainPermission :
    ((network.upsertDomainPermission host permission normalizeHost).domains.getD {}).entries =
      otherEntries host ⟨network⟩ ++ [⟨host, permission⟩] := by
  unfold NetworkProxySettings.upsertDomainPermission otherEntries
  rw [hstable]
  rfl

lemma domainSet_upsertDomainPermission :
    DomainSet host permission ⟨network⟩ ⟨network.upsertDomainPermission host permission normalizeHost⟩ where
  only := by
    have hnone : (otherEntries host ⟨network⟩).filter (normalizeHost ·.pattern == host) = [] := by
      rw [List.filter_eq_nil_iff]
      intro entry hentry
      simpa [otherEntries] using (List.mem_filter.mp hentry).2
    rw [entriesFor, entries_upsertDomainPermission hstable, List.filter_append, hnone]
    simp [hstable]
  others := by
    have hall : (otherEntries host ⟨network⟩).filter (normalizeHost ·.pattern != host) =
        otherEntries host ⟨network⟩ := by
      rw [List.filter_eq_self]
      intro entry hentry
      exact (List.mem_filter.mp hentry).2
    conv_lhs => rw [otherEntries, entries_upsertDomainPermission hstable, List.filter_append, hall]
    simp [hstable]
  settings := rfl

lemma mem_domainEntries_upsertDomainPermission :
    host ∈ ((network.upsertDomainPermission host permission normalizeHost).domainEntries permission).getD [] := by
  have hentries := entries_upsertDomainPermission hstable network permission
  have hmem : ∀ domains : NetworkDomainPermissions,
      domains.entries = otherEntries host ⟨network⟩ ++ [⟨host, permission⟩] →
      ⟨host, permission⟩ ∈ domains.effectiveEntries := by
    intro domains heq
    rw [NetworkDomainPermissions.mem_effectiveEntries]
    refine ⟨by rw [heq]; simp, ?_⟩
    intro other hother hpattern
    rw [heq, List.mem_append, List.mem_singleton] at hother
    rcases hother with hother | rfl
    · have hne : normalizeHost other.pattern ≠ host := by
        simpa using (List.mem_filter.mp hother).2
      rw [hpattern] at hne
      exact absurd hstable hne
    · exact le_rfl
  exact NetworkProxySettings.mem_domainEntries.mpr (hmem _ hentries)

end Upsert

lemma updateCandidate_eq_some {previous candidate : NetworkProxyConfig} {host : Text} {target : DomainListKind}
    (h : updateCandidate previous host target = some candidate) (hstable : normalizeHost host = host) :
    DomainSet host target.permission previous candidate ∧ host ∈ target.entries candidate.network := by
  unfold updateCandidate at h
  dsimp only at h
  split at h
  · cases h
  cases h
  refine ⟨domainSet_upsertDomainPermission hstable previous.network _, ?_⟩
  have hmem := mem_domainEntries_upsertDomainPermission hstable previous.network target.permission
  cases target with
  | allow | deny => exact hmem

/-! ## Denied hosts -/

/-- `globset` takes a glob without classes, alternatives and escapes on its own text. -/
def Crates.MatchesOwnText (crates : Crates) : Prop :=
  ∀ glob matcher, (∀ c ∈ ['[', ']', '\x7b', '\x7d', '\\'], c ∉ glob) → crates.glob glob = .ok matcher →
    matcher glob = true

/-- A host that stands for itself as a pattern and as a glob: its first label is neither one star nor two, and it
holds no bracket, brace or backslash. -/
def PlainHost (host : Text) : Prop :=
  firstLabel host ∉ [['*'], ['*', '*']] ∧ ∀ c ∈ ['[', ']', '\x7b', '\x7d', '\\'], c ∉ host

/-- Every text that is parsed to the host is denied. -/
def Denies (state : ConfigState) (host : Text) : Prop :=
  ∀ lookups raw port, parseHost raw = some host → hostBlocked lookups state raw port = .blocked .denied

lemma stripPrefix_stars_eq_none {t : Text} (h : ∀ stars rest, stars = ['*'] ∨ stars = ['*', '*'] →
    t ≠ stars ++ '.' :: rest) :
    Text.stripPrefix ['*', '*', '.'] t = none ∧ Text.stripPrefix ['*', '.'] t = none := by
  have hnone : ∀ stars, stars = ['*'] ∨ stars = ['*', '*'] → Text.stripPrefix (stars ++ ['.']) t = none := by
    intro stars hstars
    cases hstrip : Text.stripPrefix (stars ++ ['.']) t with
    | none => rfl
    | some rest =>
      obtain ⟨rest, hrest⟩ := Text.isInitial_of_stripPrefix hstrip
      rw [List.append_assoc] at hrest
      exact absurd hrest.symm (h stars rest hstars)
  exact ⟨hnone ['*', '*'] (.inr rfl), hnone ['*'] (.inl rfl)⟩

lemma enforced_eq_exact {entry host : Text} (hentry : normalizeHost entry = host) (hne : host ≠ [])
    (hstable : normalizeHost host = host) (hlabel : firstLabel host ∉ [['*'], ['*', '*']]) :
    enforced entry = .exact host := by
  have hlabels : ∀ stars, stars = ['*'] ∨ stars = ['*', '*'] → firstLabel host ≠ stars := by
    rintro _ (rfl | rfl) h
    · exact hlabel (by simp [h])
    · exact hlabel (by simp [h])
  have hpattern : normalizePattern entry = host := by
    have hstar : entry.trim ≠ ['*'] := by
      intro h
      rw [← normalizeHost_trim, h] at hentry
      exact hlabels ['*'] (.inl rfl) (by rw [← hentry]; decide +kernel)
    obtain ⟨hdouble, hsingle⟩ := stripPrefix_stars_eq_none (t := entry.trim) fun stars rest hstars h =>
      hlabels stars hstars (hentry ▸ firstLabel_normalizeHost hstars h)
    unfold normalizePattern
    rw [if_neg hstar, hdouble, hsingle]
    exact (normalizeHost_trim entry).trans hentry
  have htrim := (whole_of_normalizeHost hstable).1
  obtain ⟨hdouble, hsingle⟩ := stripPrefix_stars_eq_none (t := host) fun stars rest hstars h =>
    hlabels stars hstars (by rw [← hstable]; exact firstLabel_normalizeHost hstars (htrim.trans h))
  unfold enforced DomainPattern.parse
  rw [hpattern, htrim, if_neg hne, hdouble, hsingle]

variable {crates : Crates}

lemma denies_of_mem (hglob : crates.MatchesOwnText) {state : ConfigState}
    (hstate : state.Consistent crates) {entry host : Text}
    (hmem : entry ∈ state.config.network.deniedDomains.getD []) (hentry : normalizeHost entry = host)
    (hstable : normalizeHost host = host) (hplain : PlainHost host) : Denies state host := by
  intro lookups raw port hparse
  have hne : host ≠ [] := by
    unfold parseHost at hparse
    dsimp only at hparse
    split at hparse
    · cases hparse
    · cases hparse
      assumption
  obtain ⟨seen, hset, hseen⟩ := holds_compileGlobset hstate.deny
  have hhost : host ∈ seen := by
    rw [hseen]
    refine ⟨entry, hmem, ?_⟩
    rw [enforced_eq_exact hentry hne hstable hplain.1]
    exact List.mem_singleton_self host
  obtain ⟨matcher, hmatcher, hok⟩ := hset.matcher host hhost
  have hmatch : state.denySet.isMatch host = true :=
    List.any_eq_true.mpr ⟨matcher, hmatcher, hglob host matcher hplain.2 hok⟩
  exact hostBlocked_of_denied hparse hmatch

/-! ## What an update builds -/

section Update

variable {crates : Crates} {ca : Except Text Unit} {previous : NetworkProxyConfig}
  {constraints : NetworkProxyConstraints} {host : Text} {target : DomainListKind} {new : ConfigState}

lemma updateState_eq_none (h : updateState crates ca previous constraints host target = none) :
    Listed host target previous :=
  updateCandidate_eq_none (Option.map_eq_none_iff.mp h)

lemma updateState_eq_ok (h : updateState crates ca previous constraints host target = some (.ok new)) :
    updateCandidate previous host target = some new.config ∧ new.constraints = constraints ∧
      new.Consistent crates := by
  obtain ⟨candidate, hcandidate, hbuild⟩ := Option.map_eq_some_iff.mp h
  obtain ⟨_, -, hstate⟩ := Effects.except_bind_eq_ok.mp hbuild
  obtain ⟨rfl, hconstraints, hconsistent, -⟩ := buildConfigState_spec hstate
  exact ⟨hcandidate, hconstraints, hconsistent⟩

lemma updateState_of_build (hcandidate : updateCandidate previous host target = some new.config)
    (hvalid : validatePolicyAgainstConstraints crates new.config constraints = .ok ())
    (hbuild : buildConfigState crates ca new.config constraints = .ok new) :
    updateState crates ca previous constraints host target = some (.ok new) := by
  unfold updateState
  rw [hcandidate, Option.map_some, hvalid]
  exact congrArg some hbuild

end Update

/-! ## Every state is consistent -/

/-- The state was built from a configuration. -/
def Built (crates : Crates) (state : ConfigState) : Prop :=
  ∃ ca config constraints, buildConfigState crates ca config constraints = .ok state

lemma Built.consistent {state : ConfigState} (h : Built crates state) : state.Consistent crates := by
  obtain ⟨ca, config, constraints, hbuild⟩ := h
  exact (buildConfigState_spec hbuild).2.2.1

/-- The states that come from outside have been built. -/
def Action.Supplied (crates : Crates) : Action → Prop
  | .call (.replaceConfigState new) => Built crates new
  | .maybeReload (.ok (some new)) => Built crates new
  | .reloadNow (.ok new) => Built crates new
  | _ => True

/-- The state that replaces another is consistent. -/
def Operation.Sound (crates : Crates) : Operation → Prop
  | .replaceConfigState new => new.Consistent crates
  | _ => True

/-- The state that a task installs next is consistent, and that of an update is the one it has built. -/
def Task.Sound (crates : Crates) : Task → Prop
  | .reload operation | .body operation => operation.Sound crates
  | .reloadRead operation new | .reloadWrite operation new => operation.Sound crates ∧ new.Consistent crates
  | .updateWrite host target previous constraints new =>
    updateCandidate previous host target = some new.config ∧ new.constraints = constraints ∧ new.Consistent crates
  | .forceWrite new => new.Consistent crates
  | _ => True

/-- The state and what the tasks hold are consistent. -/
structure System.Sound (crates : Crates) (s : System) : Prop where
  state : s.state.Consistent crates
  tasks : ∀ task, (s.tasks task).Sound crates

section Sound

variable {crates : Crates} {s s' : System} {task : ℕ}

lemma System.tasks_goto (s : System) (task : ℕ) (next : Task) : (s.goto task next).tasks task = next := by
  show Function.update s.tasks task next task = next
  rw [Function.update_self]

lemma System.Sound.goto (h : s.Sound crates) {next : Task} (hnext : next.Sound crates) :
    (s.goto task next).Sound crates where
  state := h.state
  tasks := by
    intro other
    show (Function.update s.tasks task next other).Sound crates
    rw [Function.update_apply]
    split
    · exact hnext
    · exact h.tasks other

lemma System.Sound.install (h : s.Sound crates) {state : ConfigState} (hstate : state.Consistent crates) :
    (s.install state).Sound crates := ⟨hstate, h.tasks⟩

lemma System.Sound.runBody (h : s.Sound crates) {operation : Operation} (hbody : s.tasks task = .body operation) :
    (s.runBody crates task operation).Sound crates := by
  have hoperation : operation.Sound crates := by
    have htask := h.tasks task
    rwa [hbody] at htask
  cases operation with
  | read => exact h.goto trivial
  | recordBlocked entry =>
    have hrecord : (s.record entry).Sound crates := ⟨⟨h.state.deny, h.state.allow⟩, h.tasks⟩
    exact hrecord.goto trivial
  | drainBlocked =>
    have hdrain : s.drain.Sound crates := ⟨⟨h.state.deny, h.state.allow⟩, h.tasks⟩
    exact hdrain.goto trivial
  | replaceConfigState new =>
    refine (h.install ?_).goto ?_
    · exact ⟨hoperation.deny, hoperation.allow⟩
    · trivial
  | setNetworkMode mode =>
    unfold System.runBody
    dsimp only
    split
    · exact h.goto trivial
    · exact h.goto trivial
  | updateDomainList host target => exact h.goto trivial

/-- Every step keeps the state and what the tasks hold consistent. -/
lemma System.Sound.step (h : s.Sound crates) {action : Action} (hsupplied : action.Supplied crates)
    (hstep : s.step crates task action = some s') : s'.Sound crates := by
  have htask := h.tasks task
  unfold System.step at hstep
  split at hstep
  case h_1 operation _ =>
    cases hstep
    refine h.goto ?_
    cases operation with
    | replaceConfigState new => exact hsupplied.consistent
    | _ => trivial
  case h_2 =>
    split at hstep
    · cases hstep
      exact h
    · cases hstep
      exact h.goto trivial
  case h_3 | h_4 | h_13 | h_14 =>
    cases hstep
    exact h.goto trivial
  case h_5 heq =>
    cases hstep
    rw [heq] at htask
    exact h.goto htask
  case h_6 heq =>
    cases hstep
    rw [heq] at htask
    exact h.goto ⟨htask, hsupplied.consistent⟩
  case h_7 heq =>
    cases hstep
    rw [heq] at htask
    exact h.goto ⟨htask.1, htask.2.deny, htask.2.allow⟩
  case h_8 heq =>
    cases hstep
    rw [heq] at htask
    exact (h.install htask.2).goto htask.1
  case h_9 heq =>
    cases hstep
    exact h.runBody heq
  case h_10 host target previous constraints blocked blockedTotal ca heq =>
    split at hstep
    · cases hstep
      exact h.goto trivial
    · cases hstep
      exact h.goto trivial
    · rename_i new hnew
      cases hstep
      obtain ⟨hcandidate, hconstraints, hconsistent⟩ := updateState_eq_ok hnew
      exact h.goto ⟨hcandidate, hconstraints, hconsistent.deny, hconsistent.allow⟩
  case h_11 heq =>
    rw [heq] at htask
    split at hstep
    · cases hstep
      exact h.goto trivial
    · cases hstep
      exact (h.install htask.2.2).goto trivial
  case h_12 =>
    split at hstep
    · cases hstep
      exact h.goto trivial
    cases hstep
    refine (h.install ?_).goto ?_
    · exact ⟨h.state.deny, h.state.allow⟩
    · trivial
  case h_15 =>
    cases hstep
    exact h.goto hsupplied.consistent
  case h_16 heq =>
    cases hstep
    rw [heq] at htask
    refine (h.install ?_).goto ?_
    · exact ⟨htask.deny, htask.allow⟩
    · trivial
  case h_17 => cases hstep

lemma System.Sound.new {state : ConfigState} (h : state.Consistent crates) : (System.new state).Sound crates :=
  ⟨h, fun _ => trivial⟩

end Sound

/-! ## Updates in a run -/

/-- Between the locks the state is left as it is, whether there is nothing to do, or an error, or a state to install.
Where there is nothing to do the host is listed already. -/
def BuildExact (crates : Crates) (t : Transition System (ℕ × Action)) : Prop :=
  ∀ task ca host target previous constraints blocked blockedTotal,
    t.label = (task, .build ca) →
    t.before.tasks task = .updateBuild host target previous constraints blocked blockedTotal →
    t.after.state = t.before.state ∧
      (updateState crates ca previous constraints host target = none →
        Listed host target previous ∧
          (target = .deny → normalizeHost host = host → PlainHost host →
            ∀ state : ConfigState, state.Consistent crates → state.config = previous → Denies state host))

/-- Under the second lock the state that was built is installed if nothing has changed, with one entry for the host
and all else as it was; and otherwise the state is left as it is. -/
def WriteExact (t : Transition System (ℕ × Action)) : Prop :=
  ∀ task host target previous constraints new,
    t.label = (task, .lock) →
    t.before.tasks task = .updateWrite host target previous constraints new →
    if t.before.state.constraints = constraints ∧ t.before.state.config = previous then
      normalizeHost host = host →
        DomainSet host target.permission t.before.state.config t.after.state.config ∧
        t.after.state.constraints = t.before.state.constraints ∧
        (target = .deny → PlainHost host → Denies t.after.state host)
    else t.after.state = t.before.state

section Exact

variable {crates : Crates} {t : Transition System (ℕ × Action)}

lemma buildExact (hglob : crates.MatchesOwnText) (hstep : Step crates t.before t.label t.after) :
    BuildExact crates t := by
  obtain ⟨before, label, after⟩ := t
  intro task ca host target previous constraints blocked blockedTotal hlabel htask
  subst hlabel
  unfold Step System.step at hstep
  rw [htask] at hstep
  dsimp only at hstep
  constructor
  · split at hstep
    · cases hstep
      rfl
    · cases hstep
      rfl
    · cases hstep
      rfl
  · intro hnone
    have hlisted := updateState_eq_none hnone
    refine ⟨hlisted, ?_⟩
    rintro rfl hstable hplain state hstate rfl
    obtain ⟨entry, hmem, hentry⟩ := hlisted.1
    exact denies_of_mem hglob hstate hmem hentry hstable hplain

lemma writeExact (hglob : crates.MatchesOwnText) (hsound : t.before.Sound crates)
    (hstep : Step crates t.before t.label t.after) : WriteExact t := by
  obtain ⟨before, label, after⟩ := t
  intro task host target previous constraints new hlabel htask
  have hnew := hsound.tasks task
  rw [htask] at hnew
  obtain ⟨hcandidate, hconstraints, hconsistent⟩ := hnew
  dsimp only at hlabel htask hstep ⊢
  subst hlabel
  unfold Step System.step at hstep
  rw [htask] at hstep
  dsimp only at hstep
  split
  · rename_i hsame
    rw [if_neg (by simp [hsame.1, hsame.2])] at hstep
    cases hstep
    intro hstable
    obtain ⟨hset, hmem⟩ := updateCandidate_eq_some hcandidate hstable
    refine ⟨hsame.2 ▸ hset, hconstraints.trans hsame.1.symm, ?_⟩
    rintro rfl hplain
    exact denies_of_mem hglob hconsistent hmem hstable hstable hplain
  · rename_i hchanged
    rw [if_pos (by rwa [← not_and_or])] at hstep
    cases hstep
    rfl

end Exact

/-- In every run every state is consistent, and the steps of the updates are exact. -/
theorem domain_list_updates_exact {crates : Crates} (hglob : crates.MatchesOwnText) {built : ConfigState}
    (hbuilt : Built crates built) {ts : List (Transition System (ℕ × Action))} {s : System}
    (run : Run (Step crates) (System.new built) ts s) (hsupplied : ∀ t ∈ ts, t.label.2.Supplied crates) :
    s.state.Consistent crates ∧ ∀ t ∈ ts, BuildExact crates t ∧ WriteExact t := by
  have hinvariant : s.Sound crates ∧
      ∀ t ∈ ts, t.before.Sound crates ∧ Step crates t.before t.label t.after :=
    run.invariant (fun _ label => label.2.Supplied crates) hsupplied (System.Sound.new hbuilt.consistent)
      fun _ _ _ h hlabel hstep => h.step hlabel hstep
  refine ⟨hinvariant.1.state, fun t ht => ?_⟩
  obtain ⟨hbefore, hstep⟩ := hinvariant.2 t ht
  exact ⟨buildExact hglob hstep, writeExact hglob hbefore hstep⟩

/-! ### Calls on their own -/

section Alone

variable {crates : Crates} {state : ConfigState} {raw host : Text}

section

variable (hparse : parseHost raw = some host)
include hparse

lemma exists_run_read (target : DomainListKind) :
    ∃ ts s, RunWhere (Step crates) (fun _ label => label.2.Supplied crates) (System.new state) ts s ∧
      s.state = state ∧ s.tasks 0 = .updateBuild host target state.config state.constraints state.blocked state.blockedTotal := by
  let called := (System.new state).goto 0 (.reload (.updateDomainList host target))
  have hcall : (System.new state).step crates 0 (.callUpdateDomainList raw target) = some called := by
    simp only [System.step, System.new, hparse]
    rfl
  have hnew : RunWhere (Step crates) (fun _ label => label.2.Supplied crates) (System.new state) [] _ := .nil
  have hread := (hnew.next (0, .callUpdateDomainList raw target) trivial hcall).next (0, .maybeReload (.ok none))
    trivial rfl
  exact ⟨_, _, hread.next (0, .lock) trivial rfl, rfl, rfl⟩

lemma exists_run_listed {ca : Except Text Unit} {target : DomainListKind}
    (hnone : updateState crates ca state.config state.constraints host target = none) :
    ∃ ts s, Run (Step crates) (System.new state) ts s ∧ s.state = state ∧ s.tasks 0 = .idle := by
  obtain ⟨ts, s, hrun, hstate, htask⟩ := exists_run_read hparse target
  have hstep : s.step crates 0 (.build ca) = some (s.goto 0 .idle) := by
    unfold System.step
    rw [htask]
    dsimp only
    rw [hnone]
  exact ⟨_, _, (hrun.next (0, .build ca) trivial hstep).1, hstate, s.tasks_goto 0 .idle⟩

/-- A call whose candidate is built installs it. -/
lemma exists_run_installed {ca : Except Text Unit} {new : ConfigState}
    {target : DomainListKind}
    (hnew : updateState crates ca state.config state.constraints host target = some (.ok new)) :
    ∃ ts before s,
      RunWhere (Step crates) (fun _ label => label.2.Supplied crates) (System.new state)
        (ts ++ [⟨before, (0, .lock), s⟩]) s ∧ before.state = state ∧
      before.tasks 0 = .updateWrite host target state.config state.constraints
        { new with blocked := state.blocked, blockedTotal := state.blockedTotal } := by
  obtain ⟨ts, s, hrun, hstate, htask⟩ := exists_run_read hparse target
  let new' : ConfigState := { new with blocked := state.blocked, blockedTotal := state.blockedTotal }
  let before := s.goto 0 (.updateWrite host target state.config state.constraints new')
  have hbefore : before.tasks 0 = .updateWrite host target state.config state.constraints new' :=
    s.tasks_goto 0 _
  have hbuild : s.step crates 0 (.build ca) = some before := by
    unfold System.step
    rw [htask]
    dsimp only
    rw [hnew]
  have hlock : before.step crates 0 .lock = some ((before.install new').goto 0 .idle) := by
    have hsame : before.state = state := hstate
    unfold System.step
    rw [hbefore]
    dsimp only
    rw [if_neg (by rw [hsame]; simp)]
  exact ⟨_, _, _, (hrun.next (0, .build ca) trivial hbuild).next (0, .lock) trivial hlock, hstate, hbefore⟩

end

end Alone

/-- What passes the checks of a build is built as it stands. -/
lemma buildConfigState_of_compile {ca : Except Text Unit} {config : NetworkProxyConfig}
    {constraints : NetworkProxyConstraints} {denySet allowSet : GlobSet}
    (hpaths : validateUnixSocketAllowlistPaths config = .ok ())
    (hwildcard : validateNonGlobalWildcardDomainPatterns "network.denied_domains"
      (config.network.deniedDomains.getD []) = .ok ())
    (hdeny : compileDenylistGlobset crates (config.network.deniedDomains.getD []) = .ok denySet)
    (hallow : compileAllowlistGlobset crates (config.network.allowedDomains.getD []) = .ok allowSet)
    (hmitm : config.network.mitm = false) :
    buildConfigState crates ca config constraints = .ok ⟨config, allowSet, denySet, none, constraints, [], 0⟩ := by
  unfold buildConfigState
  dsimp only
  rw [hpaths, hwildcard, hdeny, hallow, hmitm]
  rfl

/-- The state in which a host is allowed. -/
def exampleAllowed : ConfigState :=
  ⟨allowing ["Example.com".toList], ⟨[(· == "example.com".toList)]⟩, ⟨[]⟩, none, {}, [], 0⟩

/-- The state in which it is denied. -/
def exampleDenied : ConfigState :=
  ⟨⟨{ domains := some ⟨[⟨"example.com".toList, .deny⟩]⟩ }⟩, ⟨[]⟩, ⟨[(· == "example.com".toList)]⟩, none, {}, [], 0⟩

/-- A host that was allowed in other letters is denied. -/
theorem domain_list_updates_exact_denied :
    Built literalCrates exampleAllowed ∧
      ∃ ts s, Run (Step literalCrates) (System.new exampleAllowed) ts s ∧
        DomainSet "example.com".toList .deny exampleAllowed.config s.state.config ∧
        Denies s.state "example.com".toList := by
  have hbuilt : Built literalCrates exampleAllowed :=
    ⟨.ok (), allowing ["Example.com".toList], {}, buildConfigState_of_compile rfl rfl rfl rfl rfl⟩
  have hglob : literalCrates.MatchesOwnText := by
    intro glob matcher _ hok
    cases hok
    exact beq_self_eq_true glob
  have hparse : parseHost "EXAMPLE.com".toList = some "example.com".toList := by decide +kernel
  have hnew : updateState literalCrates (.ok ()) exampleAllowed.config exampleAllowed.constraints
      "example.com".toList .deny = some (.ok exampleDenied) :=
    updateState_of_build (by decide +kernel) (by decide +kernel)
      (buildConfigState_of_compile rfl (by decide +kernel) rfl rfl rfl)
  obtain ⟨ts, before, s, ⟨hrun, hsupplied⟩, hbefore, htask⟩ := exists_run_installed hparse hnew
  obtain ⟨-, hexact⟩ := domain_list_updates_exact hglob hbuilt hrun hsupplied
  have hlast := (hexact ⟨before, (0, .lock), s⟩ (by simp)).2
  have hwrite := hlast _ _ _ _ _ _ rfl htask
  rw [hbefore, if_pos ⟨rfl, rfl⟩] at hwrite
  obtain ⟨hset, -, hdenies⟩ := hwrite (by decide +kernel)
  exact ⟨hbuilt, _, s, hrun, hset, hdenies rfl ⟨by decide +kernel, by simp⟩⟩

/-- No text is an IP literal, and every name resolves to no address. -/
def noLookups : Lookups := ⟨fun _ => none, fun _ _ => some []⟩

/-- The crates on names with one class, of one character. -/
def classCrates : Crates :=
  ⟨some, fun glob => .ok fun host => if glob = "a[b]".toList then host == "ab".toList else host == glob⟩

/-- The decision for a text in the state that denying it installs over the default configuration. -/
def decisionWhenDenied (crates : Crates) (raw : Text) : Option (Option HostBlockDecision) := do
  let host ← parseHost raw
  let built ← updateState crates (.ok ()) {} {} host .deny
  return built.toOption.map fun state => hostBlocked noLookups state raw 80

/-- A call returns where two entries normalise to the host, and leaves both. A host that is normalised again to
another one has no entry after the call, and that of the other host is gone. A host that starts with `*.` or
holds a class is not denied after the call. -/
theorem listed_host_keeps_two_entries :
    (∃ built, Built literalCrates built ∧ ∃ ts s, Run (Step literalCrates) (System.new built) ts s ∧
      updateState literalCrates (.ok ()) built.config built.constraints "example.com".toList .allow = none ∧
      s.tasks 0 = .idle ∧
      entriesFor "example.com".toList s.state.config =
        [⟨"example.com".toList, .allow⟩, ⟨"EXAMPLE.com".toList, .allow⟩]) ∧
    (parseHost "[example.com:80]".toList = some "example.com:80".toList ∧
      ∃ candidate, updateCandidate (allowing ["example.com".toList]) "example.com:80".toList .deny = some candidate ∧
        entriesFor "example.com:80".toList candidate = [] ∧
        otherEntries "example.com:80".toList candidate ≠
          otherEntries "example.com:80".toList (allowing ["example.com".toList])) ∧
    decisionWhenDenied plainCrates "*. a".toList = some (some (.blocked .notAllowed)) ∧
    decisionWhenDenied classCrates "a[b]".toList = some (some (.blocked .notAllowed)) := by
  refine ⟨?_, ⟨by decide +kernel, _, rfl, by decide +kernel, by decide +kernel⟩, by decide +kernel, by decide +kernel⟩
  let doubled : ConfigState := ⟨allowing ["example.com".toList, "EXAMPLE.com".toList],
    ⟨[(· == "example.com".toList)]⟩, ⟨[]⟩, none, {}, [], 0⟩
  have hbuilt : Built literalCrates doubled :=
    ⟨.ok (), doubled.config, {}, buildConfigState_of_compile rfl rfl rfl rfl rfl⟩
  have hnone : updateState literalCrates (.ok ()) doubled.config doubled.constraints "example.com".toList .allow =
      none := by
    rw [updateState, Option.map_eq_none_iff]
    decide +kernel
  have hparse : parseHost "example.com".toList = some "example.com".toList := by decide +kernel
  obtain ⟨ts, s, hrun, hstate, htask⟩ := exists_run_listed hparse hnone
  refine ⟨_, hbuilt, ts, s, hrun, hnone, htask, ?_⟩
  rw [hstate]
  decide +kernel

end Supercodex.NetworkProxy
