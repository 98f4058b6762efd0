import Supercodex.NetworkProxy.Config
import Supercodex.NetworkProxy.Policy
import Supercodex.Library.Effects
import Mathlib.Data.Finset.Dedup

/-!
# Managed constraints on the network proxy

`network-proxy/src/state.rs`: the constraints of the managed configuration, the check of a
configuration against them, and the state built from a configuration.
-/

namespace Supercodex.NetworkProxy

/-- `NetworkProxyConstraints`. -/
structure NetworkProxyConstraints where
  enabled : Option Bool := none
  mode : Option NetworkMode := none
  allowUpstreamProxy : Option Bool := none
  dangerouslyAllowNonLoopbackProxy : Option Bool := none
  dangerouslyAllowAllUnixSockets : Option Bool := none
  allowedDomains : Option (List Text) := none
  allowlistExpansionEnabled : Option Bool := none
  deniedDomains : Option (List Text) := none
  denylistExpansionEnabled : Option Bool := none
  allowUnixSockets : Option (List Text) := none
  allowLocalBinding : Option Bool := none
deriving DecidableEq

/-- A value in the text of an error: written out, a mode or a list in its debug format. -/
inductive Shown where
  | text (t : String)
  | mode (m : NetworkMode)
  | modeOrMoreRestrictive (m : NetworkMode)
  | entry (t : Text)
  | entries (ts : List Text)
deriving DecidableEq

/-- `NetworkProxyConstraintError::InvalidValue`. -/
structure NetworkProxyConstraintError where
  fieldName : String
  candidate : Shown
  allowed : Shown
deriving DecidableEq

/-- `network_mode_rank`. -/
def networkModeRank : NetworkMode → ℕ
  | .limited => 0
  | .full => 1

/-- `validate_non_global_wildcard_domain_patterns`. -/
def validateNonGlobalWildcardDomainPatterns (fieldName : String) (patterns : List Text) :
    Except NetworkProxyConstraintError Unit :=
  match patterns.find? isGlobalWildcardDomainPattern with
  | some pattern =>
    .error ⟨fieldName, .entry pattern.trim,
      .text "exact hosts or scoped wildcards like *.example.com or **.example.com"⟩
  | none => .ok ()

/-- The checks of a switch that the managed configuration may turn off: `true` is rejected where it
is not allowed. -/
def validateSwitch (fieldName : String) (candidate allowed : Bool) :
    Except NetworkProxyConstraintError Unit :=
  if candidate && !allowed then
    .error ⟨fieldName, .text "true", .text "false (disabled by managed config)"⟩
  else .ok ()

/-- The check of `network.mode`. -/
def validateMode (candidate : NetworkMode) : Option NetworkMode →
    Except NetworkProxyConstraintError Unit
  | some maxMode =>
    if networkModeRank candidate > networkModeRank maxMode then
      .error ⟨"network.mode", .mode candidate, .modeOrMoreRestrictive maxMode⟩
    else .ok ()
  | none => .ok ()

/-- The lowercase entries of a list, as a `HashSet`. -/
def lowercaseSet (entries : List Text) : List Text := (entries.map toAsciiLowercase).dedup

/-- The check of `network.allowed_domains`. The sets have no order; `missing` is listed in the order
of the managed list. -/
def validateAllowedDomains (crates : Crates) (candidate deniedOverrides managed : List Text)
    (expansionEnabled : Option Bool) : Except NetworkProxyConstraintError Unit :=
  match expansionEnabled with
  | some true =>
    let missing := (lowercaseSet managed).filter fun entry =>
      !(lowercaseSet candidate).contains entry && !deniedOverrides.contains entry
    if missing = [] then .ok ()
    else .error ⟨"network.allowed_domains", .text "missing managed allowed_domains entries",
      .entries missing⟩
  | some false =>
    let expected := (lowercaseSet managed).filter (!deniedOverrides.contains ·)
    if (lowercaseSet candidate).toFinset = expected.toFinset then .ok ()
    else .error ⟨"network.allowed_domains", .entries candidate,
      .text "must match managed allowed_domains"⟩
  | none =>
    let managedPatterns := managed.map (DomainPattern.parseForConstraints crates)
    let invalid := candidate.filter fun entry =>
      !managedPatterns.any (·.allows (DomainPattern.parseForConstraints crates entry))
    if invalid = [] then .ok ()
    else .error ⟨"network.allowed_domains", .entries invalid,
      .text "subset of managed allowed_domains"⟩

/-- The check of `network.denied_domains`. -/
def validateDeniedDomains (candidate managed : List Text) (expansionEnabled : Option Bool) :
    Except NetworkProxyConstraintError Unit :=
  match expansionEnabled with
  | some false =>
    if (lowercaseSet candidate).toFinset = (lowercaseSet managed).toFinset then .ok ()
    else .error ⟨"network.denied_domains", .entries candidate,
      .text "must match managed denied_domains"⟩
  | some true | none =>
    let missing := (lowercaseSet managed).filter (!(lowercaseSet candidate).contains ·)
    if missing = [] then .ok ()
    else .error ⟨"network.denied_domains", .text "missing managed denied_domains entries",
      .entries missing⟩

/-- The check of `network.allow_unix_sockets`. -/
def validateAllowUnixSockets (candidate managed : List Text) :
    Except NetworkProxyConstraintError Unit :=
  let invalid := candidate.filter fun entry =>
    !(lowercaseSet managed).contains (toAsciiLowercase entry)
  if invalid = [] then .ok ()
  else .error ⟨"network.allow_unix_sockets", .entries invalid,
    .text "subset of managed allow_unix_sockets"⟩

/-- `validate_policy_against_constraints`. -/
def validatePolicyAgainstConstraints (crates : Crates) (config : NetworkProxyConfig)
    (constraints : NetworkProxyConstraints) : Except NetworkProxyConstraintError Unit := do
  let configAllowedDomains := config.network.allowedDomains.getD []
  let configDeniedDomains := config.network.deniedDomains.getD []
  let deniedDomainOverrides := lowercaseSet configDeniedDomains
  let configAllowUnixSockets := config.network.allowUnixSockets
  validateNonGlobalWildcardDomainPatterns "network.denied_domains" configDeniedDomains
  validateSwitch "network.enabled" config.network.enabled (constraints.enabled.getD true)
  validateMode config.network.mode constraints.mode
  validateSwitch "network.allow_upstream_proxy" config.network.allowUpstreamProxy
    (constraints.allowUpstreamProxy.getD true)
  validateSwitch "network.dangerously_allow_non_loopback_proxy"
    config.network.dangerouslyAllowNonLoopbackProxy
    (constraints.dangerouslyAllowNonLoopbackProxy.getD true)
  validateSwitch "network.dangerously_allow_all_unix_sockets"
    config.network.dangerouslyAllowAllUnixSockets
    (constraints.dangerouslyAllowAllUnixSockets.getD constraints.allowUnixSockets.isNone)
  validateSwitch "network.allow_local_binding" config.network.allowLocalBinding
    (constraints.allowLocalBinding.getD true)
  match constraints.allowedDomains with
  | some managed =>
    validateNonGlobalWildcardDomainPatterns "network.allowed_domains" managed
    validateAllowedDomains crates configAllowedDomains deniedDomainOverrides managed
      constraints.allowlistExpansionEnabled
  | none => pure ()
  match constraints.deniedDomains with
  | some managed =>
    validateNonGlobalWildcardDomainPatterns "network.denied_domains" managed
    validateDeniedDomains configDeniedDomains managed constraints.denylistExpansionEnabled
  | none => pure ()
  match constraints.allowUnixSockets with
  | some managed => validateAllowUnixSockets configAllowUnixSockets managed
  | none => pure ()

/-! ## The state built from a configuration -/

/-- `BlockedRequest`. -/
structure BlockedRequest where
  host : Text
  reason : Text
  client : Option Text := none
  method : Option Text := none
  mode : Option NetworkMode := none
  protocol : Text
  decision : Option Text := none
  source : Option Text := none
  port : Option UInt16 := none
  timestamp : ℤ
deriving DecidableEq

/-- `MitmState`, by the setting it was made with. -/
structure MitmState where
  allowUpstreamProxy : Bool
deriving DecidableEq

/-- `ConfigState`. -/
structure ConfigState where
  config : NetworkProxyConfig
  allowSet : GlobSet
  denySet : GlobSet
  mitm : Option MitmState
  constraints : NetworkProxyConstraints
  blocked : List BlockedRequest
  blockedTotal : ℕ

/-- The errors of `build_config_state`. -/
inductive BuildError where
  /-- invalid network.allow_unix_sockets at an index -/
  | invalidAllowUnixSockets (index : ℕ)
  | constraint (error : NetworkProxyConstraintError)
  | compile (error : CompileError)
  /-- `ManagedMitmCa::load_or_create` failed -/
  | mitm (error : Text)
deriving DecidableEq

/-- `build_config_state`, where `ca` is what `ManagedMitmCa::load_or_create` gives. -/
def buildConfigState (crates : Crates) (ca : Except Text Unit) (config : NetworkProxyConfig)
    (constraints : NetworkProxyConstraints) : Except BuildError ConfigState := do
  (validateUnixSocketAllowlistPaths config).mapError .invalidAllowUnixSockets
  let allowedDomains := config.network.allowedDomains.getD []
  let deniedDomains := config.network.deniedDomains.getD []
  (validateNonGlobalWildcardDomainPatterns "network.denied_domains" deniedDomains).mapError
    .constraint
  let denySet ← (compileDenylistGlobset crates deniedDomains).mapError .compile
  let allowSet ← (compileAllowlistGlobset crates allowedDomains).mapError .compile
  let mitm ←
    if config.network.mitm then
      (ca.mapError BuildError.mitm).map fun _ => some ⟨config.network.allowUpstreamProxy⟩
    else pure none
  return {
    config := config, allowSet := allowSet, denySet := denySet, mitm := mitm
    constraints := constraints, blocked := [], blockedTotal := 0 }

/-- The compiled sets are those of the configuration. -/
structure ConfigState.Consistent (crates : Crates) (state : ConfigState) : Prop where
  deny : compileDenylistGlobset crates (state.config.network.deniedDomains.getD []) = .ok state.denySet
  allow : compileAllowlistGlobset crates (state.config.network.allowedDomains.getD []) = .ok state.allowSet

/-- A built state holds the given config, consistently, and has blocked nothing. -/
lemma buildConfigState_spec {crates : Crates} {ca : Except Text Unit} {config : NetworkProxyConfig}
    {constraints : NetworkProxyConstraints} {state : ConfigState}
    (h : buildConfigState crates ca config constraints = .ok state) :
    state.config = config ∧ state.constraints = constraints ∧ state.Consistent crates ∧
      state.blocked = [] ∧ state.blockedTotal = 0 := by
  unfold buildConfigState at h
  simp only [Effects.except_bind_eq_ok, Effects.except_mapError_eq_ok] at h
  obtain ⟨_, -, _, -, denySet, hdeny, allowSet, hallow, hmitm⟩ := h
  split at hmitm
  · obtain ⟨_, -, hstate⟩ := Effects.except_bind_eq_ok.mp hmitm
    cases hstate
    exact ⟨rfl, rfl, ⟨hdeny, hallow⟩, rfl, rfl⟩
  · cases hmitm
    exact ⟨rfl, rfl, ⟨hdeny, hallow⟩, rfl, rfl⟩

end Supercodex.NetworkProxy
