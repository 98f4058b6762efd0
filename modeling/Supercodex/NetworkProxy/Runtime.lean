import Supercodex.NetworkProxy.State

/-!
# The network proxy's shared state

`NetworkProxyState` of `network-proxy/src/runtime.rs`. Any number of tasks call its operations; a
step of the system is one acquisition of the state's lock by one task, or what a task does between
two of them. The requests recorded, drained and evicted are kept beside the state.
-/

namespace Supercodex.NetworkProxy

/-- `MAX_BLOCKED_EVENTS`. -/
def maxBlockedEvents : ℕ := 200

/-- `u64::MAX`. -/
def u64Max : ℕ := 2 ^ 64 - 1

/-- `DomainListKind`. -/
inductive DomainListKind where
  | allow
  | deny
deriving DecidableEq

namespace DomainListKind

/-- `DomainListKind::permission`. -/
def permission : DomainListKind → NetworkDomainPermission
  | allow => .allow
  | deny => .deny

/-- `DomainListKind::entries`. -/
def entries (network : NetworkProxySettings) : DomainListKind → List Text
  | allow => network.allowedDomains.getD []
  | deny => network.deniedDomains.getD []

/-- `DomainListKind::opposite_entries`. -/
def oppositeEntries (network : NetworkProxySettings) : DomainListKind → List Text
  | allow => network.deniedDomains.getD []
  | deny => network.allowedDomains.getD []

end DomainListKind

/-- The operations that begin with `reload_if_needed`. -/
inductive Operation where
  /-- An operation that only reads the state. -/
  | read
  | recordBlocked (entry : BlockedRequest)
  | drainBlocked
  | replaceConfigState (new : ConfigState)
  | setNetworkMode (mode : NetworkMode)
  | updateDomainList (normalizedHost : Text) (target : DomainListKind)

/-- Where a task is. Between two locks it holds what it has read or built. -/
inductive Task where
  | idle
  /-- at the head of `reload_if_needed` -/
  | reload (operation : Operation)
  | reloadRead (operation : Operation) (new : ConfigState)
  | reloadWrite (operation : Operation) (new : ConfigState)
  /-- `reload_if_needed` has returned -/
  | body (operation : Operation)
  | updateBuild (normalizedHost : Text) (target : DomainListKind) (previous : NetworkProxyConfig)
      (constraints : NetworkProxyConstraints) (blocked : List BlockedRequest) (blockedTotal : ℕ)
  | updateWrite (normalizedHost : Text) (target : DomainListKind) (previous : NetworkProxyConfig)
      (constraints : NetworkProxyConstraints) (new : ConfigState)
  | modeWrite (mode : NetworkMode) (constraints : NetworkProxyConstraints)
  | forceRead
  | forceReload
  | forceWrite (new : ConfigState)

/-- What a task does next. -/
inductive Action where
  | call (operation : Operation)
  | callUpdateDomainList (host : Text) (target : DomainListKind)
  | callForceReload
  /-- `ConfigReloader::maybe_reload` returns. -/
  | maybeReload (result : Except Text (Option ConfigState))
  /-- `ConfigReloader::reload_now` returns. -/
  | reloadNow (result : Except Text ConfigState)
  /-- The candidate of `update_domain_list` is checked and compiled. -/
  | build (ca : Except Text Unit)
  /-- The lock is taken and released. -/
  | lock

/-- The shared state, the tasks, and what has become of the recorded requests. -/
structure System where
  state : ConfigState
  tasks : ℕ → Task
  recorded : List BlockedRequest
  drained : List BlockedRequest
  evicted : List BlockedRequest

namespace System

/-- A new `NetworkProxyState`. -/
def new (state : ConfigState) : System := ⟨state, fun _ => .idle, [], [], []⟩

/-- The task goes on elsewhere. -/
def goto (s : System) (task : ℕ) (next : Task) : System :=
  { s with tasks := Function.update s.tasks task next }

/-- Another state is put under the lock. -/
def install (s : System) (state : ConfigState) : System := { s with state := state }

end System

/-- The loop at the end of `record_blocked`, which pops the oldest entries while there are too many:
what it pops and what it leaves. -/
def popExcess : List BlockedRequest → List BlockedRequest × List BlockedRequest
  | [] => ([], [])
  | entry :: rest =>
    if (entry :: rest).length > maxBlockedEvents then
      let (popped, left) := popExcess rest
      (entry :: popped, left)
    else ([], entry :: rest)

/-- The write of `record_blocked`. -/
def System.record (s : System) (entry : BlockedRequest) : System :=
  let (popped, left) := popExcess (s.state.blocked ++ [entry])
  { s with
    state := { s.state with
      blocked := left
      blockedTotal := min (s.state.blockedTotal + 1) u64Max }
    recorded := s.recorded ++ [entry]
    evicted := s.evicted ++ popped }

/-- The write of `drain_blocked`. -/
def System.drain (s : System) : System :=
  { s with
    state := { s.state with blocked := [] }
    drained := s.drained ++ s.state.blocked }

/-- The candidate of `update_domain_list`, if the lists have to change. -/
def updateCandidate (previous : NetworkProxyConfig) (normalizedHost : Text)
    (target : DomainListKind) : Option NetworkProxyConfig :=
  let targetContains := (target.entries previous.network).any (normalizeHost · == normalizedHost)
  let oppositeContains :=
    (target.oppositeEntries previous.network).any (normalizeHost · == normalizedHost)
  if targetContains && !oppositeContains then none
  else some ⟨previous.network.upsertDomainPermission normalizedHost target.permission normalizeHost⟩

/-- What `update_domain_list` builds between its two locks: nothing to do, an error, or the state to
install. -/
def updateState (crates : Crates) (ca : Except Text Unit) (previous : NetworkProxyConfig)
    (constraints : NetworkProxyConstraints) (normalizedHost : Text) (target : DomainListKind) :
    Option (Except BuildError ConfigState) :=
  (updateCandidate previous normalizedHost target).map fun candidate => do
    (validatePolicyAgainstConstraints crates candidate constraints).mapError .constraint
    buildConfigState crates ca candidate constraints

/-- What an operation does under its lock once `reload_if_needed` has returned. -/
def System.runBody (crates : Crates) (s : System) (task : ℕ) : Operation → System
  | .read => s.goto task .idle
  | .recordBlocked entry => (s.record entry).goto task .idle
  | .drainBlocked => s.drain.goto task .idle
  | .replaceConfigState new =>
    (s.install { new with
      blocked := s.state.blocked
      blockedTotal := s.state.blockedTotal }).goto task .idle
  | .setNetworkMode mode =>
    let candidate : NetworkProxyConfig := ⟨{ s.state.config.network with mode := mode }⟩
    match validatePolicyAgainstConstraints crates candidate s.state.constraints with
    | .error _ => s.goto task .idle
    | .ok () => s.goto task (.modeWrite mode s.state.constraints)
  | .updateDomainList normalizedHost target =>
    s.goto task (.updateBuild normalizedHost target s.state.config s.state.constraints
      s.state.blocked s.state.blockedTotal)

/-- One step of one task. -/
def System.step (crates : Crates) (s : System) (task : ℕ) (action : Action) : Option System :=
  match s.tasks task, action with
  | .idle, .call operation => some (s.goto task (.reload operation))
  | .idle, .callUpdateDomainList host target =>
    match parseHost host with
    | none => some s
    | some normalizedHost => some (s.goto task (.reload (.updateDomainList normalizedHost target)))
  | .idle, .callForceReload => some (s.goto task .forceRead)
  -- reload_if_needed
  | .reload _, .maybeReload (.error _) => some (s.goto task .idle)
  | .reload operation, .maybeReload (.ok none) => some (s.goto task (.body operation))
  | .reload operation, .maybeReload (.ok (some new)) =>
    some (s.goto task (.reloadRead operation new))
  | .reloadRead operation new, .lock =>
    some (s.goto task (.reloadWrite operation { new with
      blocked := s.state.blocked
      blockedTotal := s.state.blockedTotal }))
  | .reloadWrite operation new, .lock => some ((s.install new).goto task (.body operation))
  | .body operation, .lock => some (s.runBody crates task operation)
  -- update_domain_list
  | .updateBuild normalizedHost target previous constraints blocked blockedTotal, .build ca =>
    match updateState crates ca previous constraints normalizedHost target with
    | none => some (s.goto task .idle)
    | some (.error _) => some (s.goto task .idle)
    | some (.ok new) =>
      some (s.goto task (.updateWrite normalizedHost target previous constraints
        { new with blocked := blocked, blockedTotal := blockedTotal }))
  | .updateWrite normalizedHost target previous constraints new, .lock =>
    if s.state.constraints ≠ constraints ∨ s.state.config ≠ previous then
      some (s.goto task (.reload (.updateDomainList normalizedHost target)))
    else some ((s.install new).goto task .idle)
  -- set_network_mode
  | .modeWrite mode constraints, .lock =>
    if s.state.constraints ≠ constraints then some (s.goto task (.reload (.setNetworkMode mode)))
    else
      some ((s.install { s.state with
        config := ⟨{ s.state.config.network with mode := mode }⟩ }).goto task .idle)
  -- force_reload
  | .forceRead, .lock => some (s.goto task .forceReload)
  | .forceReload, .reloadNow (.error _) => some (s.goto task .idle)
  | .forceReload, .reloadNow (.ok new) => some (s.goto task (.forceWrite new))
  | .forceWrite new, .lock =>
    some ((s.install { new with blocked := s.state.blocked }).goto task .idle)
  | _, _ => none

end Supercodex.NetworkProxy

/-!
# Which hosts are blocked

`NetworkProxyState::host_blocked` of `network-proxy/src/runtime.rs`, on the state that is read. The parsing of IP
literals and the lookup of names are parameters.
-/

namespace Supercodex.NetworkProxy

/-- `HostBlockReason`. -/
inductive HostBlockReason where
  | denied
  | notAllowed
  | notAllowedLocal
deriving DecidableEq

/-- `HostBlockDecision`. -/
inductive HostBlockDecision where
  | allowed
  | blocked (reason : HostBlockReason)
deriving DecidableEq

/-- `IpAddr`, by `is_loopback` and `is_non_public_ip`. -/
structure IpAddr where
  isLoopback : Bool
  isNonPublicIp : Bool
deriving DecidableEq

/-- What `host_blocked` asks of the standard library and the network. -/
structure Lookups where
  /-- `str::parse::<IpAddr>`. -/
  parseIp : Text → Option IpAddr
  /-- `lookup_host`, or nothing if it fails or takes too long. -/
  lookupHost : Text → UInt16 → Option (List IpAddr)

section

variable (lookups : Lookups)

/-- The host without a scope. -/
def hostNoScope (host : Text) : Text := host.takeWhile (· != '%')

/-- `is_loopback_host`. -/
def isLoopbackHost (host : Text) : Bool :=
  let host := hostNoScope host
  host == "localhost".toList || (lookups.parseIp host).any (·.isLoopback)

/-- Is the host a local name, or a literal that is not public? -/
def isLocalLiteral (host : Text) : Bool :=
  isLoopbackHost lookups host || (lookups.parseIp (hostNoScope host)).any (·.isNonPublicIp)

/-- `host_resolves_to_non_public_ip`. -/
def hostResolvesToNonPublicIp (host : Text) (port : UInt16) : Bool :=
  match lookups.parseIp host with
  | some ip => ip.isNonPublicIp
  | none =>
    match lookups.lookupHost host port with
    | none => true
    | some addrs => addrs.any (·.isNonPublicIp)

/-- `is_explicit_local_allowlisted`. -/
def isExplicitLocalAllowlisted (allowedDomains : List Text) (host : Text) : Bool :=
  allowedDomains.any fun pattern =>
    let pattern := pattern.trim
    if pattern = ['*'] ∨ ['*', '.'] <+: pattern ∨ ['*', '*', '.'] <+: pattern then false
    else if '*' ∈ pattern ∨ '?' ∈ pattern then false
    else normalizeHost pattern == host

/-- The check of `host_blocked` for local and private networks: is the host one that is not allowed there? -/
def isBlockedLocal (allowedDomains : List Text) (host : Text) (port : UInt16) : Bool :=
  if isLocalLiteral lookups host then !isExplicitLocalAllowlisted allowedDomains host
  else hostResolvesToNonPublicIp lookups host port

/-- `NetworkProxyState::host_blocked`. -/
def hostBlocked (state : ConfigState) (host : Text) (port : UInt16) : HostBlockDecision :=
  match parseHost host with
  | none => .blocked .notAllowed
  | some host =>
    let allowedDomains := state.config.network.allowedDomains
    if state.denySet.isMatch host then .blocked .denied
    else if !state.config.network.allowLocalBinding && isBlockedLocal lookups (allowedDomains.getD []) host port then
      .blocked .notAllowedLocal
    else if allowedDomains.isNone || !state.allowSet.isMatch host then .blocked .notAllowed
    else .allowed

end

lemma hostBlocked_of_denied {lookups : Lookups} {state : ConfigState} {host normalized : Text} {port : UInt16}
    (hparse : parseHost host = some normalized) (h : state.denySet.isMatch normalized = true) :
    hostBlocked lookups state host port = .blocked .denied := by
  unfold hostBlocked
  rw [hparse]
  dsimp only
  rw [if_pos h]

end Supercodex.NetworkProxy
