import Supercodex.Library.Text

/-!
# Hosts and domain patterns

`network-proxy/src/policy.rs`: how hosts and patterns are normalised, the patterns compiled for
enforcement, and the patterns compared when a configuration is checked against its constraints. The
crates `url` and `globset` are parameters.
-/

namespace Supercodex.NetworkProxy

/-- What the policy takes from the crates `url` and `globset`. -/
structure Crates where
  /-- `url::Host::parse` followed by `to_string`. -/
  urlHost : Text → Option Text
  /-- `GlobBuilder::new(pattern).case_insensitive(true).build()`, with the matcher it compiles to. -/
  glob : Text → Except Text (Text → Bool)

/-- `str::to_ascii_lowercase`. -/
def toAsciiLowercase (t : Text) : Text := t.map Char.toLower

/-- `str::trim_end_matches('.')`. -/
def trimEndDots (t : Text) : Text := t.rdropWhile (· == '.')

/-! ## Hosts -/

/-- `normalize_dns_host`. -/
def normalizeDnsHost (host : Text) : Text := trimEndDots (toAsciiLowercase host)

/-- `normalize_host`: what stands in brackets, or before the only colon, or the whole. -/
def normalizeHost (host : Text) : Text :=
  let host := host.trim
  if host.head? = some '[' ∧ ']' ∈ host then
    normalizeDnsHost ((host.drop 1).takeWhile (· != ']'))
  else if host.count ':' = 1 then normalizeDnsHost (host.takeWhile (· != ':'))
  else normalizeDnsHost host

/-- `Host::parse`. -/
def parseHost (input : Text) : Option Text :=
  let normalized := normalizeHost input
  if normalized = [] then none else some normalized

/-! ## Patterns as the enforcement reads them -/

/-- `DomainPattern`. -/
inductive DomainPattern where
  | apexAndSubdomains (domain : Text)
  | subdomainsOnly (domain : Text)
  | exact (domain : Text)
deriving DecidableEq

/-- `normalize_pattern`. -/
def normalizePattern (pattern : Text) : Text :=
  let pattern := pattern.trim
  if pattern = ['*'] then ['*']
  else
    match Text.stripPrefix ['*', '*', '.'] pattern with
    | some domain => ['*', '*', '.'] ++ normalizeHost domain
    | none =>
      match Text.stripPrefix ['*', '.'] pattern with
      | some domain => ['*', '.'] ++ normalizeHost domain
      | none => normalizeHost pattern

namespace DomainPattern

/-- `DomainPattern::parse_domain`. -/
def parseDomain (domain : Text) (build : Text → DomainPattern) : DomainPattern :=
  let domain := domain.trim
  if domain = [] then .exact [] else build domain

/-- `DomainPattern::parse`. -/
def parse (input : Text) : DomainPattern :=
  let input := input.trim
  if input = [] then .exact []
  else
    match Text.stripPrefix ['*', '*', '.'] input with
    | some domain => parseDomain domain apexAndSubdomains
    | none =>
      match Text.stripPrefix ['*', '.'] input with
      | some domain => parseDomain domain subdomainsOnly
      | none => .exact input

/-- The globs of a pattern, the branches of `expand_domain_pattern`. -/
def globs : DomainPattern → List Text
  | exact domain => [domain]
  | subdomainsOnly domain => [['?', '*', '.'] ++ domain]
  | apexAndSubdomains domain => [domain, ['?', '*', '.'] ++ domain]

end DomainPattern

/-- `expand_domain_pattern`. -/
def expandDomainPattern (pattern : Text) : List Text := (DomainPattern.parse pattern).globs

/-- `is_global_wildcard_domain_pattern`. -/
def isGlobalWildcardDomainPattern (pattern : Text) : Bool :=
  (expandDomainPattern (normalizePattern pattern)).any (· == ['*'])

/-- `GlobalWildcard`. -/
inductive GlobalWildcard where
  | allow
  | reject
deriving DecidableEq

/-- The errors of `compile_globset_with_policy`. -/
inductive CompileError where
  /-- unsupported global wildcard domain pattern "*"; use exact hosts or scoped wildcards like
  `*.example.com` or `**.example.com` -/
  | unsupportedGlobalWildcard
  /-- invalid glob pattern: the candidate, with the crate's error -/
  | invalidGlobPattern (candidate error : Text)
deriving DecidableEq

/-- `GlobSet`: the matchers that were added. -/
structure GlobSet where
  matchers : List (Text → Bool)

/-- `GlobSet::is_match`. -/
def GlobSet.isMatch (set : GlobSet) (host : Text) : Bool := set.matchers.any (· host)

/-- The inner loop of `compile_globset_with_policy`, over the globs of one pattern, with the globs
already seen. -/
def addCandidates (crates : Crates) :
    List Text → List Text × GlobSet → Except CompileError (List Text × GlobSet)
  | [], state => .ok state
  | candidate :: candidates, (seen, set) =>
    if candidate ∈ seen then addCandidates crates candidates (seen, set)
    else
      match crates.glob candidate with
      | .error error => .error (.invalidGlobPattern candidate error)
      | .ok matcher =>
        addCandidates crates candidates (candidate :: seen, ⟨set.matchers ++ [matcher]⟩)

/-- The outer loop of `compile_globset_with_policy`. -/
def addPatterns (crates : Crates) (globalWildcard : GlobalWildcard) :
    List Text → List Text × GlobSet → Except CompileError GlobSet
  | [], (_, set) => .ok set
  | pattern :: patterns, state =>
    if globalWildcard = .reject ∧ isGlobalWildcardDomainPattern pattern then
      .error .unsupportedGlobalWildcard
    else
      match addCandidates crates (expandDomainPattern (normalizePattern pattern)) state with
      | .error error => .error error
      | .ok state => addPatterns crates globalWildcard patterns state

/-- `compile_globset_with_policy`. -/
def compileGlobsetWithPolicy (crates : Crates) (patterns : List Text)
    (globalWildcard : GlobalWildcard) : Except CompileError GlobSet :=
  addPatterns crates globalWildcard patterns ([], ⟨[]⟩)

/-- `compile_allowlist_globset`. -/
def compileAllowlistGlobset (crates : Crates) (patterns : List Text) :
    Except CompileError GlobSet :=
  compileGlobsetWithPolicy crates patterns .allow

/-- `compile_denylist_globset`. -/
def compileDenylistGlobset (crates : Crates) (patterns : List Text) :
    Except CompileError GlobSet :=
  compileGlobsetWithPolicy crates patterns .reject

/-! ## Patterns as the constraints compare them -/

/-- `parse_domain_for_constraints`. -/
def parseDomainForConstraints (crates : Crates) (domain : Text) : Text :=
  let domain := trimEndDots domain.trim
  if domain = [] then []
  else
    let host :=
      if domain.head? = some '[' ∧ domain.getLast? = some ']' then (domain.drop 1).dropLast
      else domain
    if '*' ∈ host ∨ '?' ∈ host ∨ '%' ∈ host then domain
    else (crates.urlHost host).getD []

/-- `normalize_domain`. -/
def normalizeDomain (domain : Text) : Text := toAsciiLowercase (trimEndDots domain)

/-- `domain_eq`. -/
def domainEq (left right : Text) : Bool := normalizeDomain left == normalizeDomain right

/-- `is_subdomain_or_equal`. -/
def isSubdomainOrEqual (child parent : Text) : Bool :=
  let child := normalizeDomain child
  let parent := normalizeDomain parent
  child == parent || ('.' :: parent).isSuffixOf child

/-- `is_strict_subdomain`. -/
def isStrictSubdomain (child parent : Text) : Bool :=
  let child := normalizeDomain child
  let parent := normalizeDomain parent
  child != parent && ('.' :: parent).isSuffixOf child

namespace DomainPattern

/-- `DomainPattern::parse_for_constraints`. -/
def parseForConstraints (crates : Crates) (input : Text) : DomainPattern :=
  let input := input.trim
  if input = [] then .exact []
  else
    match Text.stripPrefix ['*', '*', '.'] input with
    | some domain => .apexAndSubdomains (parseDomainForConstraints crates domain)
    | none =>
      match Text.stripPrefix ['*', '.'] input with
      | some domain => .subdomainsOnly (parseDomainForConstraints crates domain)
      | none => .exact (parseDomainForConstraints crates input)

/-- `DomainPattern::allows`. -/
def allows : DomainPattern → DomainPattern → Bool
  | exact domain, exact candidate => domainEq candidate domain
  | exact _, _ => false
  | subdomainsOnly domain, exact candidate => isStrictSubdomain candidate domain
  | subdomainsOnly domain, subdomainsOnly candidate => isSubdomainOrEqual candidate domain
  | subdomainsOnly domain, apexAndSubdomains candidate => isStrictSubdomain candidate domain
  | apexAndSubdomains domain, exact candidate => isSubdomainOrEqual candidate domain
  | apexAndSubdomains domain, subdomainsOnly candidate => isSubdomainOrEqual candidate domain
  | apexAndSubdomains domain, apexAndSubdomains candidate => isSubdomainOrEqual candidate domain

end DomainPattern

end Supercodex.NetworkProxy
