import Supercodex.NetworkProxy.State
import Supercodex.NetworkProxy.HostTheorems
import Supercodex.Library.Wildcard

/-!
# The managed allowlist as an upper bound

Two readings of a pattern are compared. The enforcement normalises the entry and compiles globs; the
constraints parse the entry with `url` and compare domains as texts. The hosts of a pattern are those
its globs take, read as literal characters, `'?'` and `'*'`.
-/

namespace Supercodex.NetworkProxy

open DomainPattern Text Wildcard

/-! ## Globs -/

open Wildcard in
/-- A character of a glob. -/
def globToken (c : Char) : Token Char :=
  if c = '*' then .many else if c = '?' then .one else .lit c

/-- The hosts that a glob takes: literal characters in either case, `'?'` and `'*'`. -/
def globAccepts (glob host : Text) : Bool :=
  Wildcard.accepts Char.toLower (glob.map globToken) host

/-- A text without wildcards. -/
def WildcardFree (t : Text) : Prop := '*' ∉ t ∧ '?' ∉ t

instance (t : Text) : Decidable (WildcardFree t) := inferInstanceAs (Decidable (_ ∧ _))

lemma map_globToken_of_wildcardFree {d : Text} (h : WildcardFree d) :
    d.map globToken = d.map .lit := by
  apply List.map_congr_left
  intro c hc
  have hstar : c ≠ '*' := fun heq => h.1 (heq ▸ hc)
  have hquestion : c ≠ '?' := fun heq => h.2 (heq ▸ hc)
  rw [globToken, if_neg hstar, if_neg hquestion]

lemma globAccepts_append {p q host : Text} :
    globAccepts (p ++ q) host = true ↔
      ∃ u v, host = u ++ v ∧ globAccepts p u = true ∧ globAccepts q v = true := by
  unfold globAccepts
  rw [List.map_append, accepts_append]

variable {d host : Text}

lemma globAccepts_of_wildcardFree (h : WildcardFree d) :
    globAccepts d host = true ↔ host.map Char.toLower = d.map Char.toLower := by
  unfold globAccepts
  rw [map_globToken_of_wildcardFree h, accepts_map_lit]

lemma globAccepts_dot_cons :
    globAccepts ('.' :: d) host = true ↔ ∃ v, host = '.' :: v ∧ globAccepts d v = true := by
  have hdot : globToken '.' = .lit '.' := rfl
  unfold globAccepts
  rw [List.map_cons, hdot, accepts_lit]
  constructor
  · rintro ⟨b, v, rfl, hb, hv⟩
    have : b = '.' := (toLower_eq_iff (by decide)).mp (hb.symm.trans (by decide))
    exact ⟨v, by rw [this], hv⟩
  · rintro ⟨v, rfl, hv⟩
    exact ⟨'.', v, rfl, rfl, hv⟩

lemma globAccepts_below :
    globAccepts (['?', '*', '.'] ++ d) host = true ↔
      ∃ u v, u ≠ [] ∧ host = u ++ '.' :: v ∧ globAccepts d v = true := by
  have hstart (w : Text) : globAccepts ['?', '*'] w = true ↔ w ≠ [] := by
    have htokens : ['?', '*'].map globToken = [.one, .many] := rfl
    unfold globAccepts
    rw [htokens, accepts_one]
    simp only [accepts_many, accepts_nil]
    constructor
    · rintro ⟨b, v, rfl, -⟩
      exact List.cons_ne_nil b v
    · intro hw
      obtain ⟨b, v, rfl⟩ := List.exists_cons_of_ne_nil hw
      exact ⟨b, v, rfl, v, [], by simp, rfl⟩
  have hsplit : ['?', '*', '.'] ++ d = ['?', '*'] ++ '.' :: d := rfl
  rw [hsplit, globAccepts_append]
  simp only [hstart, globAccepts_dot_cons]
  constructor
  · rintro ⟨u, _, rfl, hu, v, rfl, hv⟩
    exact ⟨u, v, hu, rfl, hv⟩
  · rintro ⟨u, v, hu, rfl, hv⟩
    exact ⟨u, '.' :: v, rfl, hu, v, rfl, hv⟩

lemma ne_nil_of_globAccepts {w host : Text} (hw : ∃ c ∈ w, c ≠ '*')
    (h : globAccepts w host = true) : host ≠ [] := by
  refine ne_nil_of_accepts ?_ h
  obtain ⟨c, hc, hne⟩ := hw
  refine ⟨globToken c, List.mem_map_of_mem hc, ?_⟩
  unfold globToken
  rw [if_neg hne]
  split <;> simp

/-! ## Which patterns lie within which -/

variable {managed : List DomainPattern}

namespace DomainPattern

/-- The domain of a pattern. -/
def domain : DomainPattern → Text
  | exact d => d
  | subdomainsOnly d => d
  | apexAndSubdomains d => d

/-- Does one of the pattern's globs take the host? -/
def Matches (p : DomainPattern) (host : Text) : Prop := ∃ glob ∈ p.globs, globAccepts glob host = true

instance (p : DomainPattern) (host : Text) : Decidable (p.Matches host) :=
  inferInstanceAs (Decidable (∃ glob ∈ p.globs, globAccepts glob host = true))

/-- Is the host of the domain among the pattern's hosts, by the texts alone? Below the pattern's
domain stands at least one character that is no star. -/
def CoversHost (d : Text) : DomainPattern → Prop
  | exact a => d = a
  | subdomainsOnly a => ∃ w, d = w ++ '.' :: a ∧ ∃ c ∈ w, c ≠ '*'
  | apexAndSubdomains a => d = a ∨ ∃ w, d = w ++ '.' :: a ∧ ∃ c ∈ w, c ≠ '*'

/-- Are the hosts below the domain among the pattern's hosts, by the texts alone? -/
def CoversBelow (d : Text) : DomainPattern → Prop
  | exact _ => False
  | subdomainsOnly a => d = a ∨ ∃ w, d = w ++ '.' :: a
  | apexAndSubdomains a => d = a ∨ ∃ w, d = w ++ '.' :: a

/-- Do the texts show that the patterns together take every host of this one? -/
def CoveredBy (managed : List DomainPattern) : DomainPattern → Prop
  | exact d => ∃ m ∈ managed, m.CoversHost d
  | subdomainsOnly d => ∃ m ∈ managed, m.CoversBelow d
  | apexAndSubdomains d => (∃ m ∈ managed, m.CoversHost d) ∧ ∃ m ∈ managed, m.CoversBelow d

variable {d host : Text}

lemma matches_exact : (exact d).Matches host ↔ globAccepts d host = true := by
  simp [Matches, globs]

lemma matches_subdomainsOnly : (subdomainsOnly d).Matches host ↔
      ∃ u v, u ≠ [] ∧ host = u ++ '.' :: v ∧ globAccepts d v = true := by
  rw [← globAccepts_below]
  simp only [Matches, globs, List.mem_singleton, exists_eq_left]

lemma matches_apexAndSubdomains : (apexAndSubdomains d).Matches host ↔
      (exact d).Matches host ∨ (subdomainsOnly d).Matches host := by
  simp only [Matches, globs, List.mem_cons, List.not_mem_nil, or_false, exists_eq_or_imp,
    exists_eq_left]

lemma matches_below {w a host : Text} (hw : ∃ c ∈ w, c ≠ '*')
    (h : globAccepts (w ++ '.' :: a) host = true) : (subdomainsOnly a).Matches host := by
  obtain ⟨u, v, rfl, hu, hv⟩ := globAccepts_append.mp h
  obtain ⟨v', rfl, hv'⟩ := globAccepts_dot_cons.mp hv
  exact matches_subdomainsOnly.mpr ⟨u, v', ne_nil_of_globAccepts hw hu, rfl, hv'⟩

variable {m : DomainPattern}

lemma CoversHost.matches (hm : m.CoversHost d)
    (h : globAccepts d host = true) : m.Matches host := by
  cases m with
  | exact a => exact matches_exact.mpr (hm ▸ h)
  | subdomainsOnly a =>
    obtain ⟨w, rfl, hw⟩ := hm
    exact matches_below hw h
  | apexAndSubdomains a =>
    rw [matches_apexAndSubdomains]
    rcases hm with rfl | ⟨w, rfl, hw⟩
    · exact .inl (matches_exact.mpr h)
    · exact .inr (matches_below hw h)

lemma matches_below_of_below {d a host : Text} (hd : d = a ∨ ∃ w, d = w ++ '.' :: a)
    (h : (subdomainsOnly d).Matches host) : (subdomainsOnly a).Matches host := by
  rcases hd with rfl | ⟨w, rfl⟩
  · exact h
  obtain ⟨u, v, hu, rfl, hv⟩ := matches_subdomainsOnly.mp h
  obtain ⟨s, t, rfl, -, ht⟩ := globAccepts_append.mp hv
  obtain ⟨t', rfl, ht'⟩ := globAccepts_dot_cons.mp ht
  refine matches_subdomainsOnly.mpr ⟨u ++ '.' :: s, t', ?_, ?_, ht'⟩
  · exact List.append_ne_nil_of_left_ne_nil hu _
  · rw [List.append_assoc, List.cons_append]

lemma CoversBelow.matches (hm : m.CoversBelow d)
    (h : (subdomainsOnly d).Matches host) : m.Matches host := by
  cases m with
  | exact a => exact hm.elim
  | subdomainsOnly a => exact matches_below_of_below hm h
  | apexAndSubdomains a =>
    exact matches_apexAndSubdomains.mpr (.inr (matches_below_of_below hm h))

variable {p : DomainPattern}

lemma CoveredBy.matches (hp : p.CoveredBy managed) (h : p.Matches host)
    : ∃ m ∈ managed, m.Matches host := by
  have hexact {d : Text} (hd : ∃ m ∈ managed, m.CoversHost d) (h : (exact d).Matches host) :
      ∃ m ∈ managed, m.Matches host := by
    obtain ⟨m, hm, hcovers⟩ := hd
    exact ⟨m, hm, hcovers.matches (matches_exact.mp h)⟩
  have hbelow {d : Text} (hd : ∃ m ∈ managed, m.CoversBelow d)
      (h : (subdomainsOnly d).Matches host) : ∃ m ∈ managed, m.Matches host := by
    obtain ⟨m, hm, hcovers⟩ := hd
    exact ⟨m, hm, hcovers.matches h⟩
  cases p with
  | exact d => exact hexact hp h
  | subdomainsOnly d => exact hbelow hp h
  | apexAndSubdomains d =>
    rcases matches_apexAndSubdomains.mp h with h | h
    · exact hexact hp.1 h
    · exact hbelow hp.2 h

/-! ### Without wildcards the texts decide -/

/-- A pattern whose domain is in lower case and holds no wildcard. -/
structure Plain (p : DomainPattern) : Prop where
  wildcardFree : WildcardFree p.domain
  lowercase : Lowercase p.domain

lemma globAccepts_plain {a d : Text} (ha : WildcardFree a) (hl : Lowercase a) (hd : Lowercase d) :
    globAccepts a d = true ↔ d = a := by
  rw [globAccepts_of_wildcardFree ha, hl.map_toLower, hd.map_toLower]

lemma Plain.matches_below_iff {a host : Text} (ha : WildcardFree a) (hl : Lowercase a)
    (hhost : Lowercase host) :
    (subdomainsOnly a).Matches host ↔ ∃ w, host = w ++ '.' :: a ∧ w ≠ [] := by
  rw [matches_subdomainsOnly]
  constructor
  · rintro ⟨u, v, hu, rfl, hv⟩
    have hv' : Lowercase v := hhost.subset fun c hc => by simp [hc]
    rw [(globAccepts_plain ha hl hv').mp hv]
    exact ⟨u, rfl, hu⟩
  · rintro ⟨w, rfl, hw⟩
    exact ⟨w, a, hw, rfl, (globAccepts_plain ha hl hl).mpr rfl⟩

variable {d : Text}

lemma Plain.coversHost (hm : m.Plain) (hd : WildcardFree d)
    (hl : Lowercase d) (h : m.Matches d) : m.CoversHost d := by
  have hbelow {a : Text} (ha : WildcardFree a) (hla : Lowercase a)
      (h : (subdomainsOnly a).Matches d) : ∃ w, d = w ++ '.' :: a ∧ ∃ c ∈ w, c ≠ '*' := by
    obtain ⟨w, rfl, hw⟩ := (matches_below_iff ha hla hl).mp h
    obtain ⟨c, w, rfl⟩ := List.exists_cons_of_ne_nil hw
    refine ⟨c :: w, rfl, c, List.mem_cons_self, ?_⟩
    rintro rfl
    exact hd.1 (by simp)
  cases m with
  | exact a => exact (globAccepts_plain hm.wildcardFree hm.lowercase hl).mp (matches_exact.mp h)
  | subdomainsOnly a => exact hbelow hm.wildcardFree hm.lowercase h
  | apexAndSubdomains a =>
    rcases matches_apexAndSubdomains.mp h with h | h
    · exact .inl ((globAccepts_plain hm.wildcardFree hm.lowercase hl).mp (matches_exact.mp h))
    · exact .inr (hbelow hm.wildcardFree hm.lowercase h)

/-- A host far below a domain: the domain after a long label. -/
def farBelow (n : ℕ) (d : Text) : Text := List.replicate n 'z' ++ '.' :: d

lemma lowercase_farBelow (hl : Lowercase d) (n : ℕ) : Lowercase (farBelow n d) := by
  intro c hc
  rcases List.mem_append.mp hc with hc | hc
  · rw [List.eq_of_mem_replicate hc]
    rfl
  · rcases List.mem_cons.mp hc with rfl | hc
    · rfl
    · exact hl c hc

lemma below_of_farBelow {n : ℕ} {w a d : Text} (h : farBelow n d = w ++ '.' :: a) :
    d = a ∨ ∃ w, d = w ++ '.' :: a := by
  rcases List.append_eq_append_iff.mp h with ⟨s, -, hs⟩ | ⟨s, hz, hs⟩
  · cases s with
    | nil => exact .inl (List.cons.inj hs).2
    | cons c s => exact .inr ⟨s, (List.cons.inj hs).2⟩
  · cases s with
    | nil => exact .inl (List.cons.inj hs).2.symm
    | cons c s =>
      have hc : c = 'z' := List.eq_of_mem_replicate (n := n) (by rw [hz]; simp)
      have hdot : c = '.' := (List.cons.inj hs).1.symm
      rw [hc] at hdot
      exact absurd hdot (by decide)

lemma Plain.coversBelow {n : ℕ} (hm : m.Plain) (hl : Lowercase d)
    (hn : m.domain.length < n) (h : m.Matches (farBelow n d)) : m.CoversBelow d := by
  have hfar := lowercase_farBelow hl n
  have hexact {a : Text} (ha : WildcardFree a) (hla : Lowercase a) (han : a.length < n) :
      ¬(exact a).Matches (farBelow n d) := by
    intro h
    have heq := (globAccepts_plain ha hla hfar).mp (matches_exact.mp h)
    have hlen := congrArg List.length heq
    simp only [farBelow, List.length_append, List.length_replicate, List.length_cons] at hlen
    omega
  have hbelow {a : Text} (ha : WildcardFree a) (hla : Lowercase a)
      (h : (subdomainsOnly a).Matches (farBelow n d)) : d = a ∨ ∃ w, d = w ++ '.' :: a := by
    obtain ⟨w, hw, -⟩ := (matches_below_iff ha hla hfar).mp h
    exact below_of_farBelow hw
  cases m with
  | exact a => exact hexact hm.wildcardFree hm.lowercase hn h
  | subdomainsOnly a => exact hbelow hm.wildcardFree hm.lowercase h
  | apexAndSubdomains a =>
    rcases matches_apexAndSubdomains.mp h with h | h
    · exact absurd h (hexact hm.wildcardFree hm.lowercase hn)
    · exact hbelow hm.wildcardFree hm.lowercase h

/-- Without wildcards the hosts of a pattern are all taken exactly if the texts show it. -/
theorem Plain.coveredBy_iff (hp : p.Plain)
    (hmanaged : ∀ m ∈ managed, m.Plain) :
    p.CoveredBy managed ↔ ∀ host, p.Matches host → ∃ m ∈ managed, m.Matches host := by
  refine ⟨fun h host => h.matches, fun h => ?_⟩
  have hhost {d : Text} (hd : WildcardFree d) (hl : Lowercase d)
      (h : ∀ host, (exact d).Matches host → ∃ m ∈ managed, m.Matches host) :
      ∃ m ∈ managed, m.CoversHost d := by
    obtain ⟨m, hm, hmatch⟩ := h d (matches_exact.mpr ((globAccepts_plain hd hl hl).mpr rfl))
    exact ⟨m, hm, (hmanaged m hm).coversHost hd hl hmatch⟩
  have hbelow {d : Text} (hd : WildcardFree d) (hl : Lowercase d)
      (h : ∀ host, (subdomainsOnly d).Matches host → ∃ m ∈ managed, m.Matches host) :
      ∃ m ∈ managed, m.CoversBelow d := by
    -- longer than every managed domain, so that no exact pattern takes the host
    let n := (managed.map fun m => m.domain.length).sum + 1
    have hfar : (subdomainsOnly d).Matches (farBelow n d) :=
      (matches_below_iff hd hl (lowercase_farBelow hl n)).mpr
        ⟨List.replicate n 'z', rfl, by simp [n]⟩
    obtain ⟨m, hm, hmatch⟩ := h _ hfar
    have hn : m.domain.length < n := by
      have := List.single_le_sum (l := managed.map fun m => m.domain.length) (by simp) _
        (List.mem_map_of_mem hm)
      omega
    exact ⟨m, hm, (hmanaged m hm).coversBelow hl hn hmatch⟩
  cases p with
  | exact d => exact hhost hp.wildcardFree hp.lowercase h
  | subdomainsOnly d => exact hbelow hp.wildcardFree hp.lowercase h
  | apexAndSubdomains d =>
    constructor
    · exact hhost hp.wildcardFree hp.lowercase
        fun host hm => h host (matches_apexAndSubdomains.mpr (.inl hm))
    · exact hbelow hp.wildcardFree hp.lowercase
        fun host hm => h host (matches_apexAndSubdomains.mpr (.inr hm))

/-! ### The comparison of the constraints -/

/-- The pattern with its domain as `allows` compares it. -/
def normalized : DomainPattern → DomainPattern
  | exact d => exact (normalizeDomain d)
  | subdomainsOnly d => subdomainsOnly (normalizeDomain d)
  | apexAndSubdomains d => apexAndSubdomains (normalizeDomain d)

/-- The candidate's own host is the other's domain with nothing but stars before the dot: `allows`
takes it for a subdomain. -/
def BareApex : DomainPattern → DomainPattern → Prop
  | exact _, _ => False
  | _, subdomainsOnly _ => False
  | a, c => ∃ w, normalizeDomain c.domain = w ++ '.' :: normalizeDomain a.domain ∧ ∀ x ∈ w, x = '*'

lemma domain_normalized (p : DomainPattern) : p.normalized.domain = normalizeDomain p.domain := by
  cases p <;> rfl

lemma isSubdomainOrEqual_iff {child parent : Text} :
    isSubdomainOrEqual child parent = true ↔
      normalizeDomain child = normalizeDomain parent ∨
        ∃ w, normalizeDomain child = w ++ '.' :: normalizeDomain parent := by
  simp only [isSubdomainOrEqual, Bool.or_eq_true, beq_iff_eq, List.isSuffixOf_iff_suffix]
  refine or_congr_right ⟨?_, ?_⟩
  · rintro ⟨w, hw⟩
    exact ⟨w, hw.symm⟩
  · rintro ⟨w, hw⟩
    exact ⟨w, hw.symm⟩

lemma isStrictSubdomain_iff {child parent : Text} :
    isStrictSubdomain child parent = true ↔
      ∃ w, normalizeDomain child = w ++ '.' :: normalizeDomain parent := by
  simp only [isStrictSubdomain, Bool.and_eq_true, bne_iff_ne, List.isSuffixOf_iff_suffix]
  constructor
  · rintro ⟨-, w, hw⟩
    exact ⟨w, hw.symm⟩
  · rintro ⟨w, hw⟩
    refine ⟨fun heq => ?_, w, hw.symm⟩
    have hlen := congrArg List.length (heq.symm.trans hw)
    simp only [List.length_append, List.length_cons] at hlen
    omega

lemma exists_before_dot_iff {d a : Text} :
    (∃ w, d = w ++ '.' :: a) ↔
      (∃ w, d = w ++ '.' :: a ∧ ∃ c ∈ w, c ≠ '*') ∨ ∃ w, d = w ++ '.' :: a ∧ ∀ x ∈ w, x = '*' := by
  constructor
  · rintro ⟨w, hw⟩
    by_cases hstars : ∀ x ∈ w, x = '*'
    · exact .inr ⟨w, hw, hstars⟩
    · push Not at hstars
      exact .inl ⟨w, hw, hstars⟩
  · rintro (⟨w, hw, -⟩ | ⟨w, hw, -⟩)
    · exact ⟨w, hw⟩
    · exact ⟨w, hw⟩

/-- `allows` holds where the texts show containment, and for a bare apex. -/
lemma allows_iff (a c : DomainPattern) :
    a.allows c = true ↔ c.normalized.CoveredBy [a.normalized] ∨ BareApex a c := by
  cases a <;> cases c
  case exact.exact => simp [allows, domainEq, CoveredBy, normalized, CoversHost, BareApex]
  case exact.subdomainsOnly => simp [allows, CoveredBy, normalized, CoversBelow, BareApex]
  case exact.apexAndSubdomains => simp [allows, CoveredBy, normalized, CoversBelow, BareApex]
  case subdomainsOnly.exact =>
    simp only [allows, isStrictSubdomain_iff, CoveredBy, normalized, CoversHost, BareApex,
      List.mem_singleton, exists_eq_left, domain]
    exact exists_before_dot_iff
  case subdomainsOnly.subdomainsOnly =>
    simp [allows, isSubdomainOrEqual_iff, CoveredBy, normalized, CoversBelow, BareApex]
  case subdomainsOnly.apexAndSubdomains =>
    simp only [allows, isStrictSubdomain_iff, CoveredBy, normalized, CoversHost, CoversBelow,
      BareApex, List.mem_singleton, exists_eq_left, domain]
    rw [exists_before_dot_iff]
    grind
  case apexAndSubdomains.exact =>
    simp only [allows, isSubdomainOrEqual_iff, CoveredBy, normalized, CoversHost, BareApex,
      List.mem_singleton, exists_eq_left, domain]
    rw [exists_before_dot_iff, or_assoc]
  case apexAndSubdomains.subdomainsOnly =>
    simp [allows, isSubdomainOrEqual_iff, CoveredBy, normalized, CoversBelow, BareApex]
  case apexAndSubdomains.apexAndSubdomains =>
    simp only [allows, isSubdomainOrEqual_iff, CoveredBy, normalized, CoversHost, CoversBelow,
      BareApex, List.mem_singleton, exists_eq_left, domain]
    rw [exists_before_dot_iff]
    grind

/-- The host of a bare apex without wildcards lies outside. -/
lemma BareApex.not_coveredBy {a c : DomainPattern} (hc : WildcardFree (normalizeDomain c.domain))
    (h : BareApex a c) : ¬c.normalized.CoveredBy [a.normalized] := by
  -- without stars nothing stands before the dot, so the two domains differ by the dot alone
  have hdot {w d e : Text} (hd : d = w ++ '.' :: e) (hfree : WildcardFree d)
      (hw : ∀ x ∈ w, x = '*') : d.length = e.length + 1 := by
    cases w with
    | nil => simp [hd]
    | cons x w =>
      have hx : x = '*' := hw x List.mem_cons_self
      exact absurd (hd ▸ by simp [hx]) hfree.1
  have hhost {m : DomainPattern} {d : Text} (hlen : d.length = m.domain.length + 1)
      (hm : ∀ e, m ≠ exact e) : ¬m.CoversHost d := by
    have hbelow {e : Text} (hlen : d.length = e.length + 1) :
        ¬∃ w, d = w ++ '.' :: e ∧ ∃ c ∈ w, c ≠ '*' := by
      rintro ⟨w, rfl, x, hx, -⟩
      have := List.length_pos_of_mem hx
      simp only [List.length_append, List.length_cons] at hlen
      omega
    cases m with
    | exact e => exact absurd rfl (hm e)
    | subdomainsOnly e => exact hbelow hlen
    | apexAndSubdomains e =>
      rintro (rfl | hw)
      · simp [domain] at hlen
      · exact hbelow hlen hw
  cases a <;> cases c <;> simp only [BareApex, domain] at h hc <;>
    obtain ⟨w, hw, hstars⟩ := h <;> have hlen := hdot hw hc hstars
  case subdomainsOnly.exact | apexAndSubdomains.exact =>
    simp only [CoveredBy, normalized, List.mem_singleton, exists_eq_left]
    exact hhost hlen (by simp)
  case subdomainsOnly.apexAndSubdomains | apexAndSubdomains.apexAndSubdomains =>
    simp only [CoveredBy, normalized, List.mem_singleton, exists_eq_left]
    exact fun hcov => hhost hlen (by simp) hcov.1

lemma wildcardFree_normalizeDomain (h : WildcardFree d) :
    WildcardFree (normalizeDomain d) := by
  have hsub {k : Char} (hk : k.isAlpha = false) (hmem : k ∈ normalizeDomain d) : k ∈ d :=
    (List.rdropWhile_prefix _ d).subset ((mem_toAsciiLowercase hk).mp hmem)
  exact ⟨fun hmem => h.1 (hsub (by decide) hmem), fun hmem => h.2 (hsub (by decide) hmem)⟩

lemma plain_normalized (h : WildcardFree p.domain) : p.normalized.Plain := by
  constructor
  · rw [domain_normalized]
    exact wildcardFree_normalizeDomain h
  · rw [domain_normalized]
    exact lowercase_toAsciiLowercase _

/-- Without wildcards `allows` decides containment exactly where the candidate is no bare apex. -/
lemma allows_decides_iff {a c : DomainPattern} (ha : WildcardFree a.domain)
    (hc : WildcardFree c.domain) :
    (a.allows c = true ↔ ∀ host, c.normalized.Matches host → a.normalized.Matches host) ↔
      ¬BareApex a c := by
  have hcontained : c.normalized.CoveredBy [a.normalized] ↔
      ∀ host, c.normalized.Matches host → a.normalized.Matches host := by
    rw [(plain_normalized hc).coveredBy_iff (by simpa using plain_normalized ha)]
    simp
  rw [allows_iff, ← hcontained]
  constructor
  · intro hiff hbare
    exact hbare.not_coveredBy (wildcardFree_normalizeDomain hc) (hiff.mp (.inr hbare))
  · intro hbare
    simp [hbare]

end DomainPattern

/-! ## The enforcement's reading -/

/-- An entry as it is compiled for enforcement. -/
def enforced (entry : Text) : DomainPattern := DomainPattern.parse (normalizePattern entry)

lemma stripPrefix_subset {start t rest : Text} (h : stripPrefix start t = some rest) :
    rest ⊆ t := by
  unfold stripPrefix at h
  split at h
  · rw [← Option.some.inj h]
    exact List.drop_subset _ t
  · cases h

lemma lowercase_normalizePattern (pattern : Text) : Lowercase (normalizePattern pattern) := by
  have hcons {c : Char} {t : Text} (hc : c.toLower = c) (ht : Lowercase t) :
      Lowercase (c :: t) := List.forall_mem_cons.mpr ⟨hc, ht⟩
  have hnil : Lowercase [] := fun _ hc => absurd hc List.not_mem_nil
  unfold normalizePattern
  dsimp only
  split
  · exact hcons rfl hnil
  split
  · exact hcons rfl (hcons rfl (hcons rfl (lowercase_normalizeHost _)))
  · split
    · exact hcons rfl (hcons rfl (lowercase_normalizeHost _))
    · exact lowercase_normalizeHost _

lemma domain_parseDomain_subset (domain : Text) {build : Text → DomainPattern}
    (hbuild : ∀ d, (build d).domain = d) :
    (parseDomain domain build).domain ⊆ domain := by
  unfold parseDomain
  dsimp only
  split
  · exact List.nil_subset _
  · rw [hbuild]
    exact trim_subset domain

lemma domain_parse_subset (input : Text) : (parse input).domain ⊆ input := by
  -- each branch takes a part of the trimmed input
  have hstrip {start rest : Text} {build : Text → DomainPattern}
      (h : stripPrefix start input.trim = some rest) (hbuild : ∀ d, (build d).domain = d) :
      (parseDomain rest build).domain ⊆ input :=
    fun _ hc => trim_subset input (stripPrefix_subset h (domain_parseDomain_subset rest hbuild hc))
  unfold parse
  dsimp only
  split
  · exact List.nil_subset _
  split
  · exact hstrip ‹_› fun _ => rfl
  · split
    · exact hstrip ‹_› fun _ => rfl
    · exact trim_subset input

lemma lowercase_enforced (entry : Text) : Lowercase (enforced entry).domain :=
  (lowercase_normalizePattern entry).subset (domain_parse_subset _)

/-! ### Case makes no difference to it -/

lemma isPrefixOf_toAsciiLowercase {start : Text} (hstart : ∀ k ∈ start, k.isAlpha = false)
    (t : Text) : start.isPrefixOf (toAsciiLowercase t) = start.isPrefixOf t := by
  induction start generalizing t with
  | nil => rfl
  | cons k start ih =>
    obtain ⟨hk, hstart⟩ := List.forall_mem_cons.mp hstart
    cases t with
    | nil => rfl
    | cons c t =>
      have hck : (k == c.toLower) = (k == c) := by
        rw [Bool.beq_comm, toLower_beq hk, Bool.beq_comm]
      show (k == c.toLower && start.isPrefixOf (toAsciiLowercase t)) = _
      rw [hck, ih hstart]
      rfl

lemma stripPrefix_toAsciiLowercase {start : Text} (hstart : ∀ k ∈ start, k.isAlpha = false)
    (t : Text) :
    stripPrefix start (toAsciiLowercase t) =
      (stripPrefix start t).map toAsciiLowercase := by
  unfold stripPrefix
  rw [isPrefixOf_toAsciiLowercase hstart]
  split
  · rw [Option.map_some, toAsciiLowercase, toAsciiLowercase, List.map_drop]
  · rfl

lemma normalizePattern_toAsciiLowercase (pattern : Text) :
    normalizePattern (toAsciiLowercase pattern) = normalizePattern pattern := by
  have hstar (t : Text) : toAsciiLowercase t = ['*'] ↔ t = ['*'] := by
    cases t with
    | nil => simp [toAsciiLowercase]
    | cons c t => simp [toAsciiLowercase, toLower_eq_iff (k := '*') (by decide)]
  have hsub : ∀ k ∈ ['*', '.'], Char.isAlpha k = false :=
    List.forall_mem_cons.mpr ⟨by decide, List.forall_mem_singleton.mpr (by decide)⟩
  have hapex : ∀ k ∈ ['*', '*', '.'], Char.isAlpha k = false :=
    List.forall_mem_cons.mpr ⟨by decide, hsub⟩
  unfold normalizePattern
  dsimp only
  rw [trim_toAsciiLowercase, stripPrefix_toAsciiLowercase hapex, stripPrefix_toAsciiLowercase hsub]
  simp only [hstar]
  split
  · rfl
  cases stripPrefix ['*', '*', '.'] pattern.trim with
  | some domain => simp only [Option.map_some, normalizeHost_toAsciiLowercase]
  | none =>
    cases stripPrefix ['*', '.'] pattern.trim with
    | some domain => simp only [Option.map_none, Option.map_some, normalizeHost_toAsciiLowercase]
    | none => simp only [Option.map_none, normalizeHost_toAsciiLowercase]

lemma enforced_eq_of_toAsciiLowercase_eq {entry other : Text}
    (h : toAsciiLowercase entry = toAsciiLowercase other) : enforced entry = enforced other := by
  unfold enforced
  rw [← normalizePattern_toAsciiLowercase entry, h, normalizePattern_toAsciiLowercase]

/-! ## The compiled list -/

/-- `globset` takes the generated patterns as literal characters, `'?'` and `'*'`. -/
def Crates.MatchesLiterally (crates : Crates) : Prop :=
  ∀ glob matcher, crates.glob glob = .ok matcher → ∀ host, matcher host = globAccepts glob host

section Compile

variable {crates : Crates}

/-- The set holds the matchers of the globs seen. -/
structure Holds (crates : Crates) (seen : List Text) (set : GlobSet) : Prop where
  matcher : ∀ glob ∈ seen, ∃ matcher ∈ set.matchers, crates.glob glob = .ok matcher
  glob : ∀ matcher ∈ set.matchers, ∃ glob ∈ seen, crates.glob glob = .ok matcher

/-- The set takes the hosts of the globs seen. -/
def Compiled (seen : List Text) (set : GlobSet) : Prop :=
  ∀ host, set.isMatch host = true ↔ ∃ glob ∈ seen, globAccepts glob host = true

variable {set : GlobSet}

lemma Holds.compiled (hcrates : crates.MatchesLiterally) {seen : List Text}
    (h : Holds crates seen set) : Compiled seen set := by
  intro host
  unfold GlobSet.isMatch
  rw [List.any_eq_true]
  constructor
  · rintro ⟨matcher, hmem, hmatch⟩
    obtain ⟨glob, hglob, hok⟩ := h.glob matcher hmem
    exact ⟨glob, hglob, hcrates glob matcher hok host ▸ hmatch⟩
  · rintro ⟨glob, hglob, haccepts⟩
    obtain ⟨matcher, hmem, hok⟩ := h.matcher glob hglob
    exact ⟨matcher, hmem, (hcrates glob matcher hok host).trans haccepts⟩

lemma Holds.push {seen : List Text} (h : Holds crates seen set) {glob : Text}
    {matcher : Text → Bool} (hglob : crates.glob glob = .ok matcher) :
    Holds crates (glob :: seen) ⟨set.matchers ++ [matcher]⟩ where
  matcher := by
    intro glob' hmem
    rcases List.mem_cons.mp hmem with rfl | hmem
    · exact ⟨matcher, by simp, hglob⟩
    · obtain ⟨matcher', hmatcher', hok⟩ := h.matcher glob' hmem
      exact ⟨matcher', List.mem_append_left _ hmatcher', hok⟩
  glob := by
    intro matcher' hmem
    rcases List.mem_append.mp hmem with hmem | hmem
    · obtain ⟨glob', hglob', hok⟩ := h.glob matcher' hmem
      exact ⟨glob', List.mem_cons_of_mem _ hglob', hok⟩
    · rw [List.mem_singleton.mp hmem]
      exact ⟨glob, List.mem_cons_self, hglob⟩

lemma addCandidates_spec {candidates seen seen' : List Text} {set set' : GlobSet} (hseen : Holds crates seen set)
    (h : addCandidates crates candidates (seen, set) = .ok (seen', set')) :
    Holds crates seen' set' ∧ ∀ glob, glob ∈ seen' ↔ glob ∈ candidates ∨ glob ∈ seen := by
  induction candidates generalizing seen set with
  | nil =>
    have heq : (seen, set) = (seen', set') := Except.ok.inj h
    cases heq
    exact ⟨hseen, by simp⟩
  | cons candidate candidates ih =>
    unfold addCandidates at h
    split at h
    · rename_i hmem
      obtain ⟨hset, hglobs⟩ := ih hseen h
      refine ⟨hset, fun glob => ?_⟩
      rw [hglobs, List.mem_cons]
      grind
    · split at h
      · cases h
      rename_i matcher hglob
      obtain ⟨hset, hglobs⟩ := ih (hseen.push hglob) h
      refine ⟨hset, fun glob => ?_⟩
      rw [hglobs, List.mem_cons, List.mem_cons]
      tauto

lemma addPatterns_spec {globalWildcard : GlobalWildcard} {patterns seen : List Text} {set set' : GlobSet}
    (hseen : Holds crates seen set) (h : addPatterns crates globalWildcard patterns (seen, set) = .ok set') :
    ∃ seen', Holds crates seen' set' ∧
      ∀ glob, glob ∈ seen' ↔ glob ∈ seen ∨ ∃ entry ∈ patterns, glob ∈ (enforced entry).globs := by
  induction patterns generalizing seen set with
  | nil =>
    have heq : set = set' := Except.ok.inj h
    rw [← heq]
    exact ⟨seen, hseen, by simp⟩
  | cons pattern patterns ih =>
    unfold addPatterns at h
    split at h
    · cases h
    split at h
    · cases h
    rename_i state hstate
    obtain ⟨seen', set''⟩ := state
    obtain ⟨hseen', hglobs⟩ := addCandidates_spec hseen hstate
    obtain ⟨seen'', hset, hglobs'⟩ := ih hseen' h
    refine ⟨seen'', hset, fun glob => ?_⟩
    have hpattern : glob ∈ (enforced pattern).globs ↔
        glob ∈ expandDomainPattern (normalizePattern pattern) := Iff.rfl
    rw [hglobs', hglobs, List.exists_mem_cons_iff, hpattern, ← or_assoc, or_comm (a := glob ∈ seen)]

lemma holds_compileGlobset {globalWildcard : GlobalWildcard} {patterns : List Text}
    (h : compileGlobsetWithPolicy crates patterns globalWildcard = .ok set) :
    ∃ seen, Holds crates seen set ∧ ∀ glob, glob ∈ seen ↔ ∃ entry ∈ patterns, glob ∈ (enforced entry).globs := by
  have hempty : Holds crates [] ⟨[]⟩ := ⟨by simp, by simp⟩
  simpa using addPatterns_spec hempty h

lemma isMatch_compileAllowlistGlobset (hcrates : crates.MatchesLiterally) {patterns : List Text}
    (h : compileAllowlistGlobset crates patterns = .ok set) (host : Text) :
    set.isMatch host = true ↔ ∃ entry ∈ patterns, (enforced entry).Matches host := by
  obtain ⟨seen, hset, hglobs⟩ := holds_compileGlobset h
  rw [hset.compiled hcrates host]
  simp only [hglobs]
  constructor
  · rintro ⟨glob, ⟨entry, hentry, hglob⟩, haccepts⟩
    exact ⟨entry, hentry, glob, hglob, haccepts⟩
  · rintro ⟨entry, hentry, glob, hglob, haccepts⟩
    exact ⟨glob, ⟨entry, hentry, hglob⟩, haccepts⟩

end Compile

/-! ## The check of a configuration -/

variable {crates : Crates}

/-- A validated config has its allowlist checked against the managed one. -/
lemma validateAllowedDomains_of_ok {config : NetworkProxyConfig}
    {constraints : NetworkProxyConstraints} {managed : List Text}
    (h : validatePolicyAgainstConstraints crates config constraints = .ok ())
    (hmanaged : constraints.allowedDomains = some managed) :
    validateAllowedDomains crates (config.network.allowedDomains.getD [])
      (lowercaseSet (config.network.deniedDomains.getD [])) managed
      constraints.allowlistExpansionEnabled = .ok () := by
  unfold validatePolicyAgainstConstraints at h
  simp only [hmanaged, Effects.except_bind_eq_ok] at h
  grind

/-- The constraints read the entry as the enforcement does, up to case and dots at the end. -/
def ReadsAlike (crates : Crates) (entry : Text) : Prop :=
  (DomainPattern.parseForConstraints crates entry).normalized = enforced entry

/-- Every allowed entry, as the enforcement reads it, lies within managed entries read the same way. -/
def EntriesCovered (allowed managed : List Text) : Prop :=
  ∀ entry ∈ allowed, (enforced entry).CoveredBy (managed.map enforced)

/-- The hosts that the compiled set takes are hosts of managed entries. -/
def WithinManaged (set : GlobSet) (managed : List Text) : Prop :=
  ∀ host, set.isMatch host = true → ∃ entry ∈ managed, (enforced entry).Matches host

lemma DomainPattern.coveredBy_of_mem {p : DomainPattern}
    (h : p ∈ managed) : p.CoveredBy managed := by
  cases p with
  | exact d => exact ⟨_, h, rfl⟩
  | subdomainsOnly d => exact ⟨_, h, .inl rfl⟩
  | apexAndSubdomains d => exact ⟨⟨_, h, .inl rfl⟩, ⟨_, h, .inl rfl⟩⟩

lemma DomainPattern.CoveredBy.mono {p : DomainPattern} {managed managed' : List DomainPattern}
    (h : p.CoveredBy managed) (hsub : managed ⊆ managed') : p.CoveredBy managed' := by
  have hmono {P : DomainPattern → Prop} (h : ∃ m ∈ managed, P m) : ∃ m ∈ managed', P m := by
    obtain ⟨m, hm, hP⟩ := h
    exact ⟨m, hsub hm, hP⟩
  cases p with
  | exact d | subdomainsOnly d => exact hmono h
  | apexAndSubdomains d => exact ⟨hmono h.1, hmono h.2⟩

lemma entriesCovered_of_fixed {allowed denied managed : List Text}
    (h : validateAllowedDomains crates allowed denied managed (some false) = .ok ()) :
    EntriesCovered allowed managed := by
  intro entry hentry
  have hsets : (lowercaseSet allowed).toFinset =
      ((lowercaseSet managed).filter (!denied.contains ·)).toFinset := by
    by_contra hne
    unfold validateAllowedDomains at h
    rw [if_neg hne] at h
    cases h
  have hmem : toAsciiLowercase entry ∈ (lowercaseSet allowed).toFinset := by
    rw [List.mem_toFinset, lowercaseSet, List.mem_dedup]
    exact List.mem_map_of_mem hentry
  rw [hsets, List.mem_toFinset, List.mem_filter, lowercaseSet, List.mem_dedup] at hmem
  obtain ⟨other, hother, heq⟩ := List.mem_map.mp hmem.1
  apply coveredBy_of_mem
  rw [enforced_eq_of_toAsciiLowercase_eq heq.symm]
  exact List.mem_map_of_mem hother

/-- Without expansion, every allowed entry lies below a managed one. -/
lemma entriesCovered_of_subset {allowed denied managed : List Text}
    (h : validateAllowedDomains crates allowed denied managed none = .ok ())
    (hreads : ∀ entry ∈ allowed ++ managed, ReadsAlike crates entry)
    (hapex : ∀ entry ∈ allowed, ∀ m ∈ managed,
      ¬DomainPattern.BareApex (.parseForConstraints crates m) (.parseForConstraints crates entry)) :
    EntriesCovered allowed managed := by
  intro entry hentry
  have hallowed : ∀ entry ∈ allowed, ∃ m ∈ managed,
      (parseForConstraints crates m).allows
        (parseForConstraints crates entry) = true := by
    simpa [validateAllowedDomains] using h
  obtain ⟨m, hm, hallows⟩ := hallowed entry hentry
  rcases (allows_iff _ _).mp hallows with hcovered | hbare
  · rw [hreads entry (List.mem_append_left _ hentry),
      hreads m (List.mem_append_right _ hm)] at hcovered
    refine hcovered.mono fun p hp => ?_
    rw [List.mem_singleton.mp hp]
    exact List.mem_map_of_mem hm
  · exact absurd hbare (hapex entry hentry m hm)

/-- The managed allowlist bounds the compiled one exactly where the enforcement's own reading of the
entries does. The check is wrong about entries that the two readings take differently, and about the
bare apex of a managed domain; and without wildcards `allows` decides containment of hosts except for
the bare apex. -/
theorem managed_allowlist_bound_iff (crates : Crates) (hcrates : crates.MatchesLiterally) :
    (∀ config constraints managed allowSet,
      validatePolicyAgainstConstraints crates config constraints = .ok () →
      constraints.allowedDomains = some managed →
      constraints.allowlistExpansionEnabled ≠ some true →
      compileAllowlistGlobset crates (config.network.allowedDomains.getD []) = .ok allowSet →
      let allowed := config.network.allowedDomains.getD []
      (EntriesCovered allowed managed → WithinManaged allowSet managed) ∧
      ((∀ entry ∈ allowed ++ managed, WildcardFree (enforced entry).domain) →
        (WithinManaged allowSet managed ↔ EntriesCovered allowed managed)) ∧
      (constraints.allowlistExpansionEnabled = some false ∨
          (∀ entry ∈ allowed ++ managed, ReadsAlike crates entry) ∧
          (∀ entry ∈ allowed, ∀ m ∈ managed, ¬DomainPattern.BareApex
            (.parseForConstraints crates m) (.parseForConstraints crates entry)) →
        WithinManaged allowSet managed)) ∧
    ∀ a c : DomainPattern, WildcardFree a.domain → WildcardFree c.domain →
      ((a.allows c = true ↔ ∀ host, c.normalized.Matches host → a.normalized.Matches host) ↔
        ¬DomainPattern.BareApex a c) := by
  refine ⟨fun config constraints managed allowSet hvalid hmanaged hexpansion hcompile => ?_,
    fun a c ha hc => allows_decides_iff ha hc⟩
  have hcheck := validateAllowedDomains_of_ok hvalid hmanaged
  have hmatch := isMatch_compileAllowlistGlobset hcrates hcompile
  have hwithin : EntriesCovered (config.network.allowedDomains.getD []) managed →
      WithinManaged allowSet managed := by
    intro hcovered host hhost
    obtain ⟨entry, hentry, hentryMatches⟩ := (hmatch host).mp hhost
    obtain ⟨m, hm, hmMatches⟩ := (hcovered entry hentry).matches hentryMatches
    obtain ⟨other, hother, rfl⟩ := List.mem_map.mp hm
    exact ⟨other, hother, hmMatches⟩
  refine ⟨hwithin, fun hfree => ⟨fun h entry hentry => ?_, hwithin⟩, fun hkind => hwithin ?_⟩
  · -- every host of the entry is a host of the compiled set
    have hplain (e : Text) (he : e ∈ config.network.allowedDomains.getD [] ++ managed) :
        (enforced e).Plain := ⟨hfree e he, lowercase_enforced e⟩
    refine ((hplain entry (List.mem_append_left _ hentry)).coveredBy_iff ?_).mpr ?_
    · intro m hm
      obtain ⟨other, hother, rfl⟩ := List.mem_map.mp hm
      exact hplain other (List.mem_append_right _ hother)
    · intro host hhost
      obtain ⟨other, hother, hmatches⟩ := h host ((hmatch host).mpr ⟨entry, hentry, hhost⟩)
      exact ⟨enforced other, List.mem_map_of_mem hother, hmatches⟩
  · cases hmode : constraints.allowlistExpansionEnabled with
    | none =>
      rw [hmode] at hcheck hkind
      rcases hkind with hfalse | ⟨hreads, hapex⟩
      · cases hfalse
      · exact entriesCovered_of_subset hcheck hreads hapex
    | some enabled =>
      cases enabled with
      | true => exact absurd hmode hexpansion
      | false => exact entriesCovered_of_fixed (hmode ▸ hcheck)

/-! ### Runs of the check -/

/-- The crates on plain host names: letters, digits, `'-'` and `'.'`. -/
def plainCrates : Crates where
  urlHost host :=
    if host.all fun c => c.isAlphanum || c == '-' || c == '.' then some (toAsciiLowercase host)
    else none
  glob pattern := .ok (globAccepts pattern)

/-- A configuration that allows these patterns. -/
def allowing (patterns : List Text) : NetworkProxyConfig :=
  ⟨{ domains := some ⟨patterns.map fun pattern => ⟨pattern, .allow⟩⟩ }⟩

theorem managed_allowlist_bounds_subdomain :
    let config := allowing ["api.example.com".toList]
    let constraints : NetworkProxyConstraints :=
      { allowedDomains := some ["*.example.com".toList] }
    plainCrates.MatchesLiterally ∧
      validatePolicyAgainstConstraints plainCrates config constraints = .ok () ∧
      ∃ allowSet, compileAllowlistGlobset plainCrates (config.network.allowedDomains.getD []) =
          .ok allowSet ∧ WithinManaged allowSet ["*.example.com".toList] := by
  have hcrates : plainCrates.MatchesLiterally := by
    intro glob matcher hglob host
    rw [← Except.ok.inj hglob]
  have hvalid : validatePolicyAgainstConstraints plainCrates (allowing ["api.example.com".toList])
      { allowedDomains := some ["*.example.com".toList] } = .ok () := by
    decide +kernel
  have hcompile : compileAllowlistGlobset plainCrates
      ((allowing ["api.example.com".toList]).network.allowedDomains.getD []) =
        .ok ⟨[globAccepts "api.example.com".toList]⟩ := rfl
  have hallowed : (allowing ["api.example.com".toList]).network.allowedDomains.getD [] =
      ["api.example.com".toList] := by
    decide +kernel
  have hentry : enforced "api.example.com".toList = .exact "api.example.com".toList := by
    decide +kernel
  have hmanaged : enforced "*.example.com".toList = .subdomainsOnly "example.com".toList := by
    decide +kernel
  have hbound := (managed_allowlist_bound_iff plainCrates hcrates).1 _ _ _ _ hvalid rfl
    (by decide) hcompile
  refine ⟨hcrates, hvalid, _, hcompile, hbound.1 ?_⟩
  rw [hallowed]
  intro entry hmem
  rw [List.mem_singleton.mp hmem, hentry]
  refine ⟨enforced "*.example.com".toList, by simp, ?_⟩
  rw [hmanaged]
  exact ⟨"api".toList, rfl, 'a', by simp, by decide⟩

/-- Two entries with a port read as the same empty domain when they are compared, and as different
hosts when they are enforced. -/
theorem port_entries_escape_managed_allowlist :
    let config := allowing ["evil.com:443".toList]
    let constraints : NetworkProxyConstraints :=
      { allowedDomains := some ["example.com:443".toList] }
    validatePolicyAgainstConstraints plainCrates config constraints = .ok () ∧
      parseHost "evil.com".toList = some "evil.com".toList ∧
      (compileAllowlistGlobset plainCrates (config.network.allowedDomains.getD [])).map
        (·.isMatch "evil.com".toList) = .ok true ∧
      (∀ entry ∈ ["example.com:443".toList], ¬(enforced entry).Matches "evil.com".toList) ∧
      -- and a bare apex is allowed as a subdomain
      (subdomainsOnly "example.com".toList).allows (.exact ".example.com".toList) ∧
      (exact ".example.com".toList).Matches ".example.com".toList ∧
      ¬(subdomainsOnly "example.com".toList).Matches ".example.com".toList := by
  refine ⟨?_, ?_, ?_, ?_, ?_⟩
  · decide +kernel
  · decide +kernel
  · decide +kernel
  · decide +kernel
  · decide +kernel

end Supercodex.NetworkProxy
