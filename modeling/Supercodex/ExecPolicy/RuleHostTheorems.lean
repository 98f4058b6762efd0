import Supercodex.ExecPolicy.NetworkRules
import Supercodex.NetworkProxy.HostTheorems

/-!
# Normalised hosts of network rules

The host of a rule is cut before it is put in lower case, and normalised again when the rule is read back from
the rules file. A host that is cut at brackets, or before white space, may be one that is cut again.
-/

namespace Supercodex.ExecPolicy

open Text NetworkProxy

/-! ## The part that is kept -/

/-- A name before a port. -/
def IsNamePort (t : Text) : Prop :=
  ∃ name port, t = name ++ ':' :: port ∧ name ≠ [] ∧ ':' ∉ name ∧ isPort port = true

/-- What may follow a bracketed host. -/
def IsPortSuffix (rest : Text) : Prop := rest = [] ∨ ∃ port, rest = ':' :: port ∧ isPort port = true

/-- The part of a trimmed host that is kept. -/
inductive RuleHostPart : Text → Text → Prop
  | bracketed {inside rest : Text} (hinside : ']' ∉ inside) (hrest : IsPortSuffix rest) :
      RuleHostPart ('[' :: (inside ++ ']' :: rest)) inside
  | port {name port : Text} (hhead : name.head? ≠ some '[') (hne : name ≠ []) (hname : ':' ∉ name)
      (hport : isPort port = true) : RuleHostPart (name ++ ':' :: port) name
  | whole {host : Text} (hhead : host.head? ≠ some '[') (hport : ¬ IsNamePort host) : RuleHostPart host host

lemma isPort_colon {port : Text} (h : isPort port = true) : ':' ∉ port := by
  intro hmem
  rw [isPort, Bool.and_eq_true, List.all_eq_true] at h
  exact absurd (h.2 ':' hmem) (by decide)

lemma isPortSuffix_iff {rest : Text} : IsPortSuffix rest ↔ ¬ (rest ≠ [] ∧ !(stripPrefix [':'] rest).any isPort) := by
  cases rest with
  | nil => simp [IsPortSuffix]
  | cons c rest =>
    by_cases hc : c = ':'
    · simp [IsPortSuffix, stripPrefix, hc]
    · simp [IsPortSuffix, stripPrefix, hc, Ne.symm hc]

lemma networkRuleHostPart_unclosed {raw stripped : Text} (h : ']' ∉ stripped) :
    networkRuleHostPart raw ('[' :: stripped) =
      .error (.invalidRule "network_rule host has an invalid bracketed IPv6 literal".toList) := by
  have hstrip : stripPrefix ['['] ('[' :: stripped) = some stripped := stripPrefix_append ['['] stripped
  unfold networkRuleHostPart
  rw [hstrip]
  dsimp only
  rw [if_pos h]

lemma networkRuleHostPart_bracketed {raw inside rest : Text} (hinside : ']' ∉ inside) :
    networkRuleHostPart raw ('[' :: (inside ++ ']' :: rest)) =
      if rest ≠ [] ∧ !(stripPrefix [':'] rest).any isPort then
        .error (.invalidRule ("network_rule host contains an unsupported suffix: ".toList ++ raw))
      else .ok inside := by
  have hstrip : stripPrefix ['['] ('[' :: (inside ++ ']' :: rest)) = some (inside ++ ']' :: rest) :=
    stripPrefix_append ['['] _
  obtain ⟨htake, hdrop⟩ := takeWhile_ne_append_cons hinside rest
  unfold networkRuleHostPart
  rw [hstrip]
  dsimp only
  rw [if_neg (by simp), htake, hdrop]
  rfl

lemma networkRuleHostPart_unbracketed {raw host : Text} (hhead : host.head? ≠ some '[') :
    networkRuleHostPart raw host =
      if host.count ':' = 1 then
        if host.takeWhile (· != ':') ≠ [] ∧ isPort ((host.dropWhile (· != ':')).drop 1) then
          .ok (host.takeWhile (· != ':'))
        else .ok host
      else .ok host := by
  have hstrip : stripPrefix ['['] host = none := by
    cases hstrip : stripPrefix ['['] host with
    | none => rfl
    | some rest => exact absurd (head?_of_isInitial (isInitial_of_stripPrefix hstrip) (by decide)) hhead
  unfold networkRuleHostPart
  rw [hstrip]

lemma networkRuleHostPart_port {raw name port : Text} (hhead : name.head? ≠ some '[') (hne : name ≠ [])
    (hname : ':' ∉ name) (hport : isPort port = true) :
    networkRuleHostPart raw (name ++ ':' :: port) = .ok name := by
  obtain ⟨htake, hdrop⟩ := takeWhile_ne_append_cons hname port
  have hhead' : (name ++ ':' :: port).head? ≠ some '[' := by
    rwa [List.head?_append_of_ne_nil _ hne]
  rw [networkRuleHostPart_unbracketed hhead', if_pos (count_colon_append hname (isPort_colon hport)), htake, hdrop,
    if_pos ⟨hne, hport⟩]

lemma networkRuleHostPart_whole {raw host : Text} (hhead : host.head? ≠ some '[') (hport : ¬ IsNamePort host) :
    networkRuleHostPart raw host = .ok host := by
  rw [networkRuleHostPart_unbracketed hhead]
  split
  · rename_i hcount
    have hmem : ':' ∈ host := List.count_pos_iff.mp (by omega)
    obtain ⟨name, port, rfl, hname⟩ := List.eq_append_cons_of_mem hmem
    obtain ⟨htake, hdrop⟩ := takeWhile_ne_append_cons hname port
    rw [htake, hdrop, if_neg]
    rintro ⟨hne, hdigits⟩
    exact hport ⟨name, port, rfl, hne, hname, hdigits⟩
  · rfl

variable {host part : Text}

/-- A part is kept exactly if it is the bracketed host, the name before a port, or all of a host without either. -/
lemma networkRuleHostPart_iff (raw : Text) :
    networkRuleHostPart raw host = .ok part ↔ RuleHostPart host part := by
  constructor
  · intro h
    by_cases hhead : host.head? = some '['
    · obtain ⟨stripped, rfl⟩ := List.head?_eq_some_iff.mp hhead
      by_cases hclose : ']' ∈ stripped
      · obtain ⟨inside, rest, rfl, hinside⟩ := List.eq_append_cons_of_mem hclose
        rw [networkRuleHostPart_bracketed hinside] at h
        split at h
        · cases h
        · rename_i hrest
          cases h
          exact .bracketed hinside (isPortSuffix_iff.mpr hrest)
      · rw [networkRuleHostPart_unclosed hclose] at h
        cases h
    · by_cases hport : IsNamePort host
      · obtain ⟨name, port, rfl, hne, hname, hdigits⟩ := hport
        rw [List.head?_append_of_ne_nil _ hne] at hhead
        rw [networkRuleHostPart_port hhead hne hname hdigits] at h
        cases h
        exact .port hhead hne hname hdigits
      · rw [networkRuleHostPart_whole hhead hport] at h
        cases h
        exact .whole hhead hport
  · intro h
    cases h with
    | bracketed hinside hrest =>
      rw [networkRuleHostPart_bracketed hinside, if_neg (isPortSuffix_iff.mp hrest)]
    | port hhead hne hname hport => exact networkRuleHostPart_port hhead hne hname hport
    | whole hhead hport => exact networkRuleHostPart_whole hhead hport

lemma RuleHostPart.unique {host part part' : Text} (h : RuleHostPart host part) (h' : RuleHostPart host part') :
    part = part' := by
  have heq := (networkRuleHostPart_iff []).mpr h
  rw [(networkRuleHostPart_iff []).mpr h', Except.ok.injEq] at heq
  exact heq.symm

lemma RuleHostPart.subset (h : RuleHostPart host part) : part ⊆ host := by
  cases h with
  | bracketed => exact fun c hc => List.mem_cons_of_mem _ (List.mem_append_left _ hc)
  | port => exact fun c hc => List.mem_append_left _ hc
  | whole => exact List.Subset.refl _

lemma RuleHostPart.whole_of_length (h : RuleHostPart host part)
    (hle : host.length ≤ part.length) : part = host ∧ host.head? ≠ some '[' ∧ ¬ IsNamePort host := by
  cases h with
  | bracketed =>
    rw [List.length_cons, List.length_append, List.length_cons] at hle
    omega
  | port =>
    rw [List.length_append, List.length_cons] at hle
    omega
  | whole hhead hport => exact ⟨rfl, hhead, hport⟩

/-! ## The normalised host -/

/-- A text that is not empty, and no scheme, path, query or fragment. -/
def Bare (host : Text) : Prop := host ≠ [] ∧ '/' ∉ host ∧ '?' ∉ host ∧ '#' ∉ host

/-- A host without wildcards or white space. -/
def Specific (host : Text) : Prop := host ≠ [] ∧ '*' ∉ host ∧ host.any isWhitespace = false

/-- What becomes of the part that is kept. -/
def normalizedPart (part : Text) : Text := toAsciiLowercase (trimEndDots part).trim

lemma normalizeNetworkRuleHost_iff {raw h : Text} :
    normalizeNetworkRuleHost raw = .ok h ↔
      Bare raw.trim ∧ Specific h ∧ ∃ part, RuleHostPart raw.trim part ∧ h = normalizedPart part := by
  unfold normalizeNetworkRuleHost
  by_cases hempty : raw.trim = []
  · rw [if_pos hempty]
    exact ⟨nofun, fun h => absurd hempty h.1.1⟩
  rw [if_neg hempty]
  by_cases hpath : "://".toList <:+: raw.trim ∨ '/' ∈ raw.trim ∨ '?' ∈ raw.trim ∨ '#' ∈ raw.trim
  · rw [if_pos hpath]
    refine ⟨nofun, fun h => ?_⟩
    obtain ⟨-, hslash, hquery, hfragment⟩ := h.1
    rcases hpath with hscheme | hmem | hmem | hmem
    · exact absurd (hscheme.subset (by decide)) hslash
    · exact absurd hmem hslash
    · exact absurd hmem hquery
    · exact absurd hmem hfragment
  rw [if_neg hpath]
  simp only [not_or] at hpath
  have hbare : Bare raw.trim := ⟨hempty, hpath.2⟩
  simp only [hbare, true_and]
  cases hkept : networkRuleHostPart raw raw.trim with
  | error e =>
    refine ⟨nofun, ?_⟩
    rintro ⟨-, part, hpart, -⟩
    rw [(networkRuleHostPart_iff raw).mpr hpart] at hkept
    cases hkept
  | ok part =>
    have hpart := (networkRuleHostPart_iff raw).mp hkept
    have hiff : (∃ part, RuleHostPart raw.trim part ∧ h = normalizedPart part) ↔ h = normalizedPart part := by
      constructor
      · rintro ⟨part', hpart', rfl⟩
        rw [hpart'.unique hpart]
      · intro heq
        exact ⟨part, hpart, heq⟩
    rw [hiff]
    show (if normalizedPart part = [] then _ else if '*' ∈ normalizedPart part then _
      else if (normalizedPart part).any isWhitespace then _ else .ok (normalizedPart part)) = Except.ok h ↔ _
    constructor
    · intro heq
      split at heq
      · cases heq
      split at heq
      · cases heq
      split at heq
      · cases heq
      · rename_i hne hstar hspace
        cases heq
        exact ⟨⟨hne, hstar, by simpa using hspace⟩, rfl⟩
    · rintro ⟨⟨hne, hstar, hspace⟩, rfl⟩
      rw [if_neg hne, if_neg hstar, hspace]
      rfl

/-! ## Normalising twice -/

lemma Specific.trim_eq {h : Text} (hspecific : Specific h) : h.trim = h := by
  obtain ⟨before, after, heq, hbefore, hafter⟩ := exists_blank_append h
  have hnone : ∀ blank : Text, Blank blank → blank ⊆ h → blank = [] := by
    intro blank hblank hsub
    rw [List.eq_nil_iff_forall_not_mem]
    intro c hc
    have hspace := List.any_eq_false.mp hspecific.2.2 c (hsub hc)
    exact hspace (hblank c hc)
  rw [hnone before hbefore (by rw [heq]; simp), hnone after hafter (by rw [heq]; simp)] at heq
  simpa using heq.symm

lemma normalizedPart_subset {k : Char} (hk : k.isAlpha = false) (h : k ∈ normalizedPart part) :
    k ∈ part := by
  have hmem := (mem_toAsciiLowercase hk).mp h
  exact (List.rdropWhile_prefix _ part).subset (trim_subset _ hmem)

lemma length_normalizedPart_le (part : Text) : (normalizedPart part).length ≤ (trimEndDots part).length := by
  rw [normalizedPart, length_toAsciiLowercase]
  exact length_trim_le _

lemma lowercase_normalizedPart (part : Text) : toAsciiLowercase (normalizedPart part) = normalizedPart part :=
  (lowercase_toAsciiLowercase _).map_toLower

lemma normalizeNetworkRuleHost_self_iff {raw h : Text} (hraw : normalizeNetworkRuleHost raw = .ok h) :
    normalizeNetworkRuleHost h = .ok h ↔
      h.head? ≠ some '[' ∧ h.getLast? ≠ some '.' ∧ ¬ IsNamePort h := by
  obtain ⟨hbare, hspecific, part, hpart, hnormal⟩ := normalizeNetworkRuleHost_iff.mp hraw
  have hbare' : Bare h := by
    have hkept {k : Char} (hk : k.isAlpha = false) (hnot : k ∉ raw.trim) : k ∉ h := by
      intro hmem
      rw [hnormal] at hmem
      exact hnot (hpart.subset (normalizedPart_subset hk hmem))
    exact ⟨hspecific.1, hkept (by decide) hbare.2.1, hkept (by decide) hbare.2.2.1, hkept (by decide) hbare.2.2.2⟩
  rw [normalizeNetworkRuleHost_iff, hspecific.trim_eq]
  constructor
  · rintro ⟨-, -, part', hpart', heq⟩
    have hcut := length_normalizedPart_le part'
    rw [← heq] at hcut
    obtain ⟨rfl, hhead, hport⟩ := hpart'.whole_of_length (hcut.trans (length_trimEndDots_le part'))
    have hdots : trimEndDots part' = part' := (List.rdropWhile_prefix _ part').eq_of_length_le hcut
    exact ⟨hhead, trimEndDots_eq_self_iff.mp hdots, hport⟩
  · rintro ⟨hhead, hlast, hport⟩
    refine ⟨hbare', hspecific, h, .whole hhead hport, ?_⟩
    have hlower : toAsciiLowercase h = h := by
      rw [hnormal, lowercase_normalizedPart]
    rw [normalizedPart, trimEndDots_eq_self_iff.mpr hlast, hspecific.trim_eq, hlower]

lemma isPort_toAsciiLowercase (port : Text) : isPort (toAsciiLowercase port) = isPort port := by
  have hsame : Char.isDigit ∘ Char.toLower = Char.isDigit := by
    ext c
    exact isDigit_toLower c
  rw [isPort, isPort, toAsciiLowercase, List.all_map, hsame, List.isEmpty_map]

lemma isNamePort_toAsciiLowercase {t : Text} : IsNamePort (toAsciiLowercase t) ↔ IsNamePort t := by
  constructor
  · rintro ⟨name, port, heq, hne, hname, hport⟩
    obtain ⟨name', rest, rfl, rfl, hrest⟩ := List.map_eq_append_iff.mp heq
    obtain ⟨c, port', rfl, hc, rfl⟩ := List.map_eq_cons_iff.mp hrest
    rw [toLower_eq_iff (by decide)] at hc
    subst hc
    exact ⟨name', port', rfl, by simpa using hne, fun h => hname ((mem_toAsciiLowercase (by decide)).mpr h),
      (isPort_toAsciiLowercase port').symm.trans hport⟩
  · rintro ⟨name, port, rfl, hne, hname, hport⟩
    refine ⟨toAsciiLowercase name, toAsciiLowercase port, ?_, ?_, ?_, ?_⟩
    · rw [toAsciiLowercase, List.map_append, List.map_cons]
      rfl
    · simpa [toAsciiLowercase] using hne
    · rwa [mem_toAsciiLowercase (by decide)]
    · rwa [isPort_toAsciiLowercase]

/-- A part of a host that is cut again when it is normalised: without the dots at its end and the white space
around it, it starts with a bracket, ends in a dot, or is a name before a port. -/
def Restripped (part : Text) : Prop :=
  ∃ before host after dots, part = before ++ host ++ after ++ dots ∧ Blank before ∧ Blank after ∧ Dots dots ∧
    (before ++ host ++ after).getLast? ≠ some '.' ∧ host.trim = host ∧
      (host.head? = some '[' ∨ host.getLast? = some '.' ∨ IsNamePort host)

lemma restripped_iff :
    Restripped part ↔ (normalizedPart part).head? = some '[' ∨ (normalizedPart part).getLast? = some '.' ∨
      IsNamePort (normalizedPart part) := by
  rw [normalizedPart, head?_toAsciiLowercase (by decide), getLast?_toAsciiLowercase (by decide),
    isNamePort_toAsciiLowercase]
  constructor
  · rintro ⟨before, host, after, dots, rfl, hbefore, hafter, hdots, hlast, htrim, hcut⟩
    rwa [trimEndDots_append hdots hlast, trim_blank_append hbefore hafter, htrim]
  · intro hcut
    obtain ⟨dots, heq, hdots⟩ := exists_trimEndDots_append part
    obtain ⟨before, after, htrim, hbefore, hafter⟩ := exists_blank_append (trimEndDots part)
    refine ⟨before, (trimEndDots part).trim, after, dots, ?_, hbefore, hafter, hdots, ?_, trim_trim _, hcut⟩
    · rw [← htrim]
      exact heq
    · rw [← htrim]
      exact getLast?_trimEndDots part

lemma normalizeNetworkRuleHost_twice_iff {raw h : Text} (hraw : normalizeNetworkRuleHost raw = .ok h) :
    normalizeNetworkRuleHost h = .ok h ↔ ∀ part, RuleHostPart raw.trim part → ¬ Restripped part := by
  obtain ⟨-, -, part, hpart, rfl⟩ := normalizeNetworkRuleHost_iff.mp hraw
  rw [normalizeNetworkRuleHost_self_iff hraw]
  constructor
  · rintro ⟨hhead, hlast, hport⟩ part' hpart'
    rw [hpart'.unique hpart, restripped_iff]
    rintro (h | h | h)
    · exact hhead h
    · exact hlast h
    · exact hport h
  · intro h
    have hcut := h part hpart
    rwa [restripped_iff, not_or, not_or] at hcut

/-! ## Rules that are read back -/

lemma parse_asPolicyString (protocol : NetworkRuleProtocol) :
    NetworkRuleProtocol.parse protocol.asPolicyString = .ok protocol := by
  cases protocol <;> decide +kernel

lemma parseNetworkRuleDecision_decisionString (decision : Decision) :
    parseNetworkRuleDecision (decisionString decision) = .ok decision := by
  cases decision <;> decide +kernel

/-- A rendered call has the normalised host and a checked justification. -/
lemma networkRuleCall_eq_ok {raw : Text} {protocol : NetworkRuleProtocol} {decision : Decision}
    {justification : Option Text} {call : NetworkRuleCall}
    (h : networkRuleCall raw protocol decision justification = .ok call) :
    ∃ host, normalizeNetworkRuleHost raw = .ok host ∧ checkJustification justification = .ok () ∧
      call = ⟨host, protocol.asPolicyString, decisionString decision, justification⟩ := by
  unfold networkRuleCall at h
  cases hhost : normalizeNetworkRuleHost raw with
  | error e =>
    rw [hhost] at h
    cases h
  | ok host =>
    rw [hhost] at h
    cases hcheck : checkJustification justification with
    | error e =>
      rw [hcheck] at h
      cases h
    | ok u =>
      rw [hcheck] at h
      cases h
      exact ⟨host, rfl, rfl, rfl⟩

lemma networkRule_iff {protocol : NetworkRuleProtocol} {decision : Decision}
    {justification : Option Text} (hcheck : checkJustification justification = .ok ()) :
    networkRule ⟨host, protocol.asPolicyString, decisionString decision, justification⟩ =
        .ok ⟨host, protocol, decision, justification⟩ ↔
      normalizeNetworkRuleHost host = .ok host := by
  have heq : networkRule ⟨host, protocol.asPolicyString, decisionString decision, justification⟩ =
      (normalizeNetworkRuleHost host).map fun host => ⟨host, protocol, decision, justification⟩ := by
    unfold networkRule
    rw [parse_asPolicyString, parseNetworkRuleDecision_decisionString, hcheck]
    cases normalizeNetworkRuleHost host with
    | error e | ok host' => rfl
  rw [heq]
  cases normalizeNetworkRuleHost host with
  | error e => exact ⟨nofun, nofun⟩
  | ok host' => simp [Except.map]

/-- A host is normalised to itself, and a rule read back as it was checked, exactly if the part of the host that
is kept is not one that is cut again. -/
theorem normalised_host_stable_iff (raw : Text) :
    (∀ host, normalizeNetworkRuleHost raw = .ok host →
      (normalizeNetworkRuleHost host = .ok host ↔ ∀ part, RuleHostPart raw.trim part → ¬ Restripped part)) ∧
    (∀ rules protocol decision justification call,
      networkRuleCall raw protocol decision justification = .ok call →
      ∃ rule, addNetworkRule rules raw protocol decision justification = .ok (rules ++ [rule]) ∧
        (networkRule call = .ok rule ↔ ∀ part, RuleHostPart raw.trim part → ¬ Restripped part)) ∧
    (normalizeHost (normalizeHost raw) = normalizeHost raw ↔ ∀ part, HostPart raw.trim part → ¬ CutAgain part) := by
  refine ⟨fun host => normalizeNetworkRuleHost_twice_iff, ?_, normalizeHost_normalizeHost_iff raw⟩
  intro rules protocol decision justification call hcall
  obtain ⟨host, hhost, hcheck, rfl⟩ := networkRuleCall_eq_ok hcall
  refine ⟨⟨host, protocol, decision, justification⟩, ?_, ?_⟩
  · rw [addNetworkRule, hhost, hcheck]
    rfl
  · rw [networkRule_iff hcheck, normalizeNetworkRuleHost_twice_iff hhost]

/-- A bracketed name with a port is cut twice; a name after two brackets is written to the rules file, which is
then read with an error. -/
theorem bracketed_name_cut_twice :
    ¬ ((∀ raw host, normalizeNetworkRuleHost raw = .ok host → normalizeNetworkRuleHost host = .ok host) ∧
      ∀ host, normalizeHost (normalizeHost host) = normalizeHost host) ∧
    normalizeNetworkRuleHost "[example.com:80]".toList = .ok "example.com:80".toList ∧
    normalizeNetworkRuleHost "example.com:80".toList = .ok "example.com".toList ∧
    normalizeNetworkRuleHost "[[a]".toList = .ok "[a".toList ∧
    normalizeNetworkRuleHost "[a".toList =
      .error (.invalidRule "network_rule host has an invalid bracketed IPv6 literal".toList) ∧
    normalizeHost "[example.com:80]".toList = "example.com:80".toList ∧
    normalizeHost "example.com:80".toList = "example.com".toList := by
  have honce : normalizeNetworkRuleHost "[example.com:80]".toList = .ok "example.com:80".toList := by
    decide +kernel
  have htwice : normalizeNetworkRuleHost "example.com:80".toList = .ok "example.com".toList := by
    decide +kernel
  refine ⟨?_, honce, htwice, by decide +kernel, by decide +kernel, by decide +kernel, by decide +kernel⟩
  intro h
  have hsame := h.1 _ _ honce
  rw [htwice] at hsame
  revert hsame
  decide +kernel

end Supercodex.ExecPolicy
