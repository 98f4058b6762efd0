import Supercodex.NetworkProxy.Policy
import Mathlib

/-!
# Normalised hosts (`network-proxy/src/policy.rs`)

A host is trimmed and cut before it is put in lower case. None of the characters that decide where it is cut is
a letter, so its case makes no difference to that.
-/

namespace Supercodex.NetworkProxy

open Text

/-! ## Letters and case -/

lemma toLower_eq_iff {c k : Char} (hk : k.isAlpha = false) : c.toLower = k ↔ c = k := by
  constructor
  · intro h
    by_cases hc : c.isUpper = true
    · have halpha : c.toLower.isAlpha = true := by
        rw [Char.isAlpha_toLower_eq_isAlpha, Char.isAlpha, hc, Bool.true_or]
      rw [h, hk] at halpha
      cases halpha
    · rw [← h, Char.toLower_eq_of_not_isUpper hc]
  · rintro rfl
    refine Char.toLower_eq_of_not_isUpper fun hc => ?_
    rw [Char.isAlpha, hc, Bool.true_or] at hk
    cases hk

/-- A text in lower case. -/
def Lowercase (t : Text) : Prop := ∀ c ∈ t, c.toLower = c

lemma lowercase_toAsciiLowercase (t : Text) : Lowercase (toAsciiLowercase t) := by
  intro c hc
  obtain ⟨d, _, rfl⟩ := List.mem_map.mp hc
  exact Char.toLower_toLower_eq_toLower d

lemma Lowercase.subset {t u : Text} (h : Lowercase t) (hu : u ⊆ t) : Lowercase u :=
  fun c hc => h c (hu hc)

variable {t : Text}

lemma Lowercase.map_toLower (h : Lowercase t) : t.map Char.toLower = t := by
  conv_rhs => rw [← List.map_id t]
  exact List.map_congr_left h

lemma mem_toAsciiLowercase {k : Char} (hk : k.isAlpha = false) :
    k ∈ toAsciiLowercase t ↔ k ∈ t := by
  simp only [toAsciiLowercase, List.mem_map, toLower_eq_iff hk, exists_eq_right]

lemma lowercase_normalizeDnsHost (host : Text) : Lowercase (normalizeDnsHost host) :=
  (lowercase_toAsciiLowercase host).subset (List.rdropWhile_prefix _ _).subset

lemma lowercase_normalizeHost (host : Text) : Lowercase (normalizeHost host) := by
  unfold normalizeHost
  dsimp only
  split
  · exact lowercase_normalizeDnsHost _
  · split
    · exact lowercase_normalizeDnsHost _
    · exact lowercase_normalizeDnsHost _

lemma toNat_toLower {c : Char} (hc : c.isUpper = true) :
    65 ≤ c.toNat ∧ c.toNat ≤ 90 ∧ c.toLower.toNat = c.toNat + 32 := by
  have hrange : 65 ≤ c.toNat ∧ c.toNat ≤ 90 := by
    simpa [Char.isUpper, UInt32.le_iff_toNat_le] using hc
  have hvalid : (c.toNat + 32).isValidChar := .inl (by omega)
  refine ⟨hrange.1, hrange.2, ?_⟩
  rw [Char.toLower_eq_of_isUpper hc, Char.toNat_ofNat, if_pos hvalid]

lemma isWhitespace_toLower (c : Char) : isWhitespace c.toLower = isWhitespace c := by
  by_cases hc : c.isUpper = true
  · obtain ⟨hlow, hhigh, hlower⟩ := toNat_toLower hc
    have h1 : isWhitespace c = false := by
      unfold isWhitespace
      simp
      omega
    have h2 : isWhitespace c.toLower = false := by
      unfold isWhitespace
      rw [hlower]
      simp
      omega
    rw [h1, h2]
  · rw [Char.toLower_eq_of_not_isUpper hc]

lemma isDigit_toLower (c : Char) : c.toLower.isDigit = c.isDigit := by
  by_cases hc : c.isUpper = true
  · obtain ⟨hlow, hhigh, hlower⟩ := toNat_toLower hc
    have hdigit {d : Char} (hd : 65 ≤ d.toNat) : d.isDigit = false := by
      have hnine : '9'.toNat = 57 := rfl
      rw [Char.isDigit, Bool.and_eq_false_iff]
      right
      rw [decide_eq_false_iff_not, UInt32.le_iff_toNat_le]
      show ¬ d.toNat ≤ '9'.toNat
      omega
    rw [hdigit (by omega), hdigit hlow]
  · rw [Char.toLower_eq_of_not_isUpper hc]

section Case

variable {k : Char} (hk : k.isAlpha = false) (t : Text)
include hk

lemma toLower_beq (c : Char) : (c.toLower == k) = (c == k) := by
  rw [Bool.eq_iff_iff, beq_iff_eq, beq_iff_eq, toLower_eq_iff hk]

lemma takeWhile_toAsciiLowercase :
    (toAsciiLowercase t).takeWhile (· != k) = toAsciiLowercase (t.takeWhile (· != k)) := by
  have hsame : ((· != k) ∘ Char.toLower) = (· != k) := by
    ext c
    simp only [Function.comp_apply, bne, toLower_beq hk]
  rw [toAsciiLowercase, List.takeWhile_map, hsame]
  rfl

lemma count_toAsciiLowercase : (toAsciiLowercase t).count k = t.count k := by
  have hsame : ((· == k) ∘ Char.toLower) = (· == k) := by
    ext c
    simp only [Function.comp_apply, toLower_beq hk]
  rw [toAsciiLowercase, List.count, List.countP_map, hsame]

lemma head?_toAsciiLowercase : (toAsciiLowercase t).head? = some k ↔ t.head? = some k := by
  cases t with
  | nil => rfl
  | cons c t => simp [toAsciiLowercase, toLower_eq_iff hk]

lemma getLast?_toAsciiLowercase : (toAsciiLowercase t).getLast? = some k ↔ t.getLast? = some k := by
  rw [List.getLast?_eq_head?_reverse, List.getLast?_eq_head?_reverse, toAsciiLowercase, ← List.map_reverse]
  exact head?_toAsciiLowercase hk t.reverse

end Case

lemma trim_toAsciiLowercase (t : Text) : (toAsciiLowercase t).trim = toAsciiLowercase t.trim := by
  have hsame : isWhitespace ∘ Char.toLower = isWhitespace := by
    ext c
    exact isWhitespace_toLower c
  have hstart (u : Text) : trimStart (toAsciiLowercase u) = toAsciiLowercase u.trimStart := by
    rw [trimStart, toAsciiLowercase, List.dropWhile_map, hsame]
    rfl
  have hreverse (u : Text) : (toAsciiLowercase u).reverse = toAsciiLowercase u.reverse :=
    (List.map_reverse).symm
  rw [trim, trim, hstart, trimEnd_eq_reverse, trimEnd_eq_reverse, hreverse,
    hstart, hreverse]

lemma normalizeDnsHost_toAsciiLowercase (host : Text) :
    normalizeDnsHost (toAsciiLowercase host) = normalizeDnsHost host := by
  have hidem : toAsciiLowercase (toAsciiLowercase host) = toAsciiLowercase host :=
    (lowercase_toAsciiLowercase host).map_toLower
  rw [normalizeDnsHost, hidem]
  rfl

lemma normalizeHost_toAsciiLowercase (host : Text) :
    normalizeHost (toAsciiLowercase host) = normalizeHost host := by
  have hdrop (u : Text) : (toAsciiLowercase u).drop 1 = toAsciiLowercase (u.drop 1) :=
    (List.map_drop).symm
  unfold normalizeHost
  rw [trim_toAsciiLowercase]
  simp only [head?_toAsciiLowercase (k := '[') (by decide),
    mem_toAsciiLowercase (k := ']') (by decide), count_toAsciiLowercase (k := ':') (by decide),
    hdrop, takeWhile_toAsciiLowercase (k := ']') (by decide),
    takeWhile_toAsciiLowercase (k := ':') (by decide), normalizeDnsHost_toAsciiLowercase]


/-! ## Dots at the end -/

/-- A text of dots. -/
def Dots (t : Text) : Prop := ∀ c ∈ t, c = '.'

lemma exists_trimEndDots_append (t : Text) : ∃ dots, t = trimEndDots t ++ dots ∧ Dots dots := by
  refine ⟨t.rtakeWhile (· == '.'), List.rdropWhile_append_rtakeWhile.symm, ?_⟩
  intro c hc
  simpa using List.mem_rtakeWhile_imp hc

lemma trimEndDots_eq_self_iff : trimEndDots t = t ↔ t.getLast? ≠ some '.' := by
  unfold trimEndDots
  rw [List.rdropWhile_eq_self_iff]
  constructor
  · intro h hlast
    have hne : t ≠ [] := by
      rintro rfl
      cases hlast
    rw [List.getLast?_eq_some_getLast hne, Option.some.injEq] at hlast
    exact h hne (by rw [hlast]; rfl)
  · intro h hne hlast
    apply h
    rw [List.getLast?_eq_some_getLast hne, eq_of_beq hlast]

lemma getLast?_trimEndDots (t : Text) : (trimEndDots t).getLast? ≠ some '.' :=
  trimEndDots_eq_self_iff.mp (List.rdropWhile_idempotent _ t)

lemma trimEndDots_append {t dots : Text} (hdots : Dots dots) (ht : t.getLast? ≠ some '.') :
    trimEndDots (t ++ dots) = t := by
  induction dots using List.reverseRecOn with
  | nil => rw [List.append_nil, trimEndDots_eq_self_iff.mpr ht]
  | append_singleton dots c ih =>
    have hc : c = '.' := hdots c (by simp)
    rw [← List.append_assoc, trimEndDots, List.rdropWhile_concat_pos _ _ _ (by rw [hc]; rfl)]
    exact ih fun d hd => hdots d (List.mem_append_left _ hd)

lemma length_trimEndDots_le (t : Text) : (trimEndDots t).length ≤ t.length :=
  (List.rdropWhile_prefix _ t).length_le

@[simp] lemma length_toAsciiLowercase (t : Text) : (toAsciiLowercase t).length = t.length := List.length_map _

lemma trimEndDots_toAsciiLowercase (t : Text) :
    trimEndDots (toAsciiLowercase t) = toAsciiLowercase (trimEndDots t) := by
  obtain ⟨dots, heq, hdots⟩ := exists_trimEndDots_append t
  have hlower : toAsciiLowercase t = toAsciiLowercase (trimEndDots t) ++ dots := by
    have hsame : toAsciiLowercase dots = dots := by
      conv_rhs => rw [← List.map_id dots]
      apply List.map_congr_left
      intro c hc
      rw [hdots c hc]
      rfl
    conv_lhs => rw [heq]
    rw [toAsciiLowercase, List.map_append]
    show _ ++ toAsciiLowercase dots = _
    rw [hsame]
    rfl
  rw [hlower]
  apply trimEndDots_append hdots
  rw [ne_eq, getLast?_toAsciiLowercase (by decide)]
  exact getLast?_trimEndDots t

/-! ## Normalising twice -/

/-- A bracketed host, as `normalize_host` looks for it. -/
def Bracketed (t : Text) : Prop := t.head? = some '[' ∧ ']' ∈ t

/-- The part of a trimmed host that is kept. -/
inductive HostPart : Text → Text → Prop
  | bracketed {inside rest : Text} (hinside : ']' ∉ inside) : HostPart ('[' :: (inside ++ ']' :: rest)) inside
  | port {host port : Text} (hbracketed : ¬ Bracketed (host ++ ':' :: port)) (hhost : ':' ∉ host)
      (hport : ':' ∉ port) : HostPart (host ++ ':' :: port) host
  | whole {host : Text} (hbracketed : ¬ Bracketed host) (hcount : host.count ':' ≠ 1) : HostPart host host

lemma exists_hostPart (host : Text) :
    ∃ part, HostPart host.trim part ∧ normalizeHost host = normalizeDnsHost part := by
  unfold normalizeHost
  dsimp only
  split
  · rename_i hbracketed
    obtain ⟨hhead, hclose⟩ := hbracketed
    obtain ⟨tail, htail⟩ := List.head?_eq_some_iff.mp hhead
    have hmem : ']' ∈ tail := by
      rw [htail] at hclose
      simpa using hclose
    obtain ⟨inside, rest, rfl, hinside⟩ := List.eq_append_cons_of_mem hmem
    rw [htail, List.drop_one, List.tail_cons, (takeWhile_ne_append_cons hinside rest).1]
    exact ⟨inside, .bracketed hinside, rfl⟩
  · rename_i hbracketed
    split
    · rename_i hcount
      have hmem : ':' ∈ host.trim := List.count_pos_iff.mp (by omega)
      obtain ⟨name, port, hsplit, hname⟩ := List.eq_append_cons_of_mem hmem
      rw [hsplit] at hbracketed hcount ⊢
      have hport : ':' ∉ port := by
        rw [List.count_append, List.count_cons_self] at hcount
        exact List.count_eq_zero.mp (by omega)
      rw [(takeWhile_ne_append_cons hname port).1]
      exact ⟨name, .port hbracketed hname hport, rfl⟩
    · rename_i hcount
      exact ⟨_, .whole hbracketed hcount, rfl⟩

lemma bracketed_append (inside rest : Text) : Bracketed ('[' :: (inside ++ ']' :: rest)) :=
  ⟨rfl, List.mem_cons_of_mem _ (List.mem_append_right _ List.mem_cons_self)⟩

lemma count_colon_append {host port : Text} (hhost : ':' ∉ host) (hport : ':' ∉ port) :
    (host ++ ':' :: port).count ':' = 1 := by
  rw [List.count_append, List.count_cons_self, List.count_eq_zero_of_not_mem hhost,
    List.count_eq_zero_of_not_mem hport]

lemma HostPart.unique {t part part' : Text} (h : HostPart t part) (h' : HostPart t part') : part = part' := by
  cases h with
  | @bracketed _ rest hinside =>
    generalize ht : '[' :: (part ++ ']' :: rest) = t at h'
    cases h' with
    | bracketed hinside' => exact (eq_and_eq_of_append_cons_eq hinside hinside' (List.cons.inj ht).2).1
    | port hbracketed | whole hbracketed => exact absurd (ht ▸ bracketed_append part rest) hbracketed
  | @port _ port hbracketed hhost hport =>
    generalize ht : part ++ ':' :: port = t at h' hbracketed
    cases h' with
    | bracketed => exact absurd (bracketed_append _ _) hbracketed
    | port _ hhost' => exact (eq_and_eq_of_append_cons_eq hhost hhost' ht).1
    | whole _ hcount => exact absurd (ht ▸ count_colon_append hhost hport) hcount
  | whole hbracketed hcount =>
    cases h' with
    | bracketed => exact absurd (bracketed_append _ _) hbracketed
    | port _ hhost hport => exact absurd (count_colon_append hhost hport) hcount
    | whole => rfl

variable {t part : Text}

lemma HostPart.whole_of_length (h : HostPart t part) (hle : t.length ≤ part.length) :
    part = t ∧ ¬ Bracketed t ∧ t.count ':' ≠ 1 := by
  cases h with
  | bracketed =>
    rw [List.length_cons, List.length_append, List.length_cons] at hle
    omega
  | port =>
    rw [List.length_append, List.length_cons] at hle
    omega
  | whole hbracketed hcount => exact ⟨rfl, hbracketed, hcount⟩

lemma HostPart.length_le (h : HostPart t part) : part.length ≤ t.length := by
  by_cases hle : t.length ≤ part.length
  · rw [(h.whole_of_length hle).1]
  · omega

lemma normalizeHost_eq {host part : Text} (h : HostPart host.trim part) :
    normalizeHost host = normalizeDnsHost part := by
  obtain ⟨part', h', heq⟩ := exists_hostPart host
  rw [heq, h.unique h']

lemma length_normalizeDnsHost_le (host : Text) : (normalizeDnsHost host).length ≤ host.length := by
  have hle := length_trimEndDots_le (toAsciiLowercase host)
  rwa [length_toAsciiLowercase] at hle

lemma normalizeHost_trim (host : Text) : normalizeHost host.trim = normalizeHost host := by
  unfold normalizeHost
  rw [trim_trim]

lemma whole_of_normalizeHost {host : Text} (h : normalizeHost host = host) :
    host.trim = host ∧ ¬ Bracketed host ∧ host.count ':' ≠ 1 := by
  obtain ⟨part, hpart, heq⟩ := exists_hostPart host
  have hlength : host.length ≤ part.length := by
    have hle := length_normalizeDnsHost_le part
    rwa [← heq, h] at hle
  have htrim := trim_eq_self_of_length (hlength.trans hpart.length_le)
  rw [htrim] at hpart
  exact ⟨htrim, (hpart.whole_of_length hlength).2⟩

lemma normalizeHost_eq_self_iff {host : Text} (h : normalizeDnsHost host = host) :
    normalizeHost host = host ↔ host.trim = host ∧ ¬ Bracketed host ∧ host.count ':' ≠ 1 := by
  refine ⟨whole_of_normalizeHost, ?_⟩
  rintro ⟨htrim, hbracketed, hcount⟩
  have hpart : HostPart host.trim host := by
    rw [htrim]
    exact .whole hbracketed hcount
  rw [normalizeHost_eq hpart, h]

/-- The text up to the first dot. -/
def firstLabel (t : Text) : Text := t.takeWhile (· != '.')

lemma firstLabel_trimEndDots (t : Text) : firstLabel (trimEndDots t) = firstLabel t := by
  obtain ⟨dots, heq, hdots⟩ := exists_trimEndDots_append t
  have hnone : firstLabel dots = [] := List.takeWhile_eq_nil_iff.mpr fun hlength h => by
    simp [hdots _ (List.getElem_mem hlength)] at h
  conv_rhs => rw [heq, firstLabel, List.takeWhile_append]
  split
  · rename_i hall
    have hwhole := (List.takeWhile_prefix (· != '.')).eq_of_length hall
    rw [firstLabel] at hnone
    rw [hnone, List.append_nil]
    exact hwhole
  · rfl

/-- A first label of stars is kept by the normalisation. -/
lemma firstLabel_normalizeHost {host stars rest : Text} (hstars : stars = ['*'] ∨ stars = ['*', '*'])
    (h : host.trim = stars ++ '.' :: rest) : firstLabel (normalizeHost host) = stars := by
  obtain ⟨part, hpart, heq⟩ := exists_hostPart host
  have hlabel : firstLabel part = stars := by
    have hwhole : firstLabel (stars ++ '.' :: rest) = stars := by
      rcases hstars with rfl | rfl
      · rfl
      · rfl
    generalize host.trim = trimmed at h hpart
    cases hpart with
    | bracketed =>
      rcases hstars with rfl | rfl
      · cases h
      · cases h
    | @port _ port _ hhost =>
      have hcut := (takeWhile_ne_append_cons hhost port).1
      rw [h] at hcut
      rw [← hcut]
      rcases hstars with rfl | rfl
      · rfl
      · rfl
    | whole => rw [h, hwhole]
  rw [heq, normalizeDnsHost, firstLabel_trimEndDots, firstLabel, takeWhile_toAsciiLowercase (by decide)]
  show toAsciiLowercase (firstLabel part) = stars
  rw [hlabel]
  rcases hstars with rfl | rfl
  · rfl
  · rfl

/-- A part of a host that is cut again when it is normalised: apart from the dots at its end, white space stands
at its ends, or it has one colon. -/
def CutAgain (part : Text) : Prop :=
  ∃ host dots, part = host ++ dots ∧ Dots dots ∧ host.getLast? ≠ some '.' ∧
    (host.trim ≠ host ∨ host.count ':' = 1)

lemma trim_toAsciiLowercase_eq_self_iff (t : Text) : (toAsciiLowercase t).trim = toAsciiLowercase t ↔ t.trim = t := by
  rw [trim_toAsciiLowercase]
  constructor
  · intro h
    apply trim_eq_self_of_length
    have hlength := congrArg List.length h
    rw [length_toAsciiLowercase, length_toAsciiLowercase] at hlength
    exact hlength.ge
  · intro h
    rw [h]

lemma cutAgain_iff (part : Text) :
    CutAgain part ↔ (normalizeDnsHost part).trim ≠ normalizeDnsHost part ∨ (normalizeDnsHost part).count ':' = 1 := by
  have hnormal : normalizeDnsHost part = toAsciiLowercase (trimEndDots part) := trimEndDots_toAsciiLowercase part
  rw [hnormal, ne_eq, trim_toAsciiLowercase_eq_self_iff, count_toAsciiLowercase (by decide)]
  constructor
  · rintro ⟨host, dots, rfl, hdots, hlast, hcut⟩
    rwa [trimEndDots_append hdots hlast]
  · intro hcut
    obtain ⟨dots, heq, hdots⟩ := exists_trimEndDots_append part
    exact ⟨trimEndDots part, dots, heq, hdots, getLast?_trimEndDots part, hcut⟩

lemma Bracketed.append (h : Bracketed t) (u : Text) : Bracketed (t ++ u) := by
  obtain ⟨tail, rfl⟩ := List.head?_eq_some_iff.mp h.1
  exact ⟨rfl, List.mem_append_left u h.2⟩

lemma HostPart.not_bracketed (h : HostPart t part) : ¬ Bracketed part := by
  intro hpart
  cases h with
  | bracketed hinside => exact hinside hpart.2
  | port hbracketed => exact hbracketed (hpart.append _)
  | whole hbracketed => exact hbracketed hpart

lemma Bracketed.of_normalizeDnsHost (h : Bracketed (normalizeDnsHost part)) : Bracketed part := by
  have hnormal : normalizeDnsHost part = toAsciiLowercase (trimEndDots part) := trimEndDots_toAsciiLowercase part
  rw [hnormal] at h
  have hcut : Bracketed (trimEndDots part) :=
    ⟨(head?_toAsciiLowercase (by decide) _).mp h.1, (mem_toAsciiLowercase (by decide)).mp h.2⟩
  obtain ⟨dots, heq, -⟩ := exists_trimEndDots_append part
  rw [heq]
  exact hcut.append dots

lemma normalizeHost_normalizeHost_iff (host : Text) :
    normalizeHost (normalizeHost host) = normalizeHost host ↔
      ∀ part, HostPart host.trim part → ¬ CutAgain part := by
  obtain ⟨part, hpart, heq⟩ := exists_hostPart host
  have hidem : normalizeDnsHost (normalizeDnsHost part) = normalizeDnsHost part := by
    have hlower : toAsciiLowercase (normalizeDnsHost part) = normalizeDnsHost part :=
      (lowercase_normalizeDnsHost part).map_toLower
    rw [normalizeDnsHost, hlower]
    exact List.rdropWhile_idempotent _ _
  have hbracketed : ¬ Bracketed (normalizeDnsHost part) := fun h => hpart.not_bracketed h.of_normalizeDnsHost
  rw [heq, normalizeHost_eq_self_iff hidem]
  constructor
  · rintro ⟨htrim, -, hcount⟩ part' hpart'
    rw [hpart'.unique hpart, cutAgain_iff]
    rintro (h | h)
    · exact h htrim
    · exact hcount h
  · intro h
    have hcut := h part hpart
    rw [cutAgain_iff, not_or, not_not] at hcut
    exact ⟨hcut.1, hbracketed, hcut.2⟩

end Supercodex.NetworkProxy
