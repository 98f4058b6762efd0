import Supercodex.StreamParser.InlineHiddenTag

/-!
# The opener that is found

Of all delimiters that open a tag, the one that starts first is found, and of those that start at one place the
longest. What is kept of a text without an opener is enough to find the opener when more arrives.
-/

namespace Supercodex.StreamParser.InlineHiddenTagParser

open Search

variable {T : Type} {specs : List (InlineTagSpec T)} {pending : Text} {i j : ℕ} {s s' spec : InlineTagSpec T}

/-- The opener that a parser should find in a text. -/
structure FirstOpen (specs : List (InlineTagSpec T)) (pending : Text) (i : ℕ) (s : InlineTagSpec T) : Prop where
  starts : s.openTag <+: pending.drop i
  earliest : ∀ s' ∈ specs, ∀ j < i, ¬ s'.openTag <+: pending.drop j
  longest : ∀ s' ∈ specs, s'.openTag <+: pending.drop i → s'.openTag.length ≤ s.openTag.length
  first : specs.find? (fun s' => s'.openTag = s.openTag) = some s

lemma FirstOpen.mem (h : FirstOpen specs pending i s) : s ∈ specs := List.mem_of_find?_eq_some h.first

lemma FirstOpen.unique (h : FirstOpen specs pending i s) (h' : FirstOpen specs pending j s') : i = j ∧ s = s' := by
  have hle : ¬ j < i := fun hlt => h.earliest s' h'.mem j hlt h'.starts
  have hge : ¬ i < j := fun hlt => h'.earliest s h.mem i hlt h.starts
  have hij : i = j := by omega
  subst hij
  have hlen : s.openTag.length = s'.openTag.length :=
    Nat.le_antisymm (h'.longest s h.mem h.starts) (h.longest s' h'.mem h'.starts)
  have hopen : s.openTag = s'.openTag :=
    (List.prefix_of_prefix_length_le h.starts h'.starts hlen.le).eq_of_length hlen
  have hfirst := h.first
  rw [hopen, h'.first] at hfirst
  exact ⟨rfl, (Option.some.inj hfirst).symm⟩

/-! ## The search -/

lemma findNextOpen_append_singleton (specs : List (InlineTagSpec T)) (spec : InlineTagSpec T) (pending : Text) :
    findNextOpen (specs ++ [spec]) pending =
      match find spec.openTag pending with
      | none => findNextOpen specs pending
      | some i => nextOpen (findNextOpen specs pending) (i, spec) := by
  unfold findNextOpen
  rw [List.filterMap_append, List.foldl_append, List.filterMap_cons]
  cases hfind : find spec.openTag pending with
  | none | some i => rfl

lemma FirstOpen.keep (h : FirstOpen specs pending i s) (hlater : ∀ j < i, ¬ spec.openTag <+: pending.drop j)
    (hshorter : spec.openTag <+: pending.drop i → spec.openTag.length ≤ s.openTag.length) :
    FirstOpen (specs ++ [spec]) pending i s where
  starts := h.starts
  earliest s' hs' := by
    rcases List.mem_append.mp hs' with hs' | hs'
    · exact h.earliest s' hs'
    · rw [List.mem_singleton.mp hs']
      exact hlater
  longest s' hs' := by
    rcases List.mem_append.mp hs' with hs' | hs'
    · exact h.longest s' hs'
    · rw [List.mem_singleton.mp hs']
      exact hshorter
  first := by rw [List.find?_append, h.first, Option.some_or]

lemma firstOpen_last (hstarts : spec.openTag <+: pending.drop i)
    (hearliest : ∀ j < i, ¬ spec.openTag <+: pending.drop j)
    (hlater : ∀ s' ∈ specs, ∀ j < i, ¬ s'.openTag <+: pending.drop j)
    (hshorter : ∀ s' ∈ specs, s'.openTag <+: pending.drop i → s'.openTag.length < spec.openTag.length) :
    FirstOpen (specs ++ [spec]) pending i spec where
  starts := hstarts
  earliest s' hs' := by
    rcases List.mem_append.mp hs' with hs' | hs'
    · exact hlater s' hs'
    · rw [List.mem_singleton.mp hs']
      exact hearliest
  longest s' hs' hs'starts := by
    rcases List.mem_append.mp hs' with hs' | hs'
    · exact (hshorter s' hs' hs'starts).le
    · rw [List.mem_singleton.mp hs']
  first := by
    have hnone : specs.find? (fun s' => s'.openTag = spec.openTag) = none := by
      rw [List.find?_eq_none]
      intro s' hs' heq
      have heq : s'.openTag = spec.openTag := of_decide_eq_true heq
      have hlt := hshorter s' hs' (heq ▸ hstarts)
      rw [heq] at hlt
      exact Nat.lt_irrefl _ hlt
    rw [List.find?_append, hnone, Option.none_or, List.find?_singleton, if_pos (decide_eq_true rfl)]

/-- The search finds the opener it should, and if it finds none, no opener starts anywhere. -/
lemma findNextOpen_spec (specs : List (InlineTagSpec T)) (pending : Text) :
    match findNextOpen specs pending with
    | none => ∀ s ∈ specs, find s.openTag pending = none
    | some (i, s) => FirstOpen specs pending i s := by
  induction specs using List.reverseRecOn with
  | nil => exact fun _ h => nomatch h
  | append_singleton specs spec ih =>
    rw [findNextOpen_append_singleton]
    cases hspec : find spec.openTag pending with
    | none =>
      have hnot (j : ℕ) : ¬ spec.openTag <+: pending.drop j := not_starts_of_find hspec j spec.openTag_ne_nil
      cases hprev : findNextOpen specs pending with
      | none =>
        rw [hprev] at ih
        intro s' hs'
        rcases List.mem_append.mp hs' with hs' | hs'
        · exact ih s' hs'
        · rw [List.mem_singleton.mp hs']
          exact hspec
      | some best =>
        rw [hprev] at ih
        exact ih.keep (fun j _ => hnot j) (fun hstarts => absurd hstarts (hnot _))
    | some k =>
      obtain ⟨hstarts, hearliest⟩ := find_spec hspec
      cases hprev : findNextOpen specs pending with
      | none =>
        rw [hprev] at ih
        have hnot (s' : InlineTagSpec T) (hs' : s' ∈ specs) (j : ℕ) : ¬ s'.openTag <+: pending.drop j :=
          not_starts_of_find (ih s' hs') j s'.openTag_ne_nil
        exact firstOpen_last hstarts hearliest (fun s' hs' j _ => hnot s' hs' j)
          fun s' hs' hs'starts => absurd hs'starts (hnot s' hs' k)
      | some best =>
        rw [hprev] at ih
        obtain ⟨i, s⟩ := best
        have ih : FirstOpen specs pending i s := ih
        by_cases hbetter : k < i ∨ (k = i ∧ s.openTag.length < spec.openTag.length)
        · have hnext : nextOpen (some (i, s)) (k, spec) = some (k, spec) := if_pos hbetter
          dsimp only
          rw [hnext]
          refine firstOpen_last hstarts hearliest (fun s' hs' j hj => ih.earliest s' hs' j (by omega)) ?_
          intro s' hs' hs'starts
          rcases hbetter with hlt | ⟨rfl, hlt⟩
          · exact absurd hs'starts (ih.earliest s' hs' k hlt)
          · exact (ih.longest s' hs' hs'starts).trans_lt hlt
        · have hnext : nextOpen (some (i, s)) (k, spec) = some (i, s) := if_neg hbetter
          dsimp only
          rw [hnext]
          refine ih.keep (fun j hj => hearliest j (by omega)) ?_
          intro hstarts'
          have hle : ¬ i < k := fun hlt => hearliest i hlt hstarts'
          omega

lemma findNextOpen_eq_some_iff : findNextOpen specs pending = some (i, s) ↔ FirstOpen specs pending i s := by
  have hspec := findNextOpen_spec specs pending
  constructor
  · intro h
    rw [h] at hspec
    exact hspec
  · intro h
    cases hfound : findNextOpen specs pending with
    | none =>
      rw [hfound] at hspec
      exact absurd h.starts (not_starts_of_find (hspec s h.mem) i s.openTag_ne_nil)
    | some best =>
      rw [hfound] at hspec
      obtain ⟨rfl, rfl⟩ := h.unique hspec
      rfl

lemma findNextOpen_eq_none_iff :
    findNextOpen specs pending = none ↔ ∀ s ∈ specs, find s.openTag pending = none := by
  have hspec := findNextOpen_spec specs pending
  constructor
  · intro h
    rw [h] at hspec
    exact hspec
  · intro h
    cases hfound : findNextOpen specs pending with
    | none => rfl
    | some best =>
      rw [hfound] at hspec
      have hnone := h best.2 hspec.mem
      exact absurd hspec.starts (not_starts_of_find hnone _ best.2.openTag_ne_nil)

/-! ## When more arrives -/

/-- No delimiter that opens a tag is found in another one before that one ends. -/
def Unnested (specs : List (InlineTagSpec T)) : Prop :=
  ∀ s₁ ∈ specs, ∀ s₂ ∈ specs, ¬ s₁.openTag <:+: s₂.openTag.dropLast

/-- How much of a text without an opener is let go. -/
def settledOpen (specs : List (InlineTagSpec T)) (pending : Text) : ℕ :=
  pending.length - maxOpenPrefixSuffixLen specs pending

/-- An opener that is found is still found when more arrives. -/
lemma FirstOpen.append (hspecs : Unnested specs) (h : FirstOpen specs pending i s) (d : Text) :
    FirstOpen specs (pending ++ d) i s := by
  have hpos := List.length_pos_iff.mpr s.openTag_ne_nil
  have hi : i + s.openTag.length ≤ pending.length := by
    have hlen := h.starts.length_le
    rw [List.length_drop] at hlen
    omega
  -- an opener that starts no later and only now ends would hold the one that was found
  have hfits (s' : InlineTagSpec T) (hs' : s' ∈ specs) (j : ℕ) (hj : j ≤ i)
      (hstarts : s'.openTag <+: (pending ++ d).drop j) : s'.openTag <+: pending.drop j := by
    rw [List.drop_append_of_le_length (by omega)] at hstarts
    by_contra hnot
    have hlong : (pending.drop j).length < s'.openTag.length := by
      by_contra hshort
      exact hnot (List.prefix_of_prefix_length_le hstarts (List.prefix_append _ d) (by omega))
    have hwithin : pending.drop j <+: s'.openTag.dropLast := by
      rw [List.dropLast_eq_take]
      refine List.prefix_take_iff.mpr ⟨?_, by omega⟩
      exact List.prefix_of_prefix_length_le (List.prefix_append _ d) hstarts hlong.le
    have hinside : s.openTag <:+: pending.drop j := by
      have hdrop : pending.drop i = (pending.drop j).drop (i - j) := by
        rw [List.drop_drop]
        congr 1
        omega
      have hprefix := h.starts
      rw [hdrop] at hprefix
      exact hprefix.isInfix.trans (List.drop_suffix _ _).isInfix
    exact hspecs s h.mem s' hs' (hinside.trans hwithin.isInfix)
  refine ⟨?_, ?_, ?_, h.first⟩
  · rw [List.drop_append_of_le_length (by omega)]
    exact h.starts.trans (List.prefix_append _ d)
  · intro s' hs' j hj hstarts
    exact h.earliest s' hs' j hj (hfits s' hs' j hj.le hstarts)
  · intro s' hs' hstarts
    exact h.longest s' hs' (hfits s' hs' i le_rfl hstarts)

lemma foldl_max_le_iff {lengths : List ℕ} {m n : ℕ} :
    lengths.foldl max m ≤ n ↔ m ≤ n ∧ ∀ k ∈ lengths, k ≤ n := by
  induction lengths generalizing m with
  | nil => simp
  | cons k lengths ih =>
    rw [List.foldl_cons, ih, List.forall_mem_cons, Nat.max_le, and_assoc]

lemma longestSuffixStart_le_max (hs : s ∈ specs) (pending : Text) :
    longestSuffixStart pending s.openTag ≤ maxOpenPrefixSuffixLen specs pending :=
  (foldl_max_le_iff.mp le_rfl).2 _ (List.mem_map_of_mem hs)

lemma maxOpenPrefixSuffixLen_le_length (specs : List (InlineTagSpec T)) (pending : Text) :
    maxOpenPrefixSuffixLen specs pending ≤ pending.length := by
  refine foldl_max_le_iff.mpr ⟨Nat.zero_le _, fun k hk => ?_⟩
  obtain ⟨s, -, rfl⟩ := List.mem_map.mp hk
  exact longestSuffixStart_le_length pending s.openTag

lemma settledOpen_le_length (specs : List (InlineTagSpec T)) (pending : Text) :
    settledOpen specs pending ≤ pending.length :=
  Nat.sub_le _ _

lemma settledOpen_le (hs : s ∈ specs) (pending : Text) :
    settledOpen specs pending ≤ settledLength pending s.openTag := by
  have hle := longestSuffixStart_le_max hs pending
  unfold settledOpen settledLength
  omega

/-- Places where no opener starts may be passed over. -/
lemma findNextOpen_drop {k : ℕ} (hnot : ∀ s ∈ specs, ∀ j < k, ¬ s.openTag <+: pending.drop j) :
    findNextOpen specs pending =
      (findNextOpen specs (pending.drop k)).map fun found => (found.1 + k, found.2) := by
  cases hrest : findNextOpen specs (pending.drop k) with
  | none =>
    rw [findNextOpen_eq_none_iff] at hrest
    rw [Option.map_none, findNextOpen_eq_none_iff]
    intro s hs
    by_contra hfound
    obtain ⟨i, hi⟩ := Option.ne_none_iff_exists'.mp hfound
    have hstarts := (find_spec hi).1
    have hk : ¬ i < k := fun hlt => hnot s hs i hlt hstarts
    have hdrop : pending.drop i = (pending.drop k).drop (i - k) := by
      rw [List.drop_drop]
      congr 1
      omega
    rw [hdrop] at hstarts
    exact not_starts_of_find (hrest s hs) (i - k) s.openTag_ne_nil hstarts
  | some found =>
    have h : FirstOpen specs (pending.drop k) found.1 found.2 := findNextOpen_eq_some_iff.mp hrest
    have hdrop (j : ℕ) : pending.drop (j + k) = (pending.drop k).drop j := by
      rw [List.drop_drop, Nat.add_comm]
    rw [Option.map_some, findNextOpen_eq_some_iff]
    refine ⟨?_, ?_, ?_, h.first⟩
    · rw [hdrop]
      exact h.starts
    · intro s' hs' j hj hstarts
      by_cases hlt : j < k
      · exact hnot s' hs' j hlt hstarts
      · obtain ⟨j, rfl⟩ : ∃ n, j = n + k := ⟨j - k, by omega⟩
        rw [hdrop] at hstarts
        exact h.earliest s' hs' j (by omega) hstarts
    · intro s' hs' hstarts
      rw [hdrop] at hstarts
      exact h.longest s' hs' hstarts

lemma findNextOpen_append (h : findNextOpen specs pending = none) (d : Text) :
    findNextOpen specs (pending ++ d) =
      (findNextOpen specs (pending.drop (settledOpen specs pending) ++ d)).map
        fun found => (found.1 + settledOpen specs pending, found.2) := by
  have hlen := settledOpen_le_length specs pending
  rw [← List.drop_append_of_le_length hlen]
  apply findNextOpen_drop
  intro s hs j hj
  rw [List.drop_append_of_le_length (by omega)]
  exact not_starts_in_settled s.openTag_ne_nil (findNextOpen_eq_none_iff.mp h s hs) d
    (hj.trans_le (settledOpen_le hs pending))

lemma maxOpenPrefixSuffixLen_append (specs : List (InlineTagSpec T)) (pending d : Text) :
    maxOpenPrefixSuffixLen specs (pending ++ d) =
      maxOpenPrefixSuffixLen specs (pending.drop (settledOpen specs pending) ++ d) := by
  have hmap : specs.map (fun s => longestSuffixStart (pending ++ d) s.openTag) =
      specs.map fun s => longestSuffixStart (pending.drop (settledOpen specs pending) ++ d) s.openTag := by
    refine List.map_congr_left fun s hs => ?_
    exact longestSuffixStart_append_of_le pending d s.openTag_ne_nil (settledOpen_le hs pending)
  unfold maxOpenPrefixSuffixLen
  rw [hmap]

lemma settledOpen_append (specs : List (InlineTagSpec T)) (pending d : Text) :
    settledOpen specs (pending ++ d) =
      settledOpen specs pending + settledOpen specs (pending.drop (settledOpen specs pending) ++ d) := by
  have hle := maxOpenPrefixSuffixLen_le_length specs (pending.drop (settledOpen specs pending) ++ d)
  have hlen := settledOpen_le_length specs pending
  have hkept := maxOpenPrefixSuffixLen_append specs pending d
  generalize settledOpen specs pending = k at *
  rw [List.length_append, List.length_drop] at hle
  unfold settledOpen
  rw [hkept, List.length_append, List.length_append, List.length_drop]
  omega

end Supercodex.StreamParser.InlineHiddenTagParser
