import Supercodex.ExecPolicy.Policy

/-!
# What an overlay policy guarantees

`mergeOverlay` appends the overlay's rules, so a rule of the overlay that matches a command by
its own first token still matches after the merge. A rule that matches only through the resolved
executable is tried last: an exact rule of the base comes before it, and a table of the base for
the executable's name still applies where the overlay has none.
-/

namespace Supercodex.ExecPolicy

open Supercodex.Path Decision

/-! ## Decisions -/

lemma Decision.le_rfl (a : Decision) : a ≤ a := Nat.le_refl a.rank

lemma Decision.le_trans {a b c : Decision} (hab : a ≤ b) (hbc : b ≤ c) : a ≤ c :=
  Nat.le_trans hab hbc

lemma Decision.le_max_left (a b : Decision) : a ≤ a.max b := by
  unfold max
  split
  · assumption
  · exact le_rfl a

lemma Decision.le_max_right (a b : Decision) : b ≤ a.max b := by
  unfold max
  split
  · exact le_rfl b
  · rename_i hab
    exact Nat.le_of_lt (Nat.lt_of_not_le hab)

lemma Decision.max_eq_or (a b : Decision) : a.max b = a ∨ a.max b = b := by
  unfold max
  split
  · exact Or.inr rfl
  · exact Or.inl rfl

lemma le_foldl_max (ms : List RuleMatch) (d : Decision) :
    d ≤ ms.foldl (fun d m => d.max m.decision) d ∧
      ∀ m ∈ ms, m.decision ≤ ms.foldl (fun d m => d.max m.decision) d := by
  induction ms generalizing d with
  | nil => exact ⟨le_rfl d, by simp⟩
  | cons m ms ih =>
    obtain ⟨hstart, hrest⟩ := ih (d.max m.decision)
    refine ⟨le_trans (le_max_left _ _) hstart, ?_⟩
    intro m' hm'
    rcases List.mem_cons.mp hm' with rfl | hm'
    · exact le_trans (le_max_right _ _) hstart
    · exact hrest m' hm'

lemma le_strictest {m m' : RuleMatch} {ms : List RuleMatch} (h : m' ∈ m :: ms) :
    m'.decision ≤ strictest m ms := by
  rcases List.mem_cons.mp h with rfl | h
  · exact (le_foldl_max ms _).1
  · exact (le_foldl_max ms _).2 m' h

lemma exists_strictest (m : RuleMatch) (ms : List RuleMatch) :
    ∃ m' ∈ m :: ms, m'.decision = strictest m ms := by
  unfold strictest
  induction ms generalizing m with
  | nil => exact ⟨m, by simp, rfl⟩
  | cons a ms ih =>
    rw [List.foldl_cons]
    rcases max_eq_or m.decision a.decision with h | h
    · obtain ⟨m', hm', hd⟩ := ih m
      refine ⟨m', ?_, by rw [h]; exact hd⟩
      simp only [List.mem_cons] at hm' ⊢
      tauto
    · obtain ⟨m', hm', hd⟩ := ih a
      exact ⟨m', List.mem_cons_of_mem _ hm', by rw [h]; exact hd⟩

namespace Policy

variable (home currentDir : Option AbsolutePath) (base overlay : Policy) (cmd : List Text)
  (fallback : List Text → Decision) (options : MatchOptions)

/-! ## Evaluating a command -/

lemma checkWithOptions_of_matches {p : Policy} {m : RuleMatch} {ms : List RuleMatch}
    (h : p.policyMatches home currentDir cmd options = m :: ms) :
    p.checkWithOptions home currentDir cmd fallback options = ⟨strictest m ms, m :: ms⟩ := by
  unfold checkWithOptions matchesForCommandWithOptions
  rw [h]

lemma checkWithOptions_of_no_matches {p : Policy}
    (h : p.policyMatches home currentDir cmd options = []) :
    p.checkWithOptions home currentDir cmd fallback options =
      ⟨fallback cmd, [.heuristicsRuleMatch cmd (fallback cmd)]⟩ := by
  unfold checkWithOptions matchesForCommandWithOptions
  rw [h]
  rfl

lemma checkWithOptions_decision_mono {p q : Policy}
    (hne : p.policyMatches home currentDir cmd options ≠ [])
    (hsub : p.policyMatches home currentDir cmd options ⊆
      q.policyMatches home currentDir cmd options) :
    (p.checkWithOptions home currentDir cmd fallback options).decision ≤
      (q.checkWithOptions home currentDir cmd fallback options).decision := by
  obtain ⟨m, ms, hp⟩ := List.exists_cons_of_ne_nil hne
  have hm : m ∈ q.policyMatches home currentDir cmd options :=
    hsub (by rw [hp]; exact List.mem_cons_self)
  obtain ⟨n, ns, hq⟩ := List.exists_cons_of_ne_nil (List.ne_nil_of_mem hm)
  rw [checkWithOptions_of_matches home currentDir cmd fallback options hp,
    checkWithOptions_of_matches home currentDir cmd fallback options hq]
  show strictest m ms ≤ strictest n ns
  obtain ⟨m', hm', hd⟩ := exists_strictest m ms
  rw [← hd]
  apply le_strictest
  rw [← hq]
  apply hsub
  rw [hp]
  exact hm'

lemma policyMatches_ne_nil {p : Policy}
    (h : (p.checkWithOptions home currentDir cmd fallback options).isMatch = true) :
    p.policyMatches home currentDir cmd options ≠ [] := by
  intro hnil
  rw [checkWithOptions_of_no_matches home currentDir cmd fallback options hnil] at h
  simp [Evaluation.isMatch, RuleMatch.isPolicyMatch] at h

/-! ## Matching in a merged policy -/

@[simp] lemma matchExactRules_mergeOverlay :
    (base.mergeOverlay overlay).matchExactRules cmd =
      base.matchExactRules cmd ++ overlay.matchExactRules cmd := by
  cases cmd with
  | nil => rfl
  | cons first args =>
    show ((base.rulesByProgram first) ++ (overlay.rulesByProgram first)).filterMap _ = _
    rw [List.filterMap_append]
    rfl

/-- The base keeps the overlay's rules for an executable from a path: it lists other paths for
the executable's name, and the overlay lists none. -/
def Withholds : Prop :=
  ∃ program basename paths, hostProgram home currentDir cmd = some (program, basename) ∧
    overlay.hostExecutablesByName basename = none ∧
    base.hostExecutablesByName basename = some paths ∧ program ∉ paths

lemma hostAllows_mergeOverlay {program : AbsolutePath} {basename : Text}
    (hprog : hostProgram home currentDir cmd = some (program, basename))
    (ho : overlay.hostAllows program basename = true) :
    (base.mergeOverlay overlay).hostAllows program basename = true ↔
      ¬ Withholds home currentDir base overlay cmd := by
  have key : Withholds home currentDir base overlay cmd ↔
      overlay.hostExecutablesByName basename = none ∧
        ∃ paths, base.hostExecutablesByName basename = some paths ∧ program ∉ paths := by
    constructor
    · intro ⟨program', basename', paths, hprog', hnone, hsome, hmem⟩
      rw [hprog] at hprog'
      obtain ⟨rfl, rfl⟩ := Prod.mk.inj (Option.some.inj hprog')
      exact ⟨hnone, paths, hsome, hmem⟩
    · intro ⟨hnone, paths, hsome, hmem⟩
      exact ⟨program, basename, paths, hprog, hnone, hsome, hmem⟩
  rw [key]
  simp only [hostAllows, mergeOverlay] at ho ⊢
  cases hov : overlay.hostExecutablesByName basename with
  | some paths => simpa [hov] using ho
  | none =>
    cases hb : base.hostExecutablesByName basename with
    | some paths | none => simp

/-- The base takes host matches away only where its host table withholds the program. -/
lemma matchHostExecutableRules_mergeOverlay
    (hne : overlay.matchHostExecutableRules home currentDir cmd ≠ []) :
    (¬ Withholds home currentDir base overlay cmd →
      overlay.matchHostExecutableRules home currentDir cmd ⊆
        (base.mergeOverlay overlay).matchHostExecutableRules home currentDir cmd) ∧
    (Withholds home currentDir base overlay cmd →
      (base.mergeOverlay overlay).matchHostExecutableRules home currentDir cmd = []) := by
  cases hprog : hostProgram home currentDir cmd with
  | none => simp [matchHostExecutableRules, hprog] at hne
  | some pb =>
    obtain ⟨program, basename⟩ := pb
    have ho : overlay.hostAllows program basename = true := by
      by_contra h
      simp [matchHostExecutableRules, hprog, h] at hne
    have hallow := hostAllows_mergeOverlay home currentDir base overlay cmd hprog ho
    constructor
    · intro hw m hm
      unfold matchHostExecutableRules at hm ⊢
      simp only [hprog, ho, if_true] at hm
      simp only [hprog, hallow.mpr hw, if_true]
      show m ∈ (((base.rulesByProgram basename) ++ (overlay.rulesByProgram basename)).filterMap
        _).map _
      rw [List.filterMap_append, List.map_append]
      exact List.mem_append_right _ hm
    · intro hw
      have hno : ¬ (base.mergeOverlay overlay).hostAllows program basename = true :=
        fun h => hallow.mp h hw
      simp [matchHostExecutableRules, hprog, hno]

/-! ## The overlay's guarantee -/

/-- What the merge keeps of an overlay that matches a command on its own. -/
structure OverlayGuarantee : Prop where
  /-- An exact match of the overlay is never weakened. -/
  exact : overlay.matchExactRules cmd ≠ [] →
    (overlay.checkWithOptions home currentDir cmd fallback options).decision ≤
      ((base.mergeOverlay overlay).checkWithOptions home currentDir cmd fallback options).decision
  /-- Before a match by the resolved executable come the exact rules of the base. -/
  baseExact : overlay.matchExactRules cmd = [] → base.matchExactRules cmd ≠ [] →
    (base.mergeOverlay overlay).checkWithOptions home currentDir cmd fallback options =
      base.checkWithOptions home currentDir cmd fallback options
  /-- Without them the resolved executable decides as the overlay says, or more strictly. -/
  resolved : overlay.matchExactRules cmd = [] → base.matchExactRules cmd = [] →
    ¬ Withholds home currentDir base overlay cmd →
    (overlay.checkWithOptions home currentDir cmd fallback options).decision ≤
      ((base.mergeOverlay overlay).checkWithOptions home currentDir cmd fallback options).decision
  /-- If the base's table withholds the executable, no rule matches and the heuristics decide. -/
  withheld : overlay.matchExactRules cmd = [] → base.matchExactRules cmd = [] →
    Withholds home currentDir base overlay cmd →
    ((base.mergeOverlay overlay).checkWithOptions home currentDir cmd fallback options).decision =
      fallback cmd

/-- A merged policy is at least as strict as its overlay, up to the two ways in which the base
comes before a match by the resolved executable. -/
theorem mergeOverlay_guarantee
    (h : (overlay.checkWithOptions home currentDir cmd fallback options).isMatch = true) :
    OverlayGuarantee home currentDir base overlay cmd fallback options := by
  have hne := policyMatches_ne_nil home currentDir cmd fallback options h
  -- without an exact match the overlay has matched by the resolved executable
  have hhost : overlay.matchExactRules cmd = [] → options.resolveHostExecutables = true ∧
      overlay.matchHostExecutableRules home currentDir cmd ≠ [] := by
    intro hexact
    unfold policyMatches at hne
    rw [hexact] at hne
    simpa using hne
  constructor
  · intro hexact
    apply checkWithOptions_decision_mono home currentDir cmd fallback options hne
    intro m hm
    unfold policyMatches at hm ⊢
    simp only [List.isEmpty_iff, hexact, if_false] at hm
    simp only [matchExactRules_mergeOverlay, List.isEmpty_iff, List.append_eq_nil_iff, hexact,
      and_false, if_false]
    exact List.mem_append_right _ hm
  · intro hexact hbase
    have hsame : (base.mergeOverlay overlay).policyMatches home currentDir cmd options =
        base.policyMatches home currentDir cmd options := by
      unfold policyMatches
      rw [matchExactRules_mergeOverlay, hexact, List.append_nil]
      simp only [List.isEmpty_iff, hbase, if_false]
    unfold checkWithOptions matchesForCommandWithOptions
    rw [hsame]
  · intro hexact hbase hw
    obtain ⟨hres, hm⟩ := hhost hexact
    apply checkWithOptions_decision_mono home currentDir cmd fallback options hne
    unfold policyMatches
    rw [matchExactRules_mergeOverlay, hexact, hbase]
    simp only [List.append_nil, List.isEmpty_nil, if_true, hres]
    exact (matchHostExecutableRules_mergeOverlay home currentDir base overlay cmd hm).1 hw
  · intro hexact hbase hw
    obtain ⟨hres, hm⟩ := hhost hexact
    have hnil : (base.mergeOverlay overlay).policyMatches home currentDir cmd options = [] := by
      unfold policyMatches
      rw [matchExactRules_mergeOverlay, hexact, hbase]
      simp only [List.append_nil, List.isEmpty_nil, if_true, hres]
      exact (matchHostExecutableRules_mergeOverlay home currentDir base overlay cmd hm).2 hw
    rw [checkWithOptions_of_no_matches home currentDir cmd fallback options hnil]

end Policy

/-! ## A base that allows what the overlay forbids -/

/-- A policy with one rule for one program and no executable tables. -/
def oneRule (program : Text) (decision : Decision) : Policy where
  rulesByProgram name := if name = program then [⟨program, [], decision, none⟩] else []
  hostExecutablesByName _ := none

/-- The overlay alone forbids `/usr/bin/rm` through its rule for `rm`; merged over a base with an
exact rule for the path it allows the command. -/
theorem base_exact_rule_precedes_overlay :
    let base := oneRule "/usr/bin/rm".toList .allow
    let overlay := oneRule "rm".toList .forbidden
    let cmd := ["/usr/bin/rm".toList]
    let check := fun p : Policy => p.checkWithOptions none none cmd (fun _ => .prompt) ⟨true⟩
    (check overlay).isMatch = true ∧ (check overlay).decision = .forbidden ∧
      (check (base.mergeOverlay overlay)).decision = .allow := by
  decide

/-- The same two policies meet the guarantee: the overlay has no exact match, the base has. -/
theorem mergeOverlay_guarantee_rm :
    Policy.OverlayGuarantee none none (oneRule "/usr/bin/rm".toList .allow)
      (oneRule "rm".toList .forbidden) ["/usr/bin/rm".toList] (fun _ => .prompt) ⟨true⟩ :=
  Policy.mergeOverlay_guarantee none none _ _ _ _ _ (by decide)

end Supercodex.ExecPolicy
