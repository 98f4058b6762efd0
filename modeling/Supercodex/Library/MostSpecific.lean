import Mathlib.Data.List.Infix
import Mathlib.Order.Lattice

/-!
# The most specific rule for a path

Rules give a mode to a path and everything below it. The longest rule path above a given path
decides, and among rules with the same path the largest mode does. The argument about such rules
is always the same: the rule that decides for a path decides for every path between it and the
path, itself included.
-/

namespace Supercodex

/-- A mode for a path and everything below it. -/
structure PathRule (α μ : Type) where
  path : List α
  mode : μ
deriving DecidableEq

namespace PathRule

variable {α μ : Type} [LinearOrder μ]

/-- Is `r` preceded by `r'` when both cover a path? -/
def before (r r' : PathRule α μ) : Bool :=
  r.path.length < r'.path.length ||
    (r.path.length == r'.path.length && decide (r.mode ≤ r'.mode))

/-- The last of the rules that no other one precedes. -/
def strongest : List (PathRule α μ) → Option (PathRule α μ)
  | [] => none
  | r :: rs =>
    match strongest rs with
    | none => some r
    | some best => if before r best then some best else some r

lemma before_iff (r r' : PathRule α μ) : before r r' = true ↔
    r.path.length < r'.path.length ∨ (r.path.length = r'.path.length ∧ r.mode ≤ r'.mode) := by
  unfold before
  simp

lemma before_rfl (r : PathRule α μ) : before r r = true := by
  rw [before_iff]
  exact Or.inr ⟨rfl, le_refl _⟩

lemma before_trans {r r' r'' : PathRule α μ} (h : before r r' = true) (h' : before r' r'' = true) :
    before r r'' = true := by
  rw [before_iff] at *
  rcases h with h | ⟨h, hm⟩ <;> rcases h' with h' | ⟨h', hm'⟩
  · exact Or.inl (by omega)
  · exact Or.inl (by omega)
  · exact Or.inl (by omega)
  · exact Or.inr ⟨by omega, le_trans hm hm'⟩

lemma before_total (r r' : PathRule α μ) : before r r' = true ∨ before r' r = true := by
  rw [before_iff, before_iff]
  rcases lt_trichotomy r.path.length r'.path.length with h | h | h
  · exact Or.inl (Or.inl h)
  · rcases le_total r.mode r'.mode with hm | hm
    · exact Or.inl (Or.inr ⟨h, hm⟩)
    · exact Or.inr (Or.inr ⟨h.symm, hm⟩)
  · exact Or.inr (Or.inl h)

lemma strongest_eq_none_iff (rs : List (PathRule α μ)) : strongest rs = none ↔ rs = [] := by
  cases rs with
  | nil => simp [strongest]
  | cons r rs =>
    unfold strongest
    split
    · simp
    · split <;> simp

variable {r : PathRule α μ}

/-- The strongest rule is one of the rules, and preceded by all of them. -/
lemma strongest_spec {rs : List (PathRule α μ)} (h : strongest rs = some r) :
    r ∈ rs ∧ ∀ r' ∈ rs, before r' r = true := by
  induction rs generalizing r with
  | nil => simp [strongest] at h
  | cons a rs ih =>
    unfold strongest at h
    split at h
    · rename_i hnone
      rw [strongest_eq_none_iff] at hnone
      rw [← Option.some.inj h, hnone]
      simp [before_rfl]
    · rename_i best hbest
      obtain ⟨hmem, hall⟩ := ih hbest
      split at h
      · rename_i hb
        rw [← Option.some.inj h]
        refine ⟨List.mem_cons_of_mem _ hmem, ?_⟩
        intro r' hr'
        rcases List.mem_cons.mp hr' with rfl | hr'
        · exact hb
        · exact hall r' hr'
      · rename_i hb
        have hab : before best a = true := (before_total best a).resolve_right hb
        rw [← Option.some.inj h]
        refine ⟨List.mem_cons_self, ?_⟩
        intro r' hr'
        rcases List.mem_cons.mp hr' with rfl | hr'
        · exact before_rfl _
        · exact before_trans (hall r' hr') hab

/-! ## The deciding rule -/

/-- `r` covers `p`, and every rule that covers `p` is shorter or has the same path and at most
its mode. -/
structure Decides (rules : List (PathRule α μ)) (p : List α) (r : PathRule α μ) : Prop where
  mem : r ∈ rules
  covers : r.path <+: p
  longest : ∀ r' ∈ rules, r'.path <+: p →
    r'.path.length < r.path.length ∨ (r'.path = r.path ∧ r'.mode ≤ r.mode)

variable {rules : List (PathRule α μ)} {p : List α}

lemma Decides.unique {r r' : PathRule α μ}
    (h : Decides rules p r) (h' : Decides rules p r') : r = r' := by
  have hle := h.longest r' h'.mem h'.covers
  have hge := h'.longest r h.mem h.covers
  have hpath : r.path = r'.path := by
    rcases hge with hlt | ⟨heq, -⟩
    · rcases hle with hlt' | ⟨heq, -⟩
      · omega
      · exact heq.symm
    · exact heq
  have hmode : r.mode = r'.mode := by
    rcases hle with hlt | ⟨-, hm⟩
    · rw [hpath] at hlt
      omega
    rcases hge with hlt' | ⟨-, hm'⟩
    · rw [hpath] at hlt'
      omega
    · exact le_antisymm hm' hm
  cases r
  cases r'
  cases hpath
  cases hmode
  rfl

/-- The rule decides for every path between its own path and `p`. -/
lemma Decides.between {p q : List α}
    (h : Decides rules p r) (hr : r.path <+: q) (hq : q <+: p) : Decides rules q r :=
  ⟨h.mem, hr, fun r' hr' hcov => h.longest r' hr' (hcov.trans hq)⟩

lemma Decides.self (h : Decides rules p r) : Decides rules r.path r :=
  h.between (List.prefix_refl _) h.covers

lemma Decides.prefix_of_covers {r r' : PathRule α μ}
    (h : Decides rules p r) (hr' : r' ∈ rules) (hcov : r'.path <+: p) : r'.path <+: r.path := by
  rcases h.longest r' hr' hcov with hlt | ⟨heq, -⟩
  · exact List.prefix_of_prefix_length_le hcov h.covers hlt.le
  · rw [heq]

lemma Decides.of_append {rules rules' : List (PathRule α μ)}
    (h : Decides (rules ++ rules') p r) (hr : r ∈ rules) : Decides rules p r :=
  ⟨hr, h.covers, fun r' hr' => h.longest r' (List.mem_append_left _ hr')⟩

/-! ## Resolution -/

section
variable [DecidableEq α]

/-- The rule that decides for a path, if there is one. -/
def resolve (rules : List (PathRule α μ)) (p : List α) : Option (PathRule α μ) :=
  strongest (rules.filter fun r => r.path.isPrefixOf p)

variable {rules : List (PathRule α μ)} {r : PathRule α μ} {p : List α}

lemma decides_of_resolve (h : resolve rules p = some r) : Decides rules p r := by
  obtain ⟨hmem, hall⟩ := strongest_spec h
  rw [List.mem_filter, List.isPrefixOf_iff_prefix] at hmem
  refine ⟨hmem.1, hmem.2, ?_⟩
  intro r' hr' hcov
  have hb := hall r' (List.mem_filter.mpr ⟨hr', List.isPrefixOf_iff_prefix.mpr hcov⟩)
  rw [before_iff] at hb
  rcases hb with hlt | ⟨hlen, hm⟩
  · exact Or.inl hlt
  · -- two prefixes of one path with the same length are the same path
    exact Or.inr ⟨(List.prefix_of_prefix_length_le hcov hmem.2 hlen.le).eq_of_length hlen, hm⟩

lemma resolve_eq_none_iff :
    resolve rules p = none ↔ ∀ r ∈ rules, ¬ r.path <+: p := by
  unfold resolve
  rw [strongest_eq_none_iff, List.filter_eq_nil_iff]
  simp only [List.isPrefixOf_iff_prefix]

lemma resolve_concat (h : ¬ r.path <+: p) :
    resolve (rules ++ [r]) p = resolve rules p := by
  unfold resolve
  rw [List.filter_append, List.filter_cons_of_neg (by rwa [List.isPrefixOf_iff_prefix]), List.filter_nil,
    List.append_nil]

lemma exists_decides (hr : r ∈ rules)
    (hcov : r.path <+: p) : ∃ r', resolve rules p = some r' ∧ Decides rules p r' := by
  cases h : resolve rules p with
  | none => exact absurd hcov (resolve_eq_none_iff.mp h r hr)
  | some r' => exact ⟨r', rfl, decides_of_resolve h⟩

lemma Decides.resolve_eq (h : Decides rules p r) : resolve rules p = some r := by
  obtain ⟨r', hr', hd⟩ := exists_decides h.mem h.covers
  rw [hr', h.unique hd]

lemma resolve_eq_some_iff :
    resolve rules p = some r ↔ Decides rules p r :=
  ⟨decides_of_resolve, Decides.resolve_eq⟩

lemma resolve_congr {rules rules' : List (PathRule α μ)} (h : ∀ r, r ∈ rules' ↔ r ∈ rules) (p : List α) :
    resolve rules' p = resolve rules p := by
  refine Option.ext fun r => ?_
  rw [resolve_eq_some_iff, resolve_eq_some_iff]
  constructor
  · rintro ⟨hmem, hcovers, hlongest⟩
    exact ⟨(h r).mp hmem, hcovers, fun r' hr' => hlongest r' ((h r').mpr hr')⟩
  · rintro ⟨hmem, hcovers, hlongest⟩
    exact ⟨(h r).mpr hmem, hcovers, fun r' hr' => hlongest r' ((h r').mp hr')⟩

end

end PathRule

end Supercodex
