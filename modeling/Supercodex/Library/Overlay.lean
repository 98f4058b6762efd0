import Mathlib.Data.List.Infix

/-!
# Layers over a tree

A layer replaces everything below its target. Layers are put on one after another, so that what
shows at a path is the content of the last layer whose target lies above it.
-/

namespace Supercodex

/-- A content for a path and everything below it. -/
structure Layer (α β : Type) where
  target : List α
  content : β
deriving DecidableEq

namespace Layer

variable {α β γ : Type} [DecidableEq α]

/-- What the layers, first to last, show at a path. -/
def view (layers : List (Layer α β)) (p : List α) : Option β :=
  match layers with
  | [] => none
  | layer :: layers =>
    (view layers p).or (if layer.target <+: p then some layer.content else none)

variable {layers : List (Layer α β)} {p : List α}

lemma view_append (first last : List (Layer α β)) (p : List α) :
    view (first ++ last) p = (view last p).or (view first p) := by
  induction first with
  | nil => simp [view]
  | cons layer first ih => rw [List.cons_append, view, ih, view, Option.or_assoc]

lemma view_singleton (layer : Layer α β) (p : List α) :
    view [layer] p = if layer.target <+: p then some layer.content else none := by
  simp [view]

lemma view_eq_none_iff : view layers p = none ↔ ∀ layer ∈ layers, ¬ layer.target <+: p := by
  induction layers with
  | nil => simp [view]
  | cons layer layers ih =>
    rw [view, Option.or_eq_none_iff, ih, List.forall_mem_cons]
    constructor
    · intro ⟨hall, hnone⟩
      refine ⟨?_, hall⟩
      intro hp
      rw [if_pos hp] at hnone
      cases hnone
    · intro ⟨hlayer, hall⟩
      exact ⟨hall, if_neg hlayer⟩

lemma exists_of_view {content : β} (h : view layers p = some content) :
    ∃ layer ∈ layers, layer.target <+: p ∧ layer.content = content := by
  induction layers with
  | nil => cases h
  | cons layer layers ih =>
    rw [view, Option.or_eq_some_iff] at h
    rcases h with h | ⟨-, h⟩
    · obtain ⟨l, hl, hp, hc⟩ := ih h
      exact ⟨l, List.mem_cons_of_mem _ hl, hp, hc⟩
    split at h
    · rename_i hp
      exact ⟨layer, List.mem_cons_self, hp, Option.some.inj h⟩
    · cases h

lemma exists_of_view_flatMap {groups : List γ} {f : γ → List (Layer α β)} {content : β}
    (h : view (groups.flatMap f) p = some content) :
    ∃ before g later, groups = before ++ g :: later ∧ view (f g) p = some content ∧
      ∀ g' ∈ later, view (f g') p = none := by
  induction groups with
  | nil => cases h
  | cons g groups ih =>
    rw [List.flatMap_cons, view_append, Option.or_eq_some_iff] at h
    rcases h with h | ⟨hnone, h⟩
    · obtain ⟨before, g', later, rfl, hg', hlater⟩ := ih h
      exact ⟨g :: before, g', later, rfl, hg', hlater⟩
    refine ⟨[], g, groups, rfl, h, ?_⟩
    intro g' hg'
    rw [view_eq_none_iff] at hnone ⊢
    intro layer hlayer
    exact hnone layer (List.mem_flatMap.mpr ⟨g', hg', hlayer⟩)

end Layer

end Supercodex
