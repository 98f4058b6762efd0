import Mathlib.Data.List.Basic

/-!
# Joining neighbours of a list

A partial operation says which two neighbours make one element. Joining all neighbours from the right
gives a normal form of a list that does not depend on where it was cut or joined before.
-/

namespace Supercodex.Coalesce

variable {α β : Type}

/-- Put an element in front of a list whose neighbours are joined. -/
def joinFront (join : α → α → Option α) (a : α) : List α → List α
  | [] => [a]
  | b :: bs =>
    match join a b with
    | some c => c :: bs
    | none => a :: b :: bs

/-- Put an element behind a list, joined with the last one. -/
def joinBack (join : α → α → Option α) (as : List α) (b : α) : List α :=
  match as.getLast? with
  | none => [b]
  | some a =>
    match join a b with
    | some c => as.dropLast ++ [c]
    | none => as ++ [b]

/-- A list put in front of another one, element by element. -/
def joinAll (join : α → α → Option α) (as bs : List α) : List α := as.foldr (joinFront join) bs

/-- A list with its neighbours joined. -/
def coalesce (join : α → α → Option α) (as : List α) : List α := joinAll join as []

/-- What makes the order of the joins irrelevant. -/
structure Assoc (join : α → α → Option α) : Prop where
  bind_eq : ∀ {a b c}, join a b = some c → ∀ d, (join b d).bind (join a) = join c d
  isSome : ∀ {a b c}, join a b = some c → ∀ d, (join b d).isSome → (join c d).isSome

variable {join : α → α → Option α}

@[simp] lemma joinAll_nil (bs : List α) : joinAll join [] bs = bs := rfl

@[simp] lemma joinAll_cons (a : α) (as bs : List α) :
    joinAll join (a :: as) bs = joinFront join a (joinAll join as bs) := rfl

@[simp] lemma joinAll_append (as bs cs : List α) :
    joinAll join (as ++ bs) cs = joinAll join as (joinAll join bs cs) :=
  List.foldr_append

lemma joinFront_joinFront (hassoc : Assoc join) {a b c : α} (h : join a b = some c) (ds : List α) :
    joinFront join a (joinFront join b ds) = joinFront join c ds := by
  cases ds with
  | nil => simp only [joinFront, h]
  | cons d ds =>
    have hbind := hassoc.bind_eq h d
    have hsome := hassoc.isSome h d
    cases hbd : join b d with
    | none =>
      rw [hbd, Option.bind_none] at hbind
      simp only [joinFront, hbd, h, ← hbind]
    | some e =>
      rw [hbd, Option.bind_some] at hbind
      rw [hbd] at hsome
      obtain ⟨f, hf⟩ := Option.isSome_iff_exists.mp (hsome rfl)
      simp only [joinFront, hbd, hbind, hf]

lemma joinAll_joinBack (hassoc : Assoc join) (as : List α) (b : α) (ds : List α) :
    joinAll join (joinBack join as b) ds = joinAll join as (joinFront join b ds) := by
  rcases List.eq_nil_or_concat as with rfl | ⟨as, a, rfl⟩
  · rfl
  unfold joinBack
  rw [List.concat_eq_append, List.getLast?_concat, List.dropLast_concat]
  cases h : join a b with
  | none => simp only [h, joinAll_append, joinAll_cons, joinAll_nil]
  | some c =>
    simp only [h, joinAll_append, joinAll_cons, joinAll_nil]
    rw [joinFront_joinFront hassoc h]

lemma joinAll_map {join' : β → β → Option β} {f : α → β}
    (hf : ∀ a b, join' (f a) (f b) = (join a b).map f) (as bs : List α) :
    joinAll join' (as.map f) (bs.map f) = (joinAll join as bs).map f := by
  induction as with
  | nil => rfl
  | cons a as ih =>
    rw [List.map_cons, joinAll_cons, joinAll_cons, ih]
    cases joinAll join as bs with
    | nil => rfl
    | cons b bs =>
      simp only [List.map_cons, joinFront, hf]
      cases join a b <;> rfl

lemma flatMap_joinAll {f : α → List β} (hf : ∀ a b c, join a b = some c → f c = f a ++ f b)
    (as bs : List α) : (joinAll join as bs).flatMap f = as.flatMap f ++ bs.flatMap f := by
  induction as with
  | nil => rfl
  | cons a as ih =>
    rw [joinAll_cons, List.flatMap_cons, List.append_assoc, ← ih]
    cases joinAll join as bs with
    | nil => rfl
    | cons b bs =>
      cases h : join a b with
      | none => simp only [joinFront, h, List.flatMap_cons]
      | some c => simp only [joinFront, h, List.flatMap_cons, hf a b c h, List.append_assoc]

end Supercodex.Coalesce
