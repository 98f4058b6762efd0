import Mathlib.Logic.Basic

/-!
# Computations that change a state and may fail

`EStateM` keeps the state of a computation that fails. `Keeps` is an invariant of every state in
which a computation may stop; what holds after a computation that returns is read off with
`bind_eq_ok`.
-/

namespace Supercodex.Effects

variable {ε ε' σ α β : Type}

/-- The state in which a computation stops, whether it returns or fails. -/
def final (m : EStateM ε σ α) (s : σ) : σ :=
  match m s with
  | .ok _ s' => s'
  | .error _ s' => s'

/-- The invariant holds in every state in which the computation stops. -/
def Keeps (I : σ → Prop) (m : EStateM ε σ α) : Prop := ∀ s, I s → I (final m s)

lemma final_bind (m : EStateM ε σ α) (f : α → EStateM ε σ β) (s : σ) :
    final (m >>= f) s =
      match m s with
      | .ok a s' => final (f a) s'
      | .error _ s' => s' := by
  show (match (match m s with
      | .ok a s' => f a s'
      | .error e s' => .error e s' : EStateM.Result ε σ β) with
    | .ok _ s' => s'
    | .error _ s' => s') = _
  cases m s <;> rfl

variable {m : EStateM ε σ α} {I : σ → Prop}

lemma Keeps.bind {f : α → EStateM ε σ β} (hm : Keeps I m)
    (hf : ∀ a, Keeps I (f a)) : Keeps I (m >>= f) := by
  intro s hs
  have hfinal := hm s hs
  rw [final_bind]
  unfold final at hfinal
  cases hr : m s with
  | ok a s' =>
    rw [hr] at hfinal
    exact hf a s' hfinal
  | error e s' =>
    rw [hr] at hfinal
    exact hfinal

lemma Keeps.pure (a : α) : Keeps I (Pure.pure a : EStateM ε σ α) :=
  fun _ hs => hs

lemma Keeps.throw (e : ε) : Keeps I (throw e : EStateM ε σ α) :=
  fun _ hs => hs

lemma Keeps.get_bind {f : σ → EStateM ε σ β}
    (h : ∀ s, I s → I (final (f s) s)) : Keeps I (get >>= f) :=
  fun s hs => h s hs

/-- The error of a failing computation, in another form. -/
def mapError (f : ε → ε') (m : EStateM ε σ α) : EStateM ε' σ α := fun s =>
  match m s with
  | .ok a s' => .ok a s'
  | .error e s' => .error (f e) s'

lemma final_mapError (f : ε → ε') (m : EStateM ε σ α) (s : σ) :
    final (mapError f m) s = final m s := by
  unfold final mapError
  cases m s <;> rfl

lemma Keeps.mapError (h : Keeps I m) (f : ε → ε') :
    Keeps I (mapError f m) := by
  intro s hs
  rw [final_mapError]
  exact h s hs

lemma mapError_eq_ok {f : ε → ε'} {s s' : σ} {a : α}
    (h : mapError f m s = .ok a s') : m s = .ok a s' := by
  unfold mapError at h
  cases hr : m s with
  | ok b t =>
    rw [hr] at h
    cases h
    rfl
  | error e t =>
    rw [hr] at h
    cases h

/-- The result of a pure computation. -/
def fromExcept (x : Except ε α) : EStateM ε σ α :=
  match x with
  | .ok a => Pure.pure a
  | .error e => throw e

lemma Keeps.fromExcept (x : Except ε α) : Keeps I (fromExcept x) := by
  cases x with
  | ok a => exact Keeps.pure a
  | error e => exact Keeps.throw e

variable {x : Except ε α}

lemma fromExcept_eq_ok {s s' : σ} {a : α} (h : fromExcept x s = .ok a s') :
    x = .ok a ∧ s' = s := by
  cases x with
  | ok b =>
    cases h
    exact ⟨rfl, rfl⟩
  | error e => cases h

lemma bind_eq_ok {f : α → EStateM ε σ β} {s s'' : σ} {b : β}
    (h : (m >>= f) s = .ok b s'') : ∃ a s', m s = .ok a s' ∧ f a s' = .ok b s'' := by
  have hb : (m >>= f) s = (match m s with
      | .ok a s' => f a s'
      | .error e s' => .error e s' : EStateM.Result ε σ β) := rfl
  rw [hb] at h
  cases hr : m s with
  | ok a s' =>
    rw [hr] at h
    exact ⟨a, s', rfl, h⟩
  | error e s' =>
    rw [hr] at h
    cases h

lemma run_get_bind (f : σ → EStateM ε σ β) (s : σ) : (get >>= f : EStateM ε σ β) s = f s s := rfl

lemma final_of_ok {s s' : σ} {a : α} (h : m s = .ok a s') :
    final m s = s' := by
  unfold final
  rw [h]

/-! ## Computations that only fail -/

lemma except_bind_eq_ok {f : α → Except ε β} {b : β} :
    (x >>= f) = .ok b ↔ ∃ a, x = .ok a ∧ f a = .ok b := by
  cases x <;> simp [bind, Except.bind]

lemma bind_eq_some {o : Option α} {f : α → Option β} {b : β} : (o >>= f) = some b ↔ ∃ a, o = some a ∧ f a = some b :=
  Option.bind_eq_some_iff

lemma except_mapError_eq_ok {f : ε → ε'} {a : α} :
    x.mapError f = .ok a ↔ x = .ok a := by
  cases x with
  | error err => exact ⟨fun h => (by cases h), fun h => (by cases h)⟩
  | ok b => constructor <;> (intro h; cases h; rfl)

end Supercodex.Effects
