import Mathlib.Logic.Function.Basic

/-!
# Versions kept in three places

Values belong to keys and newer values replace older ones. The active value is kept in a store and in
a cache, and a table saves one value for each key. The changes below are the ways in which such
places are brought in line with each other, each with what it needs so that no newest value is lost.
-/

namespace Supercodex

/-- The newest value of each key, and what the three places hold. -/
structure Places (K V : Type) where
  newest : K → Option V
  active : Option V
  cached : Option V
  saved : K → Option V

namespace Places

variable {K V : Type} (key : V → Option K)

/-- The key of the active value. -/
def activeKey (p : Places K V) : Option K := p.active.bind key

/-- No other value of the active key is cached. -/
def CacheCurrent (p : Places K V) : Prop :=
  ∀ v k, p.cached = some v → key v = some k → p.activeKey key = some k → p.active = some v

/-- No other value of the active key is saved. -/
def SavedCurrent (p : Places K V) : Prop :=
  ∀ v k, p.saved k = some v → p.activeKey key = some k → p.active = some v

/-- The active value is the one that the cache and the table have for its key, if they have any. -/
def Settled (p : Places K V) : Prop := p.CacheCurrent key ∧ p.SavedCurrent key

/-- A value that becomes the active one drops no value that is kept nowhere else. -/
def MayReplace (p : Places K V) (v : V) : Prop := key v = p.activeKey key ∨ p.Settled key

/-- The active value is the newest of its key, and so is every other value, but for values of the
active key. -/
structure Fresh (p : Places K V) : Prop where
  keyed : ∀ k v, p.saved k = some v → key v = some k
  active : ∀ v k, p.active = some v → key v = some k → p.newest k = some v
  cached : ∀ v k, p.cached = some v → key v = some k →
    p.newest k = some v ∨ p.activeKey key = some k
  saved : ∀ k v, p.saved k = some v → p.newest k = some v ∨ p.activeKey key = some k

variable {key} {p p' : Places K V}

/-- It suffices that the cache and the table hold the active value where they hold one. -/
lemma settled_of_eq {k : K} (hkey : p.activeKey key = some k)
    (hcached : p.cached = none ∨ p.cached = p.active)
    (hsaved : p.saved k = none ∨ p.saved k = p.active) : p.Settled key := by
  constructor
  · intro v _ hv _ _
    rcases hcached with h | h
    · exact absurd (hv.symm.trans h) (by simp)
    · exact h.symm.trans hv
  · intro v k' hv hk'
    cases hkey.symm.trans hk'
    rcases hsaved with h | h
    · exact absurd (hv.symm.trans h) (by simp)
    · exact h.symm.trans hv

namespace Fresh

lemma saved_newest (h : p.Fresh key) (hsettled : p.SavedCurrent key) {k : K} {v : V}
    (hsaved : p.saved k = some v) : p.newest k = some v := by
  rcases h.saved k v hsaved with hnewest | hactive
  · exact hnewest
  · exact h.active v k (hsettled v k hsaved hactive) (h.keyed k v hsaved)

lemma cached_newest (h : p.Fresh key) (hcurrent : p.CacheCurrent key) {k : K} {v : V}
    (hcached : p.cached = some v) (hkey : key v = some k) : p.newest k = some v := by
  rcases h.cached v k hcached hkey with hnewest | hactive
  · exact hnewest
  · exact h.active v k (hcurrent v k hcached hkey hactive) hkey

lemma loaded (h : p.Fresh key) {cached : Option V} (hcached : cached = none ∨ cached = p.active) :
    ({ p with cached := cached } : Places K V).Fresh key where
  keyed := h.keyed
  active := h.active
  cached := by
    intro v k hv hk
    rcases hcached with rfl | rfl
    · cases hv
    · exact .inl (h.active v k hv hk)
  saved := h.saved

lemma restored (h : p.Fresh key) {k : K} {v : V} (hsaved : p.saved k = some v)
    (hsettled : p.Settled key) : ({ p with active := some v } : Places K V).Fresh key where
  keyed := h.keyed
  active := by
    intro w k' hw hk'
    cases hw
    have hk : k' = k := by
      have := hk'.symm.trans (h.keyed k v hsaved)
      simpa using this
    rw [hk]
    exact h.saved_newest hsettled.2 hsaved
  cached := fun w k' hw hk' => .inl (h.cached_newest hsettled.1 hw hk')
  saved := fun k' w hw => .inl (h.saved_newest hsettled.2 hw)

end Fresh

/-! ## Changes -/

variable [DecidableEq K]

variable (key) in
/-- The newest values after a value was obtained. -/
def newestWith (p : Places K V) (v : V) : K → Option V :=
  fun k => if key v = some k then some v else p.newest k

variable (key) in
/-- The changes that keep the newest values. -/
inductive Change (p : Places K V) : Places K V → Prop where
  | same : Change p p
  | obtained (v : V) (h : p.MayReplace key v) :
      Change p { p with newest := p.newestWith key v, active := some v }
  | restored {k : K} {v : V} (hsaved : p.saved k = some v) (h : p.Settled key) :
      Change p { p with active := some v }
  | loaded {cached : Option V} (h : cached = none ∨ cached = p.active) :
      Change p { p with cached := cached }
  | mirrored {k : K} {v : V} (hcached : p.cached = some v) (hkey : key v = some k)
      (h : p.CacheCurrent key) : Change p { p with saved := Function.update p.saved k (some v) }
  | stored {k : K} {v : V} (hactive : p.active = some v) (hkey : key v = some k) :
      Change p { p with saved := Function.update p.saved k (some v) }
  | dropped (k : K) : Change p { p with saved := Function.update p.saved k none }

namespace Fresh

section

variable (h : p.Fresh key)
include h

lemma save {k : K} {v : V} (hkey : key v = some k)
    (hnewest : p.newest k = some v) :
    ({ p with saved := Function.update p.saved k (some v) } : Places K V).Fresh key where
  keyed := by
    intro k' v' hsaved
    by_cases hk : k' = k
    · subst hk
      have hv : v = v' := by simpa using hsaved
      exact hv ▸ hkey
    · exact h.keyed k' v' (by simpa [hk] using hsaved)
  active := h.active
  cached := h.cached
  saved := by
    intro k' v' hsaved
    by_cases hk : k' = k
    · subst hk
      have hv : v = v' := by simpa using hsaved
      exact .inl (hv ▸ hnewest)
    · exact h.saved k' v' (by simpa [hk] using hsaved)

lemma obtained {v : V} (hv : p.MayReplace key v) :
    ({ p with newest := p.newestWith key v, active := some v } : Places K V).Fresh key := by
  -- what was the newest of another key still is
  have hold {k : K} {w : V} (hne : key v ≠ some k) (hw : p.newest k = some w) :
      p.newestWith key v k = some w := by
    unfold newestWith
    rw [if_neg hne, hw]
  have hself {k : K} (hk : key v = some k) : p.newestWith key v k = some v := if_pos hk
  refine ⟨h.keyed, ?_, ?_, ?_⟩
  · intro w k hw hk
    cases hw
    exact hself hk
  · intro w k hw hk
    by_cases hv' : key v = some k
    · exact .inr hv'
    refine .inl (hold hv' ?_)
    rcases hv with hsame | hsettled
    · exact (h.cached w k hw hk).resolve_right (hsame ▸ hv')
    · exact h.cached_newest hsettled.1 hw hk
  · intro k w hw
    by_cases hv' : key v = some k
    · exact .inr hv'
    refine .inl (hold hv' ?_)
    rcases hv with hsame | hsettled
    · exact (h.saved k w hw).resolve_right (hsame ▸ hv')
    · exact h.saved_newest hsettled.2 hw

lemma dropped (k : K) :
    ({ p with saved := Function.update p.saved k none } : Places K V).Fresh key := by
  have hsaved {k' : K} {v : V} (hv : Function.update p.saved k none k' = some v) :
      p.saved k' = some v := by
    by_cases hk : k' = k
    · simp [hk] at hv
    · simpa [hk] using hv
  exact ⟨fun k' v hv => h.keyed k' v (hsaved hv), h.active, h.cached,
    fun k' v hv => h.saved k' v (hsaved hv)⟩

/-- Fresh places stay fresh. -/
theorem change (hchange : p.Change key p') : p'.Fresh key := by
  cases hchange with
  | same => exact h
  | obtained v hv => exact h.obtained hv
  | restored hsaved hsettled => exact h.restored hsaved hsettled
  | loaded hcached => exact h.loaded hcached
  | mirrored hcached hkey hcurrent => exact h.save hkey (h.cached_newest hcurrent hcached hkey)
  | stored hactive hkey => exact h.save hkey (h.active _ _ hactive hkey)
  | dropped k => exact h.dropped k

/-- A saved value is only ever overwritten with the newest one of its key. -/
theorem saved_of_change (hchange : p.Change key p') {k : K} {v : V}
    (hv : p'.saved k = some v) : p.saved k = some v ∨ p'.newest k = some v := by
  have hupdate {k' : K} {w : V} (hw : p.newest k' = some w)
      (hv : Function.update p.saved k' (some w) k = some v) :
      p.saved k = some v ∨ p.newest k = some v := by
    by_cases hk : k = k'
    · subst hk
      have hwv : w = v := by simpa using hv
      exact .inr (hwv ▸ hw)
    · exact .inl (by simpa [hk] using hv)
  cases hchange with
  | same | obtained w hw | restored hsaved hsettled | loaded hcached => exact .inl hv
  | mirrored hcached hkey hcurrent => exact hupdate (h.cached_newest hcurrent hcached hkey) hv
  | stored hactive hkey => exact hupdate (h.active _ _ hactive hkey) hv
  | dropped k' =>
    by_cases hk : k = k'
    · simp [hk] at hv
    · exact .inl (by simpa [hk] using hv)

end

end Fresh

end Places

end Supercodex
