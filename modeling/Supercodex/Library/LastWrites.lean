import Mathlib.Data.List.Nodup
import Mathlib.Data.List.Induction

/-!
# Keys by their last write

A log of writes gives each key the value that was written to it last; some entries write nothing. The keys
whose last write was a given value can be kept in a list while the log grows: a write removes its key, and
puts it at the end if the value is the one looked for.
-/

namespace Supercodex.LastWrites

variable {α κ ν : Type} (key : α → κ) (value : α → Option ν)

/-- The last entry that writes `v` to `k` is the one at `i`. -/
structure LastAt (v : ν) (log : List α) (k : κ) (i : ℕ) : Prop where
  writes : ∃ a, log[i]? = some a ∧ key a = k ∧ value a = some v
  last : ∀ j a, i < j → log[j]? = some a → key a = k → value a ≠ some v

section

variable {key value} {v : ν} {log : List α} {a : α} {k : κ} {i : ℕ}

lemma LastAt.lt_length (h : LastAt key value v log k i) : i < log.length := by
  obtain ⟨a, ha, -⟩ := h.writes
  exact (List.getElem?_eq_some_iff.mp ha).1

/-- A further entry leaves the last write of `v` to a key, unless it is one itself. -/
lemma LastAt.concat (h : LastAt key value v log k i) (ha : key a = k → value a ≠ some v) :
    LastAt key value v (log ++ [a]) k i where
  writes := by
    obtain ⟨b, hb, hkey, hvalue⟩ := h.writes
    refine ⟨b, ?_, hkey, hvalue⟩
    rw [List.getElem?_append_left h.lt_length, hb]
  last := by
    intro j b hj hb
    by_cases hlt : j < log.length
    · rw [List.getElem?_append_left hlt] at hb
      exact h.last j b hj hb
    rw [List.getElem?_append_right (Nat.le_of_not_lt hlt), List.getElem?_singleton] at hb
    split at hb
    · cases hb
      exact ha
    · cases hb

lemma lastAt_concat_self (h : value a = some v) : LastAt key value v (log ++ [a]) (key a) log.length where
  writes := ⟨a, List.getElem?_concat_length, rfl, h⟩
  last := by
    intro j b hj hb
    have hlt := (List.getElem?_eq_some_iff.mp hb).1
    rw [List.length_append, List.length_singleton] at hlt
    omega

end

variable [DecidableEq κ]

/-- The value last written to a key. -/
def lastValue (log : List α) (k : κ) : Option ν := ((log.filter (key · = k)).filterMap value).getLast?

section

variable {key value} {w : ν} {log : List α} {a : α} {k : κ}

lemma lastValue_concat_of_ne (h : key a ≠ k) : lastValue key value (log ++ [a]) k = lastValue key value log k := by
  rw [lastValue, List.filter_append, List.filter_cons_of_neg (by simpa using h), List.filter_nil,
    List.append_nil]
  rfl

lemma lastValue_concat_of_none (h : value a = none) :
    lastValue key value (log ++ [a]) k = lastValue key value log k := by
  by_cases hk : key a = k
  · rw [lastValue, List.filter_append, List.filterMap_append, List.filter_cons_of_pos (by simpa using hk),
      List.filter_nil, List.filterMap_cons_none h, List.filterMap_nil, List.append_nil]
    rfl
  · exact lastValue_concat_of_ne hk

lemma lastValue_concat_self (h : value a = some w) : lastValue key value (log ++ [a]) (key a) = some w := by
  rw [lastValue, List.filter_append, List.filterMap_append, List.filter_cons_of_pos (by simp),
    List.filter_nil, List.filterMap_cons_some h, List.filterMap_nil, List.getLast?_concat]

end

variable [DecidableEq ν]

/-- One write, as the list of the keys with value `v` takes it. -/
def write (v : ν) (keys : List κ) (a : α) : List κ :=
  match value a with
  | none => keys
  | some w => if w = v then keys.filter (· ≠ key a) ++ [key a] else keys.filter (· ≠ key a)

/-- The keys whose last write was `v`. -/
def keysWith (v : ν) (log : List α) : List κ := log.foldl (write key value v) []

section

variable {key value} {v w : ν} {log : List α} {a : α} {k : κ}

lemma keysWith_concat : keysWith key value v (log ++ [a]) = write key value v (keysWith key value v log) a := by
  rw [keysWith, List.foldl_concat]
  rfl

/-- The keys that are kept are those whose last write was the value. -/
lemma mem_keysWith : k ∈ keysWith key value v log ↔ lastValue key value log k = some v := by
  induction log using List.reverseRecOn with
  | nil =>
    constructor
    · intro h
      cases h
    · intro h
      cases h
  | append_singleton log a ih =>
    rw [keysWith_concat, write]
    cases ha : value a with
    | none => rw [lastValue_concat_of_none ha, ih]
    | some w =>
      by_cases hk : key a = k
      · subst hk
        rw [lastValue_concat_self ha, Option.some.injEq]
        dsimp only
        split
        · rename_i hw
          simp [hw]
        · rename_i hw
          simp [hw]
      · rw [lastValue_concat_of_ne hk, ← ih]
        have hne : k ≠ key a := fun h => hk h.symm
        dsimp only
        split
        · simp [hne]
        · simp [hne]

lemma nodup_keysWith (v : ν) (log : List α) : (keysWith key value v log).Nodup := by
  induction log using List.reverseRecOn with
  | nil => exact List.nodup_nil
  | append_singleton log a ih =>
    rw [keysWith_concat, write]
    cases value a with
    | none => exact ih
    | some w =>
      have hfilter := ih.filter (fun k => decide (k ≠ key a))
      dsimp only
      split
      · rw [← List.concat_eq_append]
        apply hfilter.concat
        simp
      · exact hfilter

lemma disjoint_keysWith (h : v ≠ w) (log : List α) :
    (keysWith key value v log).Disjoint (keysWith key value w log) := by
  intro k hv hw
  rw [mem_keysWith] at hv hw
  rw [hv] at hw
  exact h (Option.some.inj hw)

lemma exists_lastAt (h : k ∈ keysWith key value v log) : ∃ i, LastAt key value v log k i := by
  induction log using List.reverseRecOn with
  | nil => cases h
  | append_singleton log a ih =>
    rw [mem_keysWith] at h
    by_cases ha : key a = k ∧ value a = some v
    · obtain ⟨rfl, hvalue⟩ := ha
      exact ⟨_, lastAt_concat_self hvalue⟩
    have hlog : lastValue key value log k = some v := by
      by_cases hk : key a = k
      · cases hvalue : value a with
        | none => rwa [lastValue_concat_of_none hvalue] at h
        | some w =>
          rw [← hk, lastValue_concat_self hvalue] at h
          exact absurd ⟨hk, hvalue.trans h⟩ ha
      · rwa [lastValue_concat_of_ne hk] at h
    obtain ⟨i, hi⟩ := ih (mem_keysWith.mpr hlog)
    exact ⟨i, hi.concat fun hk hvalue => ha ⟨hk, hvalue⟩⟩

/-- The keys are in the order of the last writes that put them there. -/
lemma pairwise_keysWith (v : ν) (log : List α) :
    (keysWith key value v log).Pairwise fun k l =>
      ∃ i j, LastAt key value v log k i ∧ LastAt key value v log l j ∧ i < j := by
  induction log using List.reverseRecOn with
  | nil => exact List.Pairwise.nil
  | append_singleton log a ih =>
    rw [keysWith_concat, write]
    cases ha : value a with
    | none =>
      have hkept : ∀ {k i}, LastAt key value v log k i → LastAt key value v (log ++ [a]) k i := by
        intro k i h
        apply h.concat
        rw [ha]
        exact fun _ h => nomatch h
      apply ih.imp
      rintro k l ⟨i, j, hk, hl, hlt⟩
      exact ⟨i, j, hkept hk, hkept hl, hlt⟩
    | some w =>
      -- the entry writes another key
      have hkept : ∀ {k i}, k ≠ key a → LastAt key value v log k i →
          LastAt key value v (log ++ [a]) k i := by
        intro k i hne h
        apply h.concat
        intro heq
        exact absurd heq.symm hne
      have hothers : ((keysWith key value v log).filter (· ≠ key a)).Pairwise fun k l =>
          ∃ i j, LastAt key value v (log ++ [a]) k i ∧ LastAt key value v (log ++ [a]) l j ∧ i < j := by
        apply (ih.filter _).imp_of_mem
        rintro k l hk hl ⟨i, j, hi, hj, hlt⟩
        rw [List.mem_filter, decide_eq_true_eq] at hk hl
        exact ⟨i, j, hkept hk.2 hi, hkept hl.2 hj, hlt⟩
      dsimp only
      split
      · rename_i hw
        rw [List.pairwise_append]
        refine ⟨hothers, List.pairwise_singleton _ _, ?_⟩
        intro k hk l hl
        rw [List.mem_singleton] at hl
        rw [List.mem_filter, decide_eq_true_eq] at hk
        obtain ⟨i, hi⟩ := exists_lastAt hk.1
        subst hl
        exact ⟨i, log.length, hkept hk.2 hi, lastAt_concat_self (by rw [ha, hw]), hi.lt_length⟩
      · exact hothers

end

end Supercodex.LastWrites
