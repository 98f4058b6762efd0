import Mathlib.Data.List.Basic
import Mathlib.Data.List.Induction

/-!
# Runs of labelled transition systems

A run is the list of its transitions, oldest first. The rules below carry an invariant along the runs
whose transitions meet a condition, and give back what the invariant says of every transition taken.
-/

namespace Supercodex.Runs

/-- One step that was taken: the states before and after it, and its label. -/
structure Transition (S L : Type) where
  before : S
  label : L
  after : S

variable {S L : Type}

/-- The runs from a state, with their transitions. -/
inductive Run (step : S → L → S → Prop) (init : S) : List (Transition S L) → S → Prop where
  | nil : Run step init [] init
  | snoc {ts : List (Transition S L)} {s s' : S} {l : L} (run : Run step init ts s)
      (taken : step s l s') : Run step init (ts ++ [⟨s, l, s'⟩]) s'

variable {step : S → L → S → Prop} {init s : S} {ts : List (Transition S L)}

lemma Run.next {s' : S} (run : Run step init ts s) (l : L) (taken : step s l s') :
    Run step init (ts ++ [⟨s, l, s'⟩]) s' :=
  run.snoc taken

/-- An invariant that the steps under a condition keep holds after a run of such steps, and before
each of them. -/
theorem Run.invariant {Inv : S → Prop} (Ok : S → L → Prop) (run : Run step init ts s)
    (hok : ∀ t ∈ ts, Ok t.before t.label) (hinit : Inv init)
    (hstep : ∀ s l s', Inv s → Ok s l → step s l s' → Inv s') :
    Inv s ∧ ∀ t ∈ ts, Inv t.before ∧ step t.before t.label t.after := by
  induction run with
  | nil => exact ⟨hinit, by simp⟩
  | @snoc ts s s' l run taken ih =>
    obtain ⟨hs, hts⟩ := ih fun t ht => hok t (List.mem_append_left _ ht)
    have hlast : Ok s l := hok ⟨s, l, s'⟩ (by simp)
    refine ⟨hstep s l s' hs hlast taken, fun t ht => ?_⟩
    rcases List.mem_append.mp ht with ht | ht
    · exact hts t ht
    · rw [List.mem_singleton.mp ht]
      exact ⟨hs, taken⟩

/-- A run may be cut between two steps. -/
theorem Run.split {ts ts' : List (Transition S L)} (run : Run step init (ts ++ ts') s) :
    ∃ mid, Run step init ts mid ∧ Run step mid ts' s := by
  induction ts' using List.reverseRecOn generalizing s with
  | nil =>
    rw [List.append_nil] at run
    exact ⟨s, run, .nil⟩
  | append_singleton ts' t ih =>
    rw [← List.append_assoc] at run
    generalize hlist : ts ++ ts' ++ [t] = all at run
    cases run with
    | nil => simp at hlist
    | @snoc before mid s l run taken =>
      obtain ⟨hbefore, hlast⟩ := List.append_inj' hlist rfl
      rw [← hbefore] at run
      obtain ⟨cut, hfirst, hsecond⟩ := ih run
      rw [hlast]
      exact ⟨cut, hfirst, hsecond.snoc taken⟩

lemma Run.last {t : Transition S L} (run : Run step init (ts ++ [t]) s) : t.after = s := by
  generalize hlist : ts ++ [t] = all at run
  cases run with
  | nil => simp at hlist
  | snoc run taken =>
    obtain ⟨-, hlast⟩ := List.append_inj' hlist rfl
    rw [List.singleton_inj.mp hlast]

lemma Run.eq_of_nil (run : Run step init [] s) : s = init := by
  generalize hlist : ([] : List (Transition S L)) = all at run
  cases run with
  | nil => rfl
  | snoc run taken => simp at hlist

lemma Run.single {t : Transition S L} (run : Run step init [t] s) :
    t.before = init ∧ step init t.label t.after := by
  generalize hlist : [t] = all at run
  cases run with
  | nil => simp at hlist
  | @snoc ts mid s l run taken =>
    have hlist : [] ++ [t] = ts ++ [_] := hlist
    obtain ⟨hnil, hlast⟩ := List.append_inj' hlist rfl
    rw [← hnil] at run
    rw [List.singleton_inj.mp hlast]
    have hmid := run.eq_of_nil
    subst hmid
    exact ⟨rfl, taken⟩

/-- A run whose steps all meet a condition. -/
def RunWhere (step : S → L → S → Prop) (Ok : S → L → Prop) (init : S) (ts : List (Transition S L))
    (s : S) : Prop :=
  Run step init ts s ∧ ∀ t ∈ ts, Ok t.before t.label

namespace RunWhere

variable {Ok : S → L → Prop}

lemma nil : RunWhere step Ok init [] init := ⟨.nil, by simp⟩

lemma snoc {s' : S} {l : L} (h : RunWhere step Ok init ts s) (hok : Ok s l) (taken : step s l s') :
    RunWhere step Ok init (ts ++ [⟨s, l, s'⟩]) s' := by
  refine ⟨h.1.snoc taken, ?_⟩
  intro t ht
  rcases List.mem_append.mp ht with ht | ht
  · exact h.2 t ht
  · rw [List.mem_singleton.mp ht]
    exact hok

lemma next {s' : S} (h : RunWhere step Ok init ts s) (l : L) (hok : Ok s l) (taken : step s l s') :
    RunWhere step Ok init (ts ++ [⟨s, l, s'⟩]) s' :=
  h.snoc hok taken

end RunWhere

/-! ## Executable systems -/

/-- The transitions that some labels take from a state, and where they lead. -/
def take (next : S → L → Option S) : S → List L → Option (List (Transition S L) × S)
  | s, [] => some ([], s)
  | s, l :: labels => do
    let s' ← next s l
    let (ts, last) ← take next s' labels
    some (⟨s, l, s'⟩ :: ts, last)

/-- What an executable system takes is a run. -/
theorem Run.take {next : S → L → Option S} {labels : List L} {mid : S} {ts' : List (Transition S L)}
    (run : Run (fun s l s' => next s l = some s') init ts mid)
    (h : Runs.take next mid labels = some (ts', s)) :
    Run (fun s l s' => next s l = some s') init (ts ++ ts') s := by
  induction labels generalizing ts mid ts' with
  | nil =>
    cases h
    rwa [List.append_nil]
  | cons l labels ih =>
    simp only [Runs.take, Option.bind_eq_bind, Option.bind_eq_some_iff] at h
    obtain ⟨next', hnext, ⟨rest, last⟩, hrest, h⟩ := h
    cases h
    have hrun := ih (run.snoc hnext) hrest
    rwa [List.append_assoc] at hrun

end Supercodex.Runs
