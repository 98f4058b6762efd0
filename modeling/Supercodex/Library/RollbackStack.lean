import Mathlib.Data.List.Basic

/-!
# Stacks with rollback

Elements are pushed on a stack; some of them count. A rollback pops the newest counted elements, each
with everything above it. The same stack can be read off the events from the newest to the oldest,
with a counter of the counted elements that are still to be skipped. The two agree up to uncounted
elements at the bottom, also when the counter saturates.

Stacks are lists with the newest element first.
-/

namespace Supercodex.RollbackStack

variable {α : Type} (counts : α → Bool)

/-- What happens to a stack. -/
inductive Event (α : Type) where
  | push (a : α)
  | rollback (n : ℕ)

lemma length_le_length_flatMap {β : Type} {f : α → List β} (h : ∀ a, f a ≠ []) (l : List α) :
    l.length ≤ (l.flatMap f).length := by
  induction l with
  | nil => exact Nat.le_refl 0
  | cons a l ih =>
    have := List.length_pos_iff.mpr (h a)
    rw [List.flatMap_cons, List.length_append, List.length_cons]
    omega

/-! ## Forward -/

/-- The stack below its newest counted element, if it has one. -/
def belowCounted : List α → Option (List α)
  | [] => none
  | a :: stack => if counts a then some stack else belowCounted stack

/-- The stack without its newest counted element and everything above it. -/
def popCounted (stack : List α) : List α := (belowCounted counts stack).getD stack

/-- The stack after a number of pops. -/
def popN : ℕ → List α → List α
  | 0, stack => stack
  | n + 1, stack => popN n (popCounted counts stack)

/-- The stack after an event. -/
def apply (stack : List α) : Event α → List α
  | .push a => a :: stack
  | .rollback n => popN counts n stack

/-- The stack after all events, oldest first. -/
def forward (events : List (Event α)) : List α := events.foldl (apply counts) []

/-! ## Backward -/

/-- What a scan from the newest event has found: how many counted elements are still to be skipped,
and the elements it has kept, newest first. -/
structure Scan (α : Type) where
  pending : ℕ
  kept : List α

/-- What the scan does at an event; its counter saturates at the limit. -/
def Scan.step (limit : ℕ) (s : Scan α) : Event α → Scan α
  | .rollback n => { s with pending := min (s.pending + n) limit }
  | .push a =>
    if 0 < s.pending then
      if counts a then { s with pending := s.pending - 1 } else s
    else { s with kept := s.kept ++ [a] }

/-- The scan of all events. -/
def scan (limit : ℕ) : List (Event α) → Scan α
  | [] => ⟨0, []⟩
  | event :: newer => (scan limit newer).step counts limit event

/-! ## They agree -/

/-- The stack without its newest counted elements; all of it if it has too few. -/
def skip : ℕ → List α → List α
  | 0, stack => stack
  | _ + 1, [] => []
  | n + 1, a :: stack => if counts a then skip n stack else skip (n + 1) stack

@[simp] lemma skip_nil (n : ℕ) : skip counts n [] = [] := by
  cases n <;> rfl

@[simp] lemma skip_zero (stack : List α) : skip counts 0 stack = stack := by
  cases stack <;> rfl

lemma skip_add (n m : ℕ) (stack : List α) :
    skip counts n (skip counts m stack) = skip counts (n + m) stack := by
  induction stack generalizing m with
  | nil => rw [skip_nil, skip_nil, skip_nil]
  | cons a stack ih =>
    cases m with
    | zero => rw [skip_zero, Nat.add_zero]
    | succ m =>
      show skip counts n (if counts a then skip counts m stack else skip counts (m + 1) stack) =
        if counts a then skip counts (n + m) stack else skip counts (n + m + 1) stack
      split
      · exact ih m
      · exact ih (m + 1)

/-- The scan without a limit to its counter. -/
def Scan.exactStep (s : Scan α) : Event α → Scan α
  | .rollback n => { s with pending := s.pending + n }
  | .push a =>
    if 0 < s.pending then
      if counts a then { s with pending := s.pending - 1 } else s
    else { s with kept := s.kept ++ [a] }

/-- The scan of all events without a limit. -/
def exactScan : List (Event α) → Scan α
  | [] => ⟨0, []⟩
  | event :: newer => (exactScan newer).exactStep counts event

/-- The stack after an event, with everything popped by a rollback that asks for too much. -/
def skipApply (stack : List α) : Event α → List α
  | .push a => a :: stack
  | .rollback n => skip counts n stack

/-- Above any stack, the events leave what the scan keeps, over what the pending skips leave. -/
lemma foldl_skipApply (events : List (Event α)) (stack : List α) :
    events.foldl (skipApply counts) stack =
      (exactScan counts events).kept ++ skip counts (exactScan counts events).pending stack := by
  induction events generalizing stack with
  | nil =>
    show stack = [] ++ skip counts 0 stack
    rw [skip_zero, List.nil_append]
  | cons event newer ih =>
    rw [List.foldl_cons, ih]
    cases event with
    | rollback n =>
      show (exactScan counts newer).kept ++ skip counts _ (skip counts n stack) =
        (exactScan counts newer).kept ++ skip counts (_ + n) stack
      rw [skip_add]
    | push a =>
      show _ ++ skip counts (exactScan counts newer).pending (a :: stack) =
        ((exactScan counts newer).exactStep counts (.push a)).kept ++
          skip counts ((exactScan counts newer).exactStep counts (.push a)).pending stack
      cases hpending : (exactScan counts newer).pending with
      | zero =>
        rw [Scan.exactStep, hpending, if_neg (Nat.lt_irrefl 0), List.append_assoc]
        rw [skip_zero, skip_zero]
        rfl
      | succ n =>
        rw [Scan.exactStep, hpending, if_pos (Nat.succ_pos n)]
        cases hcounts : counts a with
        | true =>
          rw [if_pos rfl, skip, if_pos hcounts]
          rfl
        | false =>
          rw [if_neg Bool.false_ne_true, skip, if_neg (by rw [hcounts]; exact Bool.false_ne_true),
            hpending]

/-- The first stack is the second one over uncounted elements. -/
def Covers (stack stack' : List α) : Prop :=
  ∃ rest, stack = stack' ++ rest ∧ ∀ a ∈ rest, counts a = false

variable {counts}

lemma belowCounted_eq_none {stack : List α} (h : ∀ a ∈ stack, counts a = false) :
    belowCounted counts stack = none := by
  induction stack with
  | nil => rfl
  | cons a stack ih =>
    rw [belowCounted, if_neg (by rw [h a List.mem_cons_self]; exact Bool.false_ne_true)]
    exact ih fun b hb => h b (List.mem_cons_of_mem a hb)

lemma belowCounted_append (stack : List α) {rest : List α} (h : ∀ a ∈ rest, counts a = false) :
    belowCounted counts (stack ++ rest) = some (skip counts 1 stack ++ rest) ∨
      belowCounted counts (stack ++ rest) = none ∧ skip counts 1 stack = [] ∧
        ∀ a ∈ stack, counts a = false := by
  induction stack with
  | nil => exact .inr ⟨belowCounted_eq_none h, rfl, by simp⟩
  | cons a stack ih =>
    rw [List.cons_append, belowCounted, skip]
    cases hcounts : counts a with
    | true =>
      rw [if_pos rfl, if_pos rfl, skip_zero]
      exact .inl rfl
    | false =>
      rw [if_neg Bool.false_ne_true, if_neg Bool.false_ne_true]
      rcases ih with hsome | ⟨hnone, hskip, hall⟩
      · exact .inl hsome
      refine .inr ⟨hnone, hskip, ?_⟩
      intro b hb
      rcases List.mem_cons.mp hb with rfl | hb
      · exact hcounts
      · exact hall b hb

variable {stack stack' : List α}

section

variable (h : Covers counts stack stack')
include h

lemma Covers.popCounted :
    Covers counts (popCounted counts stack) (skip counts 1 stack') := by
  obtain ⟨rest, rfl, hrest⟩ := h
  unfold RollbackStack.popCounted
  rcases belowCounted_append stack' hrest with hsome | ⟨hnone, hskip, hall⟩
  · rw [hsome]
    exact ⟨rest, rfl, hrest⟩
  rw [hnone, hskip]
  refine ⟨stack' ++ rest, rfl, ?_⟩
  intro a ha
  rcases List.mem_append.mp ha with ha | ha
  · exact hall a ha
  · exact hrest a ha

lemma Covers.popN (n : ℕ) :
    Covers counts (popN counts n stack) (skip counts n stack') := by
  induction n generalizing stack stack' with
  | zero =>
    rw [skip_zero]
    exact h
  | succ n ih =>
    rw [← skip_add]
    exact ih h.popCounted

lemma Covers.foldl (events : List (Event α)) :
    Covers counts (events.foldl (apply counts) stack) (events.foldl (skipApply counts) stack') := by
  induction events generalizing stack stack' with
  | nil => exact h
  | cons event newer ih =>
    refine ih ?_
    cases event with
    | push a =>
      obtain ⟨rest, rfl, hrest⟩ := h
      exact ⟨rest, rfl, hrest⟩
    | rollback n => exact h.popN n

end

/-- A saturated counter and an exact one differ only where both exceed what is left to skip. -/
lemma scan_eq_exactScan {limit : ℕ} (events : List (Event α)) (older : ℕ)
    (h : events.length + older ≤ limit) :
    (scan counts limit events).kept = (exactScan counts events).kept ∧
      ((scan counts limit events).pending = (exactScan counts events).pending ∨
        older ≤ (scan counts limit events).pending ∧
          older ≤ (exactScan counts events).pending) := by
  induction events generalizing older with
  | nil => exact ⟨rfl, .inl rfl⟩
  | cons event newer ih =>
    rw [List.length_cons] at h
    obtain ⟨hkept, hpending⟩ := ih (older + 1) (by omega)
    rw [scan, exactScan]
    cases event with
    | rollback n =>
      refine ⟨hkept, ?_⟩
      show min ((scan counts limit newer).pending + n) limit =
          (exactScan counts newer).pending + n ∨
        older ≤ min ((scan counts limit newer).pending + n) limit ∧
          older ≤ (exactScan counts newer).pending + n
      omega
    | push a =>
      rw [Scan.step, Scan.exactStep]
      by_cases hzero : 0 < (exactScan counts newer).pending
      · rw [if_pos hzero, if_pos (by omega)]
        split
        · refine ⟨hkept, ?_⟩
          show (scan counts limit newer).pending - 1 = (exactScan counts newer).pending - 1 ∨
            older ≤ (scan counts limit newer).pending - 1 ∧
              older ≤ (exactScan counts newer).pending - 1
          omega
        · exact ⟨hkept, by omega⟩
      · rw [if_neg hzero, if_neg (by omega)]
        dsimp only
        refine ⟨?_, by omega⟩
        rw [hkept]

/-- The scan finds the stack, up to uncounted elements at its bottom. -/
theorem covers_scan {limit : ℕ} {events : List (Event α)} (h : events.length ≤ limit) :
    Covers counts (forward counts events) (scan counts limit events).kept := by
  have hempty : Covers counts ([] : List α) [] := ⟨[], rfl, by simp⟩
  have hcovers : Covers counts (forward counts events) (events.foldl (skipApply counts) []) :=
    hempty.foldl events
  rw [foldl_skipApply, skip_nil, List.append_nil] at hcovers
  rw [(scan_eq_exactScan events 0 h).1]
  exact hcovers

/-! ## Counting -/

/-- How many elements the rollbacks ask to drop. -/
def asked : List (Event α) → ℕ
  | [] => 0
  | .push _ :: events => asked events
  | .rollback n :: events => n + asked events

/-- How many counted elements are pushed. -/
def pushed (counts : α → Bool) : List (Event α) → ℕ
  | [] => 0
  | .push a :: events => (counts a).toNat + pushed counts events
  | .rollback _ :: events => pushed counts events

/-- The scan has no more to skip than the rollbacks, at some point, ask for beyond what was pushed. -/
lemma exactScan_pending_le_iff (events : List (Event α)) (m : ℕ) :
    (exactScan counts events).pending ≤ m ↔
      ∀ k, asked (events.take k) ≤ pushed counts (events.take k) + m := by
  induction events generalizing m with
  | nil => simp [exactScan, asked]
  | cons event newer ih =>
    -- a non-empty beginning is the event before a beginning of the newer ones
    have hcons : (∀ k, asked ((event :: newer).take k) ≤
        pushed counts ((event :: newer).take k) + m) ↔
        ∀ k, asked (event :: newer.take k) ≤ pushed counts (event :: newer.take k) + m := by
      constructor
      · exact fun h k => h (k + 1)
      · intro h k
        cases k with
        | zero => exact Nat.zero_le _
        | succ k => exact h k
    rw [hcons, exactScan]
    cases event with
    | rollback n =>
      simp only [Scan.exactStep, asked, pushed]
      constructor
      · intro h k
        have := (ih (m - n)).mp (by omega) k
        omega
      · intro h
        have hzero := h 0
        simp only [List.take_zero, asked, pushed] at hzero
        have := (ih (m - n)).mpr fun k => by
          have := h k
          omega
        omega
    | push a =>
      simp only [asked, pushed]
      have hstep : ((exactScan counts newer).exactStep counts (.push a)).pending ≤ m ↔
          (exactScan counts newer).pending ≤ m + (counts a).toNat := by
        simp only [Scan.exactStep]
        by_cases hpending : 0 < (exactScan counts newer).pending
        · cases hcounts : counts a with
          | true =>
            rw [if_pos hpending, if_pos rfl]
            show (exactScan counts newer).pending - 1 ≤ m ↔ _ ≤ m + 1
            omega
          | false =>
            rw [if_pos hpending, if_neg Bool.false_ne_true]
            show _ ≤ m ↔ _ ≤ m + 0
            omega
        · rw [if_neg hpending]
          show (exactScan counts newer).pending ≤ m ↔ _
          omega
      rw [hstep, ih]
      refine forall_congr' fun k => ?_
      omega

lemma push_mem_of_mem_kept {events : List (Event α)} {a : α}
    (h : a ∈ (exactScan counts events).kept) : .push a ∈ events := by
  induction events with
  | nil => cases h
  | cons event newer ih =>
    rw [exactScan] at h
    cases event with
    | rollback n => exact List.mem_cons_of_mem _ (ih h)
    | push b =>
      simp only [Scan.exactStep] at h
      split at h
      · split at h
        · exact List.mem_cons_of_mem _ (ih h)
        · exact List.mem_cons_of_mem _ (ih h)
      · rcases List.mem_append.mp h with hold | hlast
        · exact List.mem_cons_of_mem _ (ih hold)
        · rw [List.mem_singleton.mp hlast]
          exact List.mem_cons_self

lemma skip_true (n : ℕ) (stack : List α) : skip (fun _ => true) n stack = stack.drop n := by
  induction stack generalizing n with
  | nil => simp
  | cons a stack ih =>
    cases n with
    | zero => simp
    | succ n => simpa [skip] using ih n

end Supercodex.RollbackStack
