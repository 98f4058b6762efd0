import Mathlib.Data.List.DropRight
import Mathlib.Data.List.Nodup
import Mathlib.Order.Lattice

/-!
# Pages of a sorted list, resumed by a key

A page holds the first wanted entries whose keys come after an anchor. When entries are left, the last
entry of the page gives the anchor of the next one. The anchor is a key and not an entry, so what stands
at a page's end decides whether the next page starts where this one stopped.
-/

namespace Supercodex.Pagination

variable {α κ : Type}

/-- The first wanted entries, as many as there is room for, and whether an entry was left. -/
def scan (wanted : α → Bool) : ℕ → List α → List α × Bool
  | _, [] => ([], false)
  | 0, _ :: _ => ([], true)
  | n + 1, a :: l =>
    if wanted a then (a :: (scan wanted n l).1, (scan wanted n l).2) else scan wanted (n + 1) l

lemma scan_fst (wanted : α → Bool) (n : ℕ) (l : List α) :
    (scan wanted n l).1 = (l.filter wanted).take n := by
  induction l generalizing n with
  | nil => simp [scan]
  | cons a l ih =>
    cases n with
    | zero => simp [scan]
    | succ n =>
      rw [scan, List.filter_cons]
      split_ifs with h
      · rw [ih, List.take_succ_cons]
      · exact ih (n + 1)

/-- The last entry is there and not wanted. -/
def EndsUnwanted (wanted : α → Bool) (l : List α) : Prop :=
  ∃ last, l.getLast? = some last ∧ wanted last = false

lemma endsUnwanted_cons {wanted : α → Bool} {a : α} {l : List α} (h : l ≠ []) :
    EndsUnwanted wanted (a :: l) ↔ EndsUnwanted wanted l := by
  obtain ⟨b, l, rfl⟩ := List.exists_cons_of_ne_nil h
  rw [EndsUnwanted, EndsUnwanted, List.getLast?_cons_cons]

/-- An entry is left when more entries are wanted than there is room for, or when the last wanted one
is followed by others. -/
lemma scan_snd (wanted : α → Bool) (n : ℕ) (l : List α) :
    (scan wanted n l).2 = true ↔ n < (l.filter wanted).length ∨
      (n = (l.filter wanted).length ∧ EndsUnwanted wanted l) := by
  induction l generalizing n with
  | nil => simp [scan, EndsUnwanted]
  | cons a l ih =>
    cases n with
    | zero =>
      simp only [scan, true_iff]
      by_cases hnone : ((a :: l).filter wanted).length = 0
      · right
        refine ⟨hnone.symm, (a :: l).getLast (List.cons_ne_nil a l), List.getLast?_eq_some_getLast _, ?_⟩
        have hall := List.filter_eq_nil_iff.mp (List.length_eq_zero_iff.mp hnone)
        simpa using hall _ (List.getLast_mem (List.cons_ne_nil a l))
      · left
        omega
    | succ n =>
      rw [scan, List.filter_cons]
      split_ifs with h
      · rw [ih, List.length_cons, Nat.add_lt_add_iff_right, Nat.add_right_cancel_iff]
        rcases eq_or_ne l [] with rfl | hne
        · simp [EndsUnwanted, h]
        · rw [endsUnwanted_cons hne]
      · rw [ih]
        rcases eq_or_ne l [] with rfl | hne
        · simp
        · rw [endsUnwanted_cons hne]

section

variable [LinearOrder κ] (key : α → κ) (wanted : α → Bool) (resume : α → Option κ) (n : ℕ)
  (entries : List α)

/-- The entries from the first one after the anchor on. -/
def after : Option κ → List α
  | none => entries
  | some c => entries.dropWhile fun a => decide (c ≤ key a)

/-- A page, and the anchor of the next one. -/
def page (anchor : Option κ) : List α × Option κ :=
  let found := scan wanted n (after key entries anchor)
  (found.1, if found.2 then found.1.getLast?.bind resume else none)

/-- What the pages hold together that are read one after the other until there is no next one. -/
inductive Follows : Option κ → List α → Prop where
  | last {anchor : Option κ} (h : (page key wanted resume n entries anchor).2 = none) :
    Follows anchor (page key wanted resume n entries anchor).1
  | next {anchor : Option κ} {c : κ} {rest : List α}
    (h : (page key wanted resume n entries anchor).2 = some c) (hrest : Follows (some c) rest) :
    Follows anchor ((page key wanted resume n entries anchor).1 ++ rest)

/-- The anchor that a page ending at the `m`-th wanted entry leaves lies between this entry and the
next one. When no further entry is wanted it does not lead back. -/
def Resumes (m : ℕ) : Prop :=
  (∀ a b, (entries.filter wanted)[m - 1]? = some a → (entries.filter wanted)[m]? = some b →
    ∃ c, resume a = some c ∧ key b < c ∧ c ≤ key a) ∧
  (∀ a c, (entries.filter wanted)[m - 1]? = some a → (entries.filter wanted).length = m →
    EndsUnwanted wanted entries → resume a = some c → c ≤ key a)

end

section

variable [LinearOrder κ] {key : α → κ} {wanted : α → Bool} {resume : α → Option κ} {n : ℕ}
  {entries : List α}

/-! ## Sorted lists and anchors -/

lemma dropWhile_eq_filter {l : List α} (hl : l.Pairwise fun a b => key b ≤ key a) (c : κ) :
    (l.dropWhile fun a => decide (c ≤ key a)) = l.filter fun a => decide (key a < c) := by
  induction l with
  | nil => rfl
  | cons a l ih =>
    rw [List.pairwise_cons] at hl
    rw [List.dropWhile_cons, List.filter_cons]
    by_cases h : c ≤ key a
    · rw [if_pos (by simpa using h), if_neg (by simpa using h)]
      exact ih hl.2
    · have hafter : ∀ b ∈ l, key b < c := fun b hb => (hl.1 b hb).trans_lt (not_le.mp h)
      rw [if_neg (by simpa using h), if_pos (by simpa using h), List.filter_eq_self.mpr]
      simpa using hafter

lemma filter_after (hsorted : entries.Pairwise fun a b => key b ≤ key a) (c : κ) :
    (after key entries (some c)).filter wanted =
      (entries.filter wanted).filter fun a => decide (key a < c) := by
  rw [after, dropWhile_eq_filter hsorted, List.filter_comm]

lemma after_suffix (anchor : Option κ) : after key entries anchor <:+ entries := by
  cases anchor with
  | none => exact List.suffix_refl _
  | some c => exact List.dropWhile_suffix _

variable {c : κ}

/-- An anchor between two neighbours cuts a sorted list there. -/
lemma filter_lt_eq_drop {l : List α} (hl : l.Pairwise fun a b => key b ≤ key a) {m : ℕ} {a : α}
    (hm : 0 < m) (ha : l[m - 1]? = some a) (hac : c ≤ key a) (hb : ∀ b, l[m]? = some b → key b < c) :
    (l.filter fun a => decide (key a < c)) = l.drop m := by
  have hsplit := List.take_append_drop m l
  have hpair := hl
  rw [← hsplit, List.pairwise_append] at hpair
  have htake : ∀ x ∈ l.take m, c ≤ key x := by
    intro x hx
    obtain ⟨i, hi, rfl⟩ := List.mem_take_iff_getElem.mp hx
    obtain ⟨hlt, rfl⟩ := List.getElem?_eq_some_iff.mp ha
    rcases Nat.lt_or_eq_of_le (show i ≤ m - 1 by omega) with hlt' | rfl
    · exact hac.trans (List.pairwise_iff_getElem.mp hl i (m - 1) (by omega) hlt hlt')
    · exact hac
  have hdrop : ∀ x ∈ l.drop m, key x < c := by
    intro x hx
    obtain ⟨i, hi, rfl⟩ := List.mem_drop_iff_getElem.mp hx
    have hfirst : l[m]? = some l[m] := List.getElem?_eq_getElem (by omega)
    rcases Nat.eq_zero_or_pos i with rfl | hpos
    · simpa using hb _ hfirst
    · exact (List.pairwise_iff_getElem.mp hl m (m + i) (by omega) (by omega) (by omega)).trans_lt
        (hb _ hfirst)
  conv_lhs => rw [← hsplit]
  rw [List.filter_append, List.filter_eq_nil_iff.mpr, List.filter_eq_self.mpr, List.nil_append]
  · simpa using hdrop
  · simpa using htake

/-- What follows an anchor starts with the entry that stands `m` places on only if the anchor lies
between the neighbours there. -/
lemma between_of_head {l : List α} (hnodup : l.Nodup) {m : ℕ} {a b : α} (hm : 0 < m)
    (ha : l[m - 1]? = some a) (hb : l[m]? = some b)
    (hhead : (l.filter fun a => decide (key a < c)).head? = some b) : key b < c ∧ c ≤ key a := by
  rw [List.head?_filter] at hhead
  have hbc : key b < c := by simpa using List.find?_some hhead
  refine ⟨hbc, ?_⟩
  by_contra hac
  rw [not_le] at hac
  -- the entry before it would have been found first
  obtain ⟨hlt, rfl⟩ := List.getElem?_eq_some_iff.mp ha
  obtain ⟨hlt', rfl⟩ := List.getElem?_eq_some_iff.mp hb
  obtain ⟨-, i, hi, hfound, hbefore⟩ := List.find?_eq_some_iff_getElem.mp hhead
  have him : i = m := (List.Nodup.getElem_inj_iff hnodup).mp hfound
  have := hbefore (m - 1) (by omega)
  simp [hac] at this

/-! ## Following the pages -/

lemma page_fst (anchor : Option κ) : (page key wanted resume n entries anchor).1 =
    ((after key entries anchor).filter wanted).take n :=
  scan_fst ..

variable {anchor : Option κ} {all : List α}

lemma Follows.head? (hn : 0 < n) (h : Follows key wanted resume n entries anchor all) :
    all.head? = ((after key entries anchor).filter wanted).head? := by
  have hfirst : ∀ l : List α, (l.take n).head? = l.head? := by
    intro l
    rw [List.head?_take, if_neg (by omega)]
  cases h with
  | last h => rw [page_fst, hfirst]
  | @next _ c rest h hrest =>
    rw [List.head?_append, page_fst, hfirst]
    rcases hnil : ((after key entries anchor).filter wanted) with _ | ⟨a, l⟩
    · -- a page without entries leaves no anchor
      simp [page, scan_fst, hnil] at h
    · simp

lemma follows_iff_of_none (h : (page key wanted resume n entries anchor).2 = none) :
    Follows key wanted resume n entries anchor all ↔
      all = ((after key entries anchor).filter wanted).take n := by
  rw [← @page_fst _ _ _ key wanted resume n entries]
  constructor
  · intro hall
    cases hall with
    | last => rfl
    | next h' => simp [h] at h'
  · rintro rfl
    exact .last h

lemma follows_iff_of_some (h : (page key wanted resume n entries anchor).2 = some c) :
    Follows key wanted resume n entries anchor all ↔
      ∃ rest, all = ((after key entries anchor).filter wanted).take n ++ rest ∧
        Follows key wanted resume n entries (some c) rest := by
  rw [← @page_fst _ _ _ key wanted resume n entries]
  constructor
  · intro hall
    cases hall with
    | last h' => simp [h] at h'
    | next h' hrest =>
      rw [h] at h'
      cases h'
      exact ⟨_, rfl, hrest⟩
  · rintro ⟨rest, rfl, hrest⟩
    exact .next h hrest

lemma follows_nil_iff (hn : 0 < n) (hsorted : entries.Pairwise fun a b => key b ≤ key a) :
    Follows key wanted resume n entries (some c) [] ↔ ∀ a ∈ entries.filter wanted, c ≤ key a := by
  have hnil : (after key entries (some c)).filter wanted = [] ↔
      ∀ a ∈ entries.filter wanted, c ≤ key a := by
    rw [filter_after hsorted, List.filter_eq_nil_iff]
    simp
  rw [← hnil]
  constructor
  · intro h
    simpa using (h.head? hn).symm
  · intro h
    have hnone : (page key wanted resume n entries (some c)).2 = none := by
      simp [page, scan_fst, h]
    rw [follows_iff_of_none hnone, h, List.take_nil]

lemma endsUnwanted_after (h : after key entries anchor ≠ []) :
    EndsUnwanted wanted (after key entries anchor) ↔ EndsUnwanted wanted entries := by
  obtain ⟨before, hbefore⟩ := @after_suffix _ _ _ key entries anchor
  have hlast : entries.getLast? = (after key entries anchor).getLast? := by
    conv_lhs => rw [← hbefore]
    exact List.getLast?_append_of_ne_nil _ h
  rw [EndsUnwanted, EndsUnwanted, hlast]

section

variable {anchor : Option κ} {i : ℕ}

/-- An entry is left after a page that starts `i` wanted entries on. -/
lemma scan_left_iff (hn : 0 < n)
    (hanchor : (after key entries anchor).filter wanted = (entries.filter wanted).drop i) :
    (scan wanted n (after key entries anchor)).2 = true ↔
      i + n < (entries.filter wanted).length ∨
        (i + n = (entries.filter wanted).length ∧ EndsUnwanted wanted entries) := by
  rw [scan_snd, hanchor, List.length_drop]
  constructor
  · rintro (hlt | ⟨heq, hends⟩)
    · left
      omega
    · have hne : after key entries anchor ≠ [] := by
        rintro hnil
        obtain ⟨last, hlast, -⟩ := hends
        simp [hnil] at hlast
      right
      exact ⟨by omega, (endsUnwanted_after hne).mp hends⟩
  · rintro (hlt | ⟨heq, hends⟩)
    · left
      omega
    · have hne : after key entries anchor ≠ [] := by
        rintro hnil
        have hlength := congrArg List.length hanchor
        rw [hnil, List.length_drop] at hlength
        simp only [List.filter_nil, List.length_nil] at hlength
        omega
      right
      exact ⟨by omega, (endsUnwanted_after hne).mpr hends⟩

lemma page_snd_of_left (hn : 0 < n)
    (hanchor : (after key entries anchor).filter wanted = (entries.filter wanted).drop i)
    (hle : i + n ≤ (entries.filter wanted).length)
    (hleft : (scan wanted n (after key entries anchor)).2 = true) :
    (page key wanted resume n entries anchor).2 =
      (entries.filter wanted)[i + n - 1]?.bind resume := by
  have hlast : (((entries.filter wanted).drop i).take n).getLast? =
      (entries.filter wanted)[i + n - 1]? := by
    rw [List.getLast?_eq_getElem?, List.length_take, List.length_drop,
      List.getElem?_take_of_lt (by omega), List.getElem?_drop]
    congr 1
    omega
  simp only [page, hleft, if_true, scan_fst, hanchor, hlast]

lemma page_snd_of_not_left (hleft : ¬(scan wanted n (after key entries anchor)).2 = true) :
    (page key wanted resume n entries anchor).2 = none := by
  simp [page, hleft]

end

lemma resumes_of_length_lt {m : ℕ} (h : (entries.filter wanted).length < m) :
    Resumes key wanted resume entries m := by
  have hnone : (entries.filter wanted)[m - 1]? = none := List.getElem?_eq_none (by omega)
  refine ⟨?_, ?_⟩
  · intro a b ha
    simp [hnone] at ha
  · intro a c ha
    simp [hnone] at ha

lemma forall_resumes_iff (i : ℕ) : (∀ k, 0 < k → Resumes key wanted resume entries (i + k * n)) ↔
    Resumes key wanted resume entries (i + n) ∧
      ∀ k, 0 < k → Resumes key wanted resume entries (i + n + k * n) := by
  constructor
  · intro h
    refine ⟨by simpa using h 1 (by omega), fun k _ => ?_⟩
    have := h (k + 1) (by omega)
    rwa [Nat.add_mul, Nat.one_mul, ← Nat.add_assoc, Nat.add_right_comm] at this
  · rintro ⟨hfirst, hrest⟩ k hk
    obtain ⟨k, rfl⟩ := Nat.exists_eq_succ_of_ne_zero hk.ne'
    rw [Nat.succ_mul, ← Nat.add_assoc, Nat.add_right_comm]
    rcases Nat.eq_zero_or_pos k with rfl | hpos
    · simpa using hfirst
    · exact hrest k hpos

lemma follows_end_iff (hn : 0 < n) (hsorted : entries.Pairwise fun a b => key b ≤ key a) {a : α}
    (ha : (entries.filter wanted)[(entries.filter wanted).length - 1]? = some a) :
    Follows key wanted resume n entries (some c) [] ↔ c ≤ key a := by
  rw [follows_nil_iff hn hsorted]
  obtain ⟨hlt, rfl⟩ := List.getElem?_eq_some_iff.mp ha
  constructor
  · intro h
    exact h _ (List.getElem_mem hlt)
  · intro h x hx
    obtain ⟨i, hi, rfl⟩ := List.getElem_of_mem hx
    rcases Nat.lt_or_eq_of_le (Nat.le_pred_of_lt hi) with hlt' | rfl
    · exact h.trans (List.pairwise_iff_getElem.mp (hsorted.filter wanted) i _ hi hlt hlt')
    · exact h

section

variable {anchor : Option κ} {i : ℕ} {a : α}

/-- A page that ends with the last wanted entry. -/
lemma follows_full_iff (hn : 0 < n) (hsorted : entries.Pairwise fun a b => key b ≤ key a)
    (hanchor : (after key entries anchor).filter wanted = (entries.filter wanted).drop i)
    (ha : (entries.filter wanted)[i + n - 1]? = some a)
    (hend : (entries.filter wanted).length = i + n) :
    Follows key wanted resume n entries anchor ((entries.filter wanted).drop i) ↔
      Resumes key wanted resume entries (i + n) := by
  have htake : ((entries.filter wanted).drop i).take n = (entries.filter wanted).drop i :=
    List.take_of_length_le (by rw [List.length_drop]; omega)
  have hresumes : Resumes key wanted resume entries (i + n) ↔
      (EndsUnwanted wanted entries → ∀ c, resume a = some c → c ≤ key a) := by
    constructor
    · intro h hends c hc
      exact h.2 a c ha hend hends hc
    · intro h
      refine ⟨fun a' b _ hb => ?_, fun a' c ha' _ hends hc => ?_⟩
      · simp [List.getElem?_eq_none hend.le] at hb
      · rw [ha] at ha'
        cases ha'
        exact h hends c hc
  rw [hresumes]
  by_cases hends : EndsUnwanted wanted entries
  · have hsnd := @page_snd_of_left _ _ _ _ _ resume _ _ _ _ hn hanchor hend.ge
      ((scan_left_iff hn hanchor).mpr (.inr ⟨hend.symm, hends⟩))
    rw [ha, Option.bind_some] at hsnd
    rcases hr : resume a with _ | c
    · rw [follows_iff_of_none (hsnd.trans hr), hanchor, htake]
      simp
    rw [follows_iff_of_some (hsnd.trans hr), hanchor, htake]
    have hend' : Follows key wanted resume n entries (some c) [] ↔ c ≤ key a :=
      follows_end_iff hn hsorted (hend ▸ ha)
    simp [hends, hend']
  · have hnone : (page key wanted resume n entries anchor).2 = none := by
      apply page_snd_of_not_left
      rw [scan_left_iff hn hanchor]
      simp [hends, hend]
    rw [follows_iff_of_none hnone, hanchor, htake]
    simp [hends]

end

/-- The pages from an anchor on hold the rest of the wanted entries exactly when every one of them
ends where the next one can start. -/
lemma follows_drop_iff (hn : 0 < n) (hsorted : entries.Pairwise fun a b => key b ≤ key a)
    (hnodup : entries.Nodup) (i : ℕ) (anchor : Option κ)
    (hanchor : (after key entries anchor).filter wanted = (entries.filter wanted).drop i) :
    Follows key wanted resume n entries anchor ((entries.filter wanted).drop i) ↔
      ∀ k, 0 < k → Resumes key wanted resume entries (i + k * n) := by
  set all := entries.filter wanted with hall
  have hpair : all.Pairwise fun a b => key b ≤ key a := hsorted.filter _
  have hdistinct : all.Nodup := hnodup.filter _
  -- the induction is on how many wanted entries are left
  induction hrem : all.length - i using Nat.strong_induction_on generalizing i anchor with
  | _ rem ih =>
    have hleft := scan_left_iff hn hanchor
    rw [← hall] at hleft
    by_cases hshort : all.length < i + n
    · -- the page is not full, and is the last one
      have hnone : (page key wanted resume n entries anchor).2 = none :=
        page_snd_of_not_left (mt hleft.mp (by omega))
      rw [follows_iff_of_none hnone, hanchor, List.take_of_length_le (by rw [List.length_drop]; omega)]
      refine iff_of_true rfl fun k hk => resumes_of_length_lt (hshort.trans_le ?_)
      exact Nat.add_le_add_left (Nat.le_mul_of_pos_left n hk) i
    rw [not_lt] at hshort
    obtain ⟨a, ha⟩ : ∃ a, all[i + n - 1]? = some a :=
      ⟨_, List.getElem?_eq_getElem (show i + n - 1 < all.length by omega)⟩
    have hcut : all.drop i = (all.drop i).take n ++ all.drop (i + n) := by
      rw [← List.drop_drop, List.take_append_drop]
    rw [forall_resumes_iff]
    by_cases hend : all.length = i + n
    · have hrest : ∀ k, 0 < k → Resumes key wanted resume entries (i + n + k * n) := fun k hk =>
        resumes_of_length_lt (by rw [← hall]; have := Nat.le_mul_of_pos_left n hk; omega)
      rw [follows_full_iff hn hsorted hanchor ha hend, and_iff_left hrest]
    -- a wanted entry is left, and the anchor has to lead to it
    have hlt : i + n < all.length := by omega
    have hb : all[i + n]? = some all[i + n] := List.getElem?_eq_getElem hlt
    have hsnd : (page key wanted resume n entries anchor).2 = all[i + n - 1]?.bind resume :=
      page_snd_of_left hn hanchor hshort (hleft.mpr (.inl hlt))
    rw [ha, Option.bind_some] at hsnd
    rcases hr : resume a with _ | c
    · rw [follows_iff_of_none (hsnd.trans hr), hanchor]
      refine iff_of_false (fun h => ?_) (fun h => ?_)
      · have hlength := congrArg List.length h
        rw [List.length_take, List.length_drop] at hlength
        omega
      · obtain ⟨c, hc, -⟩ := h.1.1 a _ ha hb
        rw [hr] at hc
        cases hc
    · have hstep : Follows key wanted resume n entries anchor (all.drop i) ↔
          Follows key wanted resume n entries (some c) (all.drop (i + n)) := by
        rw [follows_iff_of_some (hsnd.trans hr), hanchor]
        constructor
        · rintro ⟨rest, hall', hrest⟩
          rwa [List.append_cancel_left (hcut.symm.trans hall')]
        · intro hrest
          exact ⟨_, hcut, hrest⟩
      have hnext : c ≤ key a → key all[i + n] < c →
          (after key entries (some c)).filter wanted = all.drop (i + n) := by
        intro hac hbc
        rw [filter_after hsorted]
        refine filter_lt_eq_drop hpair (by omega) ha hac fun b hb' => ?_
        rw [hb] at hb'
        cases hb'
        exact hbc
      rw [hstep]
      constructor
      · intro h
        have hhead := h.head? hn
        rw [filter_after hsorted, List.head?_drop, hb] at hhead
        obtain ⟨hbc, hac⟩ := between_of_head hdistinct (by omega) ha hb hhead.symm
        refine ⟨⟨?_, ?_⟩, (ih _ (by omega) (i + n) (some c) (hnext hac hbc) rfl).mp h⟩
        · intro a' b' ha' hb'
          rw [← hall, ha] at ha'
          rw [← hall, hb] at hb'
          cases ha'
          cases hb'
          exact ⟨c, hr, hbc, hac⟩
        · intro _ _ _ hlength
          exact absurd hlength hend
      · rintro ⟨hfirst, hrest⟩
        obtain ⟨c', hc', hbc, hac⟩ := hfirst.1 a _ ha hb
        rw [hr] at hc'
        cases hc'
        exact (ih _ (by omega) (i + n) (some c) (hnext hac hbc) rfl).mpr hrest

/-- The pages hold the wanted entries, each of them once and in order, exactly when every page ends
where the next one can start. -/
theorem follows_iff (hn : 0 < n) (hsorted : entries.Pairwise fun a b => key b ≤ key a)
    (hnodup : entries.Nodup) :
    Follows key wanted resume n entries none (entries.filter wanted) ↔
      ∀ k, 0 < k → Resumes key wanted resume entries (k * n) := by
  have h := @follows_drop_iff _ _ _ _ wanted resume _ _ hn hsorted hnodup 0 none rfl
  simpa using h

end

end Supercodex.Pagination
