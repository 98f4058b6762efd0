import Supercodex.Library.Effects
import Supercodex.Library.Text

/-!
# Byte positions in text

A text is indexed by the bytes of its UTF-8 encoding. Only the positions between two characters can be
cut at: what cuts elsewhere gives nothing.
-/

namespace Supercodex.Positions

/-- The bytes from one position up to another. -/
structure Span where
  start : ℕ
  stop : ℕ
deriving DecidableEq

/-- `str::len`. -/
def len (t : Text) : ℕ := (t.map Char.utf8Size).sum

/-- `str::split_at_checked`. -/
def splitAt : Text → ℕ → Option (Text × Text)
  | [], pos => if pos = 0 then some ([], []) else none
  | c :: t, pos =>
    if pos = 0 then some ([], c :: t)
    else if c.utf8Size ≤ pos then (splitAt t (pos - c.utf8Size)).map fun (before, after) => (c :: before, after)
    else none

/-- `str::is_char_boundary`. -/
def isCharBoundary (t : Text) (pos : ℕ) : Bool := (splitAt t pos).isSome

/-- `str::get`. -/
def get (t : Text) (range : Span) : Option Text := do
  let (upTo, _) ← splitAt t range.stop
  let (_, inside) ← splitAt upTo range.start
  some inside

/-- `String::replace_range`. -/
def replaceRange (t : Text) (range : Span) (new : Text) : Option Text := do
  let (upTo, after) ← splitAt t range.stop
  let (before, _) ← splitAt upTo range.start
  some (before ++ new ++ after)

/-- `String::insert_str`. -/
def insertStr (t : Text) (pos : ℕ) (new : Text) : Option Text := replaceRange t ⟨pos, pos⟩ new

/-- `str::find` of a character. -/
def find (c : Char) (t : Text) : Option ℕ := if c ∈ t then some (len (t.takeWhile (· ≠ c))) else none

/-- `str::rfind` of a character. -/
def rfind (c : Char) (t : Text) : Option ℕ :=
  if c ∈ t then some (len (t.rdropWhile (· ≠ c)).dropLast) else none

/-! ## Lengths -/

@[simp] lemma len_nil : len [] = 0 := rfl

@[simp] lemma len_cons (c : Char) (t : Text) : len (c :: t) = c.utf8Size + len t := by
  rw [len, List.map_cons, List.sum_cons, len]

@[simp] lemma len_append (t u : Text) : len (t ++ u) = len t + len u := by
  rw [len, List.map_append, List.sum_append, len, len]

variable {t : Text}

lemma len_pos (h : t ≠ []) : 0 < len t := by
  obtain ⟨c, t, rfl⟩ := List.exists_cons_of_ne_nil h
  have hc := Char.utf8Size_pos c
  rw [len_cons]
  omega

lemma eq_nil_of_len (h : len t = 0) : t = [] := by
  by_contra hne
  have hpos := len_pos hne
  omega

lemma append_injective {t u t' u' : Text} (h : t ++ u = t' ++ u') (hlen : len t = len t') :
    t = t' ∧ u = u' := by
  induction t generalizing t' with
  | nil =>
    have ht' : t' = [] := eq_nil_of_len hlen.symm
    rw [ht'] at h
    exact ⟨ht'.symm, h⟩
  | cons c t ih =>
    cases t' with
    | nil => exact absurd (eq_nil_of_len hlen) (List.cons_ne_nil c t)
    | cons c' t' =>
      rw [List.cons_append, List.cons_append, List.cons.injEq] at h
      obtain ⟨rfl, h⟩ := h
      rw [len_cons, len_cons] at hlen
      obtain ⟨ht, hu⟩ := ih h (by omega)
      exact ⟨by rw [ht], hu⟩

/-! ## Cuts -/

variable {pos : ℕ}

lemma splitAt_eq_some_iff {u v : Text} :
    splitAt t pos = some (u, v) ↔ t = u ++ v ∧ len u = pos := by
  constructor
  · intro h
    induction t generalizing pos u v with
    | nil =>
      rw [splitAt] at h
      split at h
      · cases h
        exact ⟨rfl, by rw [len_nil]; omega⟩
      · cases h
    | cons c t ih =>
      rw [splitAt] at h
      split at h
      · cases h
        exact ⟨rfl, by rw [len_nil]; omega⟩
      split at h
      · rw [Option.map_eq_some_iff] at h
        obtain ⟨⟨u', v'⟩, hrest, h⟩ := h
        cases h
        obtain ⟨ht, hlen⟩ := ih hrest
        exact ⟨by rw [ht, List.cons_append], by rw [len_cons]; omega⟩
      · cases h
  · rintro ⟨rfl, rfl⟩
    induction u with
    | nil => cases v <;> rfl
    | cons c u ih =>
      have hc := Char.utf8Size_pos c
      rw [List.cons_append, splitAt, len_cons, if_neg (by omega), if_pos (by omega),
        Nat.add_sub_cancel_left, ih]
      rfl

/-- A position between two characters. -/
def IsBoundary (t : Text) (pos : ℕ) : Prop := ∃ u v, t = u ++ v ∧ len u = pos

lemma isCharBoundary_iff : isCharBoundary t pos = true ↔ IsBoundary t pos := by
  rw [isCharBoundary, Option.isSome_iff_exists]
  constructor
  · rintro ⟨⟨u, v⟩, h⟩
    exact ⟨u, v, splitAt_eq_some_iff.mp h⟩
  · rintro ⟨u, v, h⟩
    exact ⟨(u, v), splitAt_eq_some_iff.mpr h⟩

lemma isBoundary_zero (t : Text) : IsBoundary t 0 := ⟨[], t, rfl, rfl⟩

lemma isBoundary_len (t : Text) : IsBoundary t (len t) := ⟨t, [], (List.append_nil t).symm, rfl⟩

lemma IsBoundary.le_len (h : IsBoundary t pos) : pos ≤ len t := by
  obtain ⟨u, v, rfl, rfl⟩ := h
  rw [len_append]
  omega

lemma IsBoundary.cut {a b : ℕ} (ha : IsBoundary t a) (hb : IsBoundary t b) (h : a ≤ b) :
    ∃ u m v, t = u ++ m ++ v ∧ len u = a ∧ len (u ++ m) = b := by
  obtain ⟨u, v, rfl, rfl⟩ := ha
  obtain ⟨w, x, heq, rfl⟩ := hb
  rw [List.append_eq_append_iff] at heq
  rcases heq with ⟨m, rfl, rfl⟩ | ⟨m, rfl, rfl⟩
  · exact ⟨u, m, x, (List.append_assoc ..).symm, rfl, rfl⟩
  have hm : m = [] := by
    rw [len_append] at h
    exact eq_nil_of_len (by omega)
  rw [hm]
  exact ⟨w, [], v, by simp, by simp, by simp⟩

lemma get_eq_some_iff {range : Span} {m : Text} :
    get t range = some m ↔ ∃ u v, t = u ++ m ++ v ∧ len u = range.start ∧ len (u ++ m) = range.stop := by
  rw [get]
  simp only [Effects.bind_eq_some, Prod.exists, splitAt_eq_some_iff, Option.some.injEq]
  constructor
  · rintro ⟨upTo, v, ⟨rfl, hstop⟩, u, inside, ⟨rfl, hstart⟩, rfl⟩
    exact ⟨u, v, rfl, hstart, hstop⟩
  · rintro ⟨u, v, rfl, hstart, hstop⟩
    exact ⟨u ++ m, v, ⟨rfl, hstop⟩, u, m, ⟨rfl, hstart⟩, rfl⟩

lemma replaceRange_eq_some_iff {range : Span} {new t' : Text} :
    replaceRange t range new = some t' ↔ ∃ u m v, t = u ++ m ++ v ∧ len u = range.start ∧
      len (u ++ m) = range.stop ∧ t' = u ++ new ++ v := by
  rw [replaceRange]
  simp only [Effects.bind_eq_some, Prod.exists, splitAt_eq_some_iff, Option.some.injEq]
  constructor
  · rintro ⟨upTo, v, ⟨rfl, hstop⟩, u, m, ⟨rfl, hstart⟩, rfl⟩
    exact ⟨u, m, v, rfl, hstart, hstop, rfl⟩
  · rintro ⟨u, m, v, rfl, hstart, hstop, rfl⟩
    exact ⟨u ++ m, v, ⟨rfl, hstop⟩, u, m, ⟨rfl, hstart⟩, rfl⟩

/-! ## Searches -/

lemma find_eq_some {c : Char} (h : find c t = some pos) :
    ∃ u v, t = u ++ c :: v ∧ len u = pos ∧ c ∉ u := by
  rw [find] at h
  split at h
  case isTrue hmem =>
    cases h
    refine ⟨t.takeWhile (· ≠ c), (t.dropWhile (· ≠ c)).tail, ?_, rfl, ?_⟩
    · have hne : t.dropWhile (· ≠ c) ≠ [] := by
        intro hnil
        have hall := List.dropWhile_eq_nil_iff.mp hnil c hmem
        simp at hall
      have hhead := List.head_dropWhile_not (fun x => decide (x ≠ c)) hne
      have hhead : (t.dropWhile (· ≠ c)).head hne = c := by simpa using hhead
      conv_lhs => rw [← List.takeWhile_append_dropWhile (p := fun x => decide (x ≠ c)) (l := t)]
      rw [← List.cons_head_tail hne, hhead]
      rfl
    · intro hc
      have hp := List.mem_takeWhile_imp hc
      simp at hp
  case isFalse => cases h

lemma rfind_eq_some {c : Char} (h : rfind c t = some pos) :
    ∃ u v, t = u ++ c :: v ∧ len u = pos := by
  rw [rfind] at h
  split at h
  case isTrue hmem =>
    cases h
    have hne : t.rdropWhile (· ≠ c) ≠ [] := by
      intro hnil
      have hall := List.rdropWhile_eq_nil_iff.mp hnil c hmem
      simp at hall
    have hlast := List.rdropWhile_last_not (fun x => decide (x ≠ c)) t hne
    have hlast : (t.rdropWhile (· ≠ c)).getLast hne = c := by simpa using hlast
    obtain ⟨v, hv⟩ := List.rdropWhile_prefix (fun x => decide (x ≠ c)) t
    refine ⟨(t.rdropWhile (· ≠ c)).dropLast, v, ?_, rfl⟩
    conv_lhs => rw [← hv, ← List.dropLast_append_getLast hne, hlast]
    rw [List.append_assoc]
    rfl
  case isFalse => cases h

end Supercodex.Positions
