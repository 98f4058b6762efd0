import Mathlib.Data.List.DropRight
import Mathlib.Data.List.Infix
import Mathlib.Data.List.Lex
import Mathlib.Data.Char
import Mathlib.Algebra.Order.Ring.Nat

/-!
# Text as a list of characters

Trimming, splitting into lines and joining lines, with the conventions of Rust's `str`: white
space is the Unicode property `White_Space`, a line ends at `'\n'` and loses one `'\r'` before it,
and a last line without `'\n'` is kept as it is.
-/

namespace Supercodex

/-- Text, as the list of its characters. -/
abbrev Text := List Char

-- Stated once by name: membership tests on texts and on paths all look for these two.
instance : LawfulBEq Text := List.instLawfulBEq

instance : LawfulBEq (List Text) := List.instLawfulBEq

namespace Text

/-- The Unicode property `White_Space`. -/
def isWhitespace (c : Char) : Bool :=
  let n := c.toNat
  (9 ≤ n && n ≤ 13) || n == 0x20 || n == 0x85 || n == 0xA0 || n == 0x1680 ||
    (0x2000 ≤ n && n ≤ 0x200A) || n == 0x2028 || n == 0x2029 || n == 0x202F || n == 0x205F ||
    n == 0x3000

/-- `str::trim_start`. -/
def trimStart (t : Text) : Text := t.dropWhile isWhitespace

/-- `str::trim_end`. -/
def trimEnd (t : Text) : Text := t.rdropWhile isWhitespace

/-- `str::trim`. -/
def trim (t : Text) : Text := trimEnd (trimStart t)

/-- `str::strip_prefix`. -/
def stripPrefix (start t : Text) : Option Text :=
  if start.isPrefixOf t then some (t.drop start.length) else none

/-- `str::strip_suffix`. -/
def stripSuffix (ending t : Text) : Option Text :=
  (stripPrefix ending.reverse t.reverse).map List.reverse

/-- The text without one carriage return at its end. -/
def stripCr (t : Text) : Text := if t.getLast? = some '\r' then t.dropLast else t

/-- The lines that the pieces between newlines stand for. Only the last piece is not ended by a
newline; it keeps its carriage return and is no line if it is empty. -/
def linesOfPieces : List Text → List Text
  | [] => []
  | [last] => if last = [] then [] else [last]
  | piece :: pieces => stripCr piece :: linesOfPieces pieces

/-- `str::lines`. -/
def lines (t : Text) : List Text := linesOfPieces (t.splitOn '\n')

/-- `[&str]::join("\n")`. -/
def joinLines (ls : List Text) : Text := ['\n'].intercalate ls

/-! ## Trimming -/

/-- Does the text hold anything but white space? -/
def NonBlank (t : Text) : Prop := ∃ c ∈ t, isWhitespace c = false

variable {t : Text}

lemma nonBlank_of_trim_ne_nil (h : trim t ≠ []) : NonBlank t := by
  by_contra hb
  have hall : ∀ c ∈ t, isWhitespace c = true := by
    intro c hc
    by_contra hws
    exact hb ⟨c, hc, by simpa using hws⟩
  apply h
  rw [trim, trimStart, List.dropWhile_eq_nil_iff.mpr hall]
  rfl

lemma trimStart_append (h : NonBlank t) (u : Text) :
    trimStart (t ++ u) = trimStart t ++ u := by
  obtain ⟨c, hc, hws⟩ := h
  unfold trimStart
  rw [List.dropWhile_append]
  have hne : List.dropWhile isWhitespace t ≠ [] := by
    intro hnil
    rw [List.dropWhile_eq_nil_iff] at hnil
    rw [hnil c hc] at hws
    cases hws
  simp [hne]

lemma trimEnd_eq_reverse (t : Text) : trimEnd t = (trimStart t.reverse).reverse := by
  unfold trimEnd trimStart List.rdropWhile
  rfl

lemma NonBlank.reverse (h : NonBlank t) : NonBlank t.reverse := by
  obtain ⟨c, hc, hws⟩ := h
  exact ⟨c, List.mem_reverse.mpr hc, hws⟩

lemma trimEnd_append {u : Text} (h : NonBlank u) (t : Text) :
    trimEnd (t ++ u) = t ++ trimEnd u := by
  rw [trimEnd_eq_reverse, List.reverse_append, trimStart_append h.reverse, List.reverse_append,
    List.reverse_reverse, ← trimEnd_eq_reverse]

section

variable (t : Text)

lemma trimStart_suffix : trimStart t <:+ t := List.dropWhile_suffix isWhitespace

lemma trimEnd_isInitial : trimEnd t <+: t := List.rdropWhile_prefix isWhitespace t

lemma trim_subset : trim t ⊆ t :=
  fun _ hc => (trimStart_suffix t).subset ((trimEnd_isInitial _).subset hc)

lemma trim_trimStart : trim (trimStart t) = trim t := by
  unfold trim trimStart
  rw [List.dropWhile_idempotent]

/-- The two ends may be trimmed in either order. -/
lemma trim_eq_trimStart_trimEnd : trim t = trimStart (trimEnd t) := by
  have hsplit : t.takeWhile isWhitespace ++ trimStart t = t := List.takeWhile_append_dropWhile
  cases hu : trimStart t with
  | nil =>
    -- a blank text
    have hall : ∀ c ∈ t, isWhitespace c = true := List.dropWhile_eq_nil_iff.mp hu
    have hend : trimEnd t = [] := List.rdropWhile_eq_nil_iff.mpr hall
    rw [trim, hu, hend]
    rfl
  | cons c u =>
    have hc : isWhitespace c = false := by
      have hdrop : t.dropWhile isWhitespace = c :: u := hu
      have hhead := List.head?_dropWhile_not isWhitespace t
      rw [hdrop, List.head?_cons] at hhead
      simpa using hhead
    have hnb : NonBlank (c :: u) := ⟨c, List.mem_cons_self, hc⟩
    have hend : trimEnd t = t.takeWhile isWhitespace ++ trimEnd (c :: u) := by
      conv_lhs => rw [← hsplit, hu]
      exact trimEnd_append hnb _
    obtain ⟨v, hv⟩ : ∃ v, trimEnd (c :: u) = c :: v := by
      obtain ⟨w, hw⟩ := trimEnd_isInitial (c :: u)
      cases he : trimEnd (c :: u) with
      | nil =>
        have := List.rdropWhile_eq_nil_iff.mp he c List.mem_cons_self
        rw [hc] at this
        cases this
      | cons d v =>
        rw [he, List.cons_append, List.cons.injEq] at hw
        exact ⟨v, by rw [hw.1]⟩
    rw [trim, hu, hend, hv]
    unfold trimStart
    rw [List.dropWhile_append_of_pos (fun d hd => List.mem_takeWhile_imp hd)]
    simp [hc]

lemma trim_trimEnd : trim (trimEnd t) = trim t := by
  rw [trim_eq_trimStart_trimEnd, trim_eq_trimStart_trimEnd t]
  unfold trimEnd
  rw [List.rdropWhile_idempotent]

lemma trim_trim : trim (trim t) = trim t := by
  show trim (trimEnd (trimStart t)) = trim t
  rw [trim_trimEnd, trim_trimStart]

end

lemma trim_ne_nil (h : NonBlank t) : trim t ≠ [] := by
  intro hnil
  obtain ⟨c, hc, hws⟩ := h
  have hstart : ∀ d ∈ trimStart t, isWhitespace d = true := List.rdropWhile_eq_nil_iff.mp hnil
  rw [← List.takeWhile_append_dropWhile (p := isWhitespace) (l := t), List.mem_append] at hc
  rcases hc with hc | hc
  · rw [List.mem_takeWhile_imp hc] at hws
    cases hws
  · rw [hstart c hc] at hws
    cases hws

variable {c : Char}

lemma trim_cons_ne_nil (t : Text) (hc : isWhitespace c = false) :
    trim (c :: t) ≠ [] :=
  trim_ne_nil ⟨c, List.mem_cons_self, hc⟩

lemma trimEnd_trim (t : Text) : trimEnd (trim t) = trim t := by
  unfold trim trimEnd
  rw [List.rdropWhile_idempotent]

lemma trimEnd_eq_self_of_trim (h : trim t = t) : trimEnd t = t := by
  conv_lhs => rw [← h]
  rw [trimEnd_trim, h]

lemma trim_append_of_trim {t u : Text} (ht : NonBlank t) (hstart : trimStart t = t)
    (hu : trim u = u) (hne : u ≠ []) : trim (t ++ u) = t ++ u := by
  have hub : NonBlank u := nonBlank_of_trim_ne_nil (hu.symm ▸ hne)
  unfold trim
  rw [trimStart_append ht, hstart, trimEnd_append hub, trimEnd_eq_self_of_trim hu]

lemma isInitial_trimEnd {t u : Text} (ht : trimEnd t = t) (h : t <+: u) : t <+: trimEnd u := by
  obtain ⟨s, rfl⟩ := h
  by_cases hs : NonBlank s
  · rw [trimEnd_append hs]
    exact List.prefix_append t _
  have hall : ∀ c ∈ s, isWhitespace c = true := by
    intro c hc
    by_contra hws
    exact hs ⟨c, hc, by simpa using hws⟩
  have hend : trimEnd (t ++ s) = trimEnd t := by
    rw [trimEnd_eq_reverse, trimEnd_eq_reverse, List.reverse_append]
    unfold trimStart
    rw [List.dropWhile_append_of_pos (fun c hc => hall c (List.mem_reverse.mp hc))]
  exact ⟨[], by rw [List.append_nil, hend, ht]⟩

lemma trim_isInitial {t u : Text} (ht : NonBlank t) (h : t <+: u) : trim t <+: trim u := by
  apply isInitial_trimEnd (trimEnd_trim t)
  obtain ⟨s, rfl⟩ := h
  rw [trimStart_append ht]
  exact (trimEnd_isInitial _).trans (List.prefix_append _ s)

/-! ## Lines -/

lemma length_stripCr_le (t : Text) : (stripCr t).length ≤ t.length := by
  unfold stripCr
  split
  · simp
  · exact Nat.le_refl _

lemma stripCr_eq_self_iff (t : Text) : stripCr t = t ↔ t.getLast? ≠ some '\r' := by
  unfold stripCr
  split
  · rename_i h
    refine iff_of_false ?_ (fun hne => hne h)
    intro heq
    have hlen := congrArg List.length heq
    have hpos : t ≠ [] := by
      intro hnil
      simp [hnil] at h
    have := List.length_pos_iff.mpr hpos
    simp only [List.length_dropLast] at hlen
    omega
  · rename_i h
    exact iff_of_true rfl h

lemma map_stripCr_eq_self_iff (ls : List Text) :
    ls.map stripCr = ls ↔ ∀ l ∈ ls, l.getLast? ≠ some '\r' := by
  conv_lhs => rw [← List.map_id ls, List.map_map, List.map_inj_left]
  simp only [Function.comp_apply, id, stripCr_eq_self_iff]

lemma stripCr_subset (t : Text) : stripCr t ⊆ t := by
  unfold stripCr
  split
  · exact (List.dropLast_sublist t).subset
  · exact List.Subset.refl t

lemma trim_concat (hc : isWhitespace c = true) (t : Text) : trim (t ++ [c]) = trim t := by
  rw [trim_eq_trimStart_trimEnd, trim_eq_trimStart_trimEnd t]
  unfold trimEnd
  rw [List.rdropWhile_concat_pos isWhitespace t c hc]

lemma trim_stripCr (t : Text) : trim (stripCr t) = trim t := by
  unfold stripCr
  split
  · rename_i h
    obtain ⟨init, rfl⟩ := List.getLast?_eq_some_iff.mp h
    rw [List.dropLast_concat, trim_concat (by decide)]
  · rfl

lemma not_mem_of_mem_splitOn {sep : Char} {t piece : Text} (h : piece ∈ t.splitOn sep) :
    sep ∉ piece := by
  induction t generalizing piece with
  | nil =>
    rw [List.splitOn_nil, List.mem_singleton] at h
    simp [h]
  | cons c t ih =>
    rw [List.splitOn_cons_eq_if_modifyHead] at h
    split at h
    · rcases List.mem_cons.mp h with rfl | h
      · simp
      · exact ih h
    · rename_i hc
      obtain ⟨r, rs, hr⟩ := List.exists_cons_of_ne_nil (List.splitOn_ne_nil sep t)
      rw [hr, List.modifyHead_cons, List.mem_cons] at h
      rcases h with rfl | h
      · intro hmem
        rcases List.mem_cons.mp hmem with rfl | hmem
        · simp at hc
        · exact ih (hr ▸ List.mem_cons_self) hmem
      · exact ih (hr ▸ List.mem_cons_of_mem _ h)

lemma not_mem_of_mem_linesOfPieces {pieces : List Text} {sep : Char} {l : Text}
    (hp : ∀ p ∈ pieces, sep ∉ p) (h : l ∈ linesOfPieces pieces) : sep ∉ l := by
  induction pieces with
  | nil => simp [linesOfPieces] at h
  | cons p ps ih =>
    cases ps with
    | nil =>
      unfold linesOfPieces at h
      split at h
      · simp at h
      · rw [List.mem_singleton] at h
        exact h ▸ hp p List.mem_cons_self
    | cons q qs =>
      unfold linesOfPieces at h
      rcases List.mem_cons.mp h with rfl | h
      · intro hmem
        exact hp p List.mem_cons_self (stripCr_subset p hmem)
      · exact ih (fun p hp' => hp p (List.mem_cons_of_mem _ hp')) h

lemma newline_not_mem_of_mem_lines {t l : Text} (h : l ∈ lines t) : '\n' ∉ l :=
  not_mem_of_mem_linesOfPieces (fun _ hp => not_mem_of_mem_splitOn hp) h

lemma linesOfPieces_append (ps : List Text) {qs : List Text} (hne : qs ≠ []) :
    linesOfPieces (ps ++ qs) = ps.map stripCr ++ linesOfPieces qs := by
  induction ps with
  | nil => rfl
  | cons p ps ih =>
    obtain ⟨q, rest, hq⟩ :=
      List.exists_cons_of_ne_nil (List.append_ne_nil_of_right_ne_nil ps hne)
    rw [List.cons_append, hq, linesOfPieces, ← hq, ih]
    · rfl
    · simp

lemma linesOfPieces_concat (pieces : List Text) {last : Text} (h : last ≠ []) :
    linesOfPieces (pieces ++ [last]) = pieces.map stripCr ++ [last] := by
  rw [linesOfPieces_append pieces (List.cons_ne_nil last []), linesOfPieces, if_neg h]

variable {ls : List Text}

lemma lines_joinLines {last : Text} (hls : ∀ l ∈ ls, '\n' ∉ l)
    (hlast : '\n' ∉ last) (hne : last ≠ []) :
    lines (joinLines (ls ++ [last])) = ls.map stripCr ++ [last] := by
  unfold lines joinLines
  rw [List.splitOn_intercalate '\n' ?_ (by simp), linesOfPieces_concat ls hne]
  intro l hl
  rcases List.mem_append.mp hl with hl | hl
  · exact hls l hl
  · rw [List.mem_singleton.mp hl]
    exact hlast

lemma joinLines_injective {ls ms : List Text} (hls : ∀ l ∈ ls, '\n' ∉ l) (hl : ls ≠ [])
    (hms : ∀ l ∈ ms, '\n' ∉ l) (hm : ms ≠ []) (h : joinLines ls = joinLines ms) : ls = ms := by
  have hsplit := congrArg (List.splitOn '\n') h
  unfold joinLines at hsplit
  rwa [List.splitOn_intercalate '\n' hls hl, List.splitOn_intercalate '\n' hms hm] at hsplit

lemma joinLines_cons {l : Text} (h : ls ≠ []) :
    joinLines (l :: ls) = l ++ '\n' :: joinLines ls := by
  obtain ⟨m, ms, rfl⟩ := List.exists_cons_of_ne_nil h
  simp [joinLines, List.intercalate, List.intersperse]

lemma joinLines_concat {l : Text} (h : ls ≠ []) :
    joinLines (ls ++ [l]) = joinLines ls ++ '\n' :: l := by
  induction ls with
  | nil => exact absurd rfl h
  | cons m ms ih =>
    cases ms with
    | nil => simp [joinLines, List.intercalate, List.intersperse]
    | cons k ks =>
      rw [List.cons_append, joinLines_cons (by simp), ih (by simp),
        joinLines_cons (List.cons_ne_nil k ks), List.append_assoc, List.cons_append]

variable {first last : Text}

lemma trim_joinLines (hfirst : NonBlank first) (hlast : NonBlank last) (mid : List Text) :
    trim (joinLines (first :: (mid ++ [last]))) =
      joinLines (trimStart first :: (mid ++ [trimEnd last])) := by
  have hstart : trimStart (joinLines (first :: (mid ++ [last]))) =
      joinLines (trimStart first :: (mid ++ [last])) := by
    rw [joinLines_cons (by simp), trimStart_append hfirst, joinLines_cons (by simp)]
  have hlast' : NonBlank ('\n' :: last) := by
    obtain ⟨c, hc, hws⟩ := hlast
    exact ⟨c, List.mem_cons_of_mem _ hc, hws⟩
  have hnl : trimEnd ('\n' :: last) = '\n' :: trimEnd last := trimEnd_append hlast ['\n']
  unfold trim
  rw [hstart, ← List.cons_append, joinLines_concat (by simp), trimEnd_append hlast', hnl,
    ← List.cons_append, joinLines_concat (by simp)]

/-! ## Growing texts -/

lemma splitOn_append (sep : Char) (t s : Text) :
    ∃ pieces last s' rest, t.splitOn sep = pieces ++ [last] ∧
      (t ++ s).splitOn sep = pieces ++ (last ++ s') :: rest := by
  induction t with
  | nil =>
    obtain ⟨s', rest, hs⟩ := List.exists_cons_of_ne_nil (List.splitOn_ne_nil sep s)
    exact ⟨[], [], s', rest, List.splitOn_nil sep, hs⟩
  | cons c t ih =>
    obtain ⟨pieces, last, s', rest, ht, hts⟩ := ih
    rw [List.cons_append, List.splitOn_cons_eq_if_modifyHead, List.splitOn_cons_eq_if_modifyHead,
      ht, hts]
    split
    · exact ⟨[] :: pieces, last, s', rest, rfl, rfl⟩
    · cases pieces with
      | nil => exact ⟨[], c :: last, s', rest, rfl, rfl⟩
      | cons p ps => exact ⟨(c :: p) :: ps, last, s', rest, rfl, rfl⟩

lemma isInitial_stripCr {t s : Text} (ht : t.getLast? ≠ some '\r') : t <+: stripCr (t ++ s) := by
  unfold stripCr
  split
  · rename_i h
    cases s with
    | nil =>
      rw [List.append_nil] at h
      exact absurd h ht
    | cons c s =>
      rw [List.dropLast_append_of_ne_nil (List.cons_ne_nil c s)]
      exact List.prefix_append t _
  · exact List.prefix_append t s

lemma isWhitespace_of_trimEnd (ht : trimEnd t = t)
    (hc : t.getLast? = some c) : isWhitespace c = false := by
  obtain ⟨init, rfl⟩ := List.getLast?_eq_some_iff.mp hc
  by_contra hws
  rw [Bool.not_eq_false] at hws
  unfold trimEnd at ht
  rw [List.rdropWhile_concat_pos isWhitespace init c hws] at ht
  have hlen := congrArg List.length ht
  have hle := (List.rdropWhile_prefix isWhitespace init).length_le
  rw [List.length_append, List.length_singleton] at hlen
  omega

/-- The lines of a longer text: the last line may grow, and more lines may follow. -/
lemma lines_append (hne : t ≠ []) (ht : trimEnd t = t) (s : Text) :
    ∃ ls last last' rest, lines t = ls ++ [last] ∧ lines (t ++ s) = ls ++ last' :: rest ∧
      last <+: last' := by
  obtain ⟨pieces, last, s', rest, hsplit, hsplit'⟩ := splitOn_append '\n' t s
  have hjoin : joinLines (pieces ++ [last]) = t := by
    rw [← hsplit]
    exact List.intercalate_splitOn '\n'
  -- the last character of the text is no white space, so the last piece ends in it
  have hlast : last.getLast? = t.getLast? := by
    rw [← hjoin]
    cases hp : pieces with
    | nil => simp [joinLines, List.intercalate]
    | cons p ps =>
      rw [joinLines_concat (List.cons_ne_nil p ps), List.getLast?_append, List.getLast?_cons]
      cases hl : last.getLast? with
      | some c => rfl
      | none =>
        rw [List.getLast?_eq_none_iff] at hl
        have hend : t.getLast? = some '\n' := by
          rw [← hjoin, hp, joinLines_concat (List.cons_ne_nil p ps), hl, List.getLast?_append]
          rfl
        exact absurd (isWhitespace_of_trimEnd ht hend) (by decide)
  obtain ⟨c, hc⟩ : ∃ c, t.getLast? = some c := by
    cases h : t.getLast? with
    | none => exact absurd (List.getLast?_eq_none_iff.mp h) hne
    | some c => exact ⟨c, rfl⟩
  have hlne : last ≠ [] := by
    rintro rfl
    rw [hc] at hlast
    cases hlast
  have hcr : last.getLast? ≠ some '\r' := by
    intro h
    exact absurd (isWhitespace_of_trimEnd ht (hlast ▸ h)) (by decide)
  have hlines : lines t = pieces.map stripCr ++ [last] := by
    rw [lines, hsplit, linesOfPieces_concat pieces hlne]
  have hlines' : lines (t ++ s) = pieces.map stripCr ++ linesOfPieces ((last ++ s') :: rest) := by
    rw [lines, hsplit', linesOfPieces_append pieces (List.cons_ne_nil _ _)]
  cases rest with
  | nil =>
    refine ⟨_, last, last ++ s', [], hlines, ?_, List.prefix_append last s'⟩
    rw [hlines', linesOfPieces, if_neg (by simp [hlne])]
  | cons q qs =>
    refine ⟨_, last, stripCr (last ++ s'), linesOfPieces (q :: qs), hlines, ?_,
      isInitial_stripCr hcr⟩
    rw [hlines', linesOfPieces]
    simp

/-! ## Ended lines -/

/-- Lines, each of them ended by a newline. -/
def endLines (ls : List Text) : Text := ls.flatMap (· ++ ['\n'])

@[simp] lemma endLines_nil : endLines [] = [] := rfl

@[simp] lemma endLines_cons (l : Text) (ls : List Text) :
    endLines (l :: ls) = l ++ '\n' :: endLines ls := by
  simp [endLines]

lemma endLines_eq_joinLines (ls : List Text) : endLines ls = joinLines (ls ++ [[]]) := by
  induction ls with
  | nil => rfl
  | cons l ls ih => rw [endLines_cons, ih, List.cons_append, joinLines_cons (by simp)]

lemma lines_endLines (h : ∀ l ∈ ls, '\n' ∉ l) :
    lines (endLines ls) = ls.map stripCr := by
  unfold lines
  rw [endLines_eq_joinLines, joinLines, List.splitOn_intercalate '\n' ?_ (by simp),
    linesOfPieces_append ls (List.cons_ne_nil [] []), linesOfPieces, if_pos rfl, List.append_nil]
  intro l hl
  rcases List.mem_append.mp hl with hl | hl
  · exact h l hl
  · rw [List.mem_singleton.mp hl]
    simp

/-! ## Reading joined lines again -/

/-- Lines that come back unchanged when they are joined, trimmed and split again. -/
structure Settled (ls : List Text) : Prop where
  inner : ∀ l ∈ ls.dropLast, l.getLast? ≠ some '\r'
  first : ∀ l ∈ ls.head?, trimStart l = l
  last : ∀ l ∈ ls.getLast?, trimEnd l = l

instance (ls : List Text) : Decidable (Settled ls) :=
  decidable_of_iff ((∀ l ∈ ls.dropLast, l.getLast? ≠ some '\r') ∧
      (∀ l ∈ ls.head?, trimStart l = l) ∧ ∀ l ∈ ls.getLast?, trimEnd l = l)
    ⟨fun h => ⟨h.1, h.2.1, h.2.2⟩, fun h => ⟨h.inner, h.first, h.last⟩⟩

lemma lines_trim_joinLines {mid : List Text} (hfirst : NonBlank first)
    (hlast : NonBlank last) (hnl : ∀ l ∈ first :: (mid ++ [last]), '\n' ∉ l) :
    lines (trim (joinLines (first :: (mid ++ [last])))) =
      stripCr (trimStart first) :: (mid.map stripCr ++ [trimEnd last]) := by
  have hmid : ∀ l ∈ trimStart first :: mid, '\n' ∉ l := by
    intro l hl
    rcases List.mem_cons.mp hl with rfl | hl
    · intro hmem
      exact hnl first List.mem_cons_self ((trimStart_suffix first).subset hmem)
    · exact hnl l (by simp [hl])
  have hend : '\n' ∉ trimEnd last := by
    intro hmem
    exact hnl last (by simp) ((trimEnd_isInitial last).subset hmem)
  have hne : trimEnd last ≠ [] := by
    obtain ⟨c, hc, hws⟩ := hlast
    intro hnil
    have := List.rdropWhile_eq_nil_iff.mp hnil c hc
    rw [this] at hws
    cases hws
  rw [trim_joinLines hfirst hlast, ← List.cons_append, lines_joinLines hmid hend hne]
  rfl

/-- Lines with non-blank ends come back unchanged exactly if they are settled. -/
lemma lines_trim_joinLines_eq_iff {mid : List Text} (hfirst : NonBlank first)
    (hlast : NonBlank last) (hnl : ∀ l ∈ first :: (mid ++ [last]), '\n' ∉ l) :
    lines (trim (joinLines (first :: (mid ++ [last])))) = first :: (mid ++ [last]) ↔
      Settled (first :: (mid ++ [last])) := by
  have hdrop : (first :: (mid ++ [last])).dropLast = first :: mid := by
    rw [← List.cons_append, List.dropLast_concat]
  have hget : (first :: (mid ++ [last])).getLast? = some last := by
    rw [← List.cons_append, List.getLast?_concat]
  -- both steps only shorten the first line, so it survives only if neither changes it
  have hfirst_iff : stripCr (trimStart first) = first ↔
      trimStart first = first ∧ first.getLast? ≠ some '\r' := by
    constructor
    · intro h
      have hle := length_stripCr_le (trimStart first)
      rw [h] at hle
      have hstart : trimStart first = first := (trimStart_suffix first).eq_of_length_le hle
      rw [hstart] at h
      exact ⟨hstart, (stripCr_eq_self_iff first).mp h⟩
    · intro ⟨hstart, hcr⟩
      rw [hstart]
      exact (stripCr_eq_self_iff first).mpr hcr
  rw [lines_trim_joinLines hfirst hlast hnl, List.cons.injEq, hfirst_iff]
  constructor
  · intro ⟨⟨hstart, hcr⟩, hrest⟩
    obtain ⟨hmid, hend⟩ := List.append_inj' hrest rfl
    constructor
    · rw [hdrop]
      intro l hl
      rcases List.mem_cons.mp hl with rfl | hl
      · exact hcr
      · exact (map_stripCr_eq_self_iff mid).mp hmid l hl
    · simpa using hstart
    · rw [hget]
      simpa using hend
  · intro hs
    have hinner : ∀ l ∈ first :: mid, l.getLast? ≠ some '\r' := hdrop ▸ hs.inner
    have hmid : mid.map stripCr = mid := by
      rw [map_stripCr_eq_self_iff]
      intro l hl
      exact hinner l (List.mem_cons_of_mem _ hl)
    have hend : trimEnd last = last := hs.last last (by rw [hget]; rfl)
    exact ⟨⟨hs.first first rfl, hinner first List.mem_cons_self⟩, by rw [hmid, hend]⟩

/-! ## Numbers -/

lemma toDigits_injective : Function.Injective (Nat.toDigits 10) := by
  intro m n h
  calc m = Nat.ofDigitChars 10 (Nat.toDigits 10 m) 0 := Nat.ofDigitChars_ten_toDigits.symm
    _ = Nat.ofDigitChars 10 (Nat.toDigits 10 n) 0 := by rw [h]
    _ = n := Nat.ofDigitChars_ten_toDigits

/-! ## White space around a text -/

/-- A text of white space. -/
def Blank (t : Text) : Prop := ∀ c ∈ t, isWhitespace c = true

lemma trim_blank_append {before t after : Text} (hbefore : Blank before) (hafter : Blank after) :
    trim (before ++ t ++ after) = trim t := by
  have hstart : ∀ {b u : Text}, Blank b → trimStart (b ++ u) = trimStart u := fun hb =>
    List.dropWhile_append_of_pos hb
  have hend : ∀ {b u : Text}, Blank b → trimEnd (u ++ b) = trimEnd u := by
    intro b u hb
    rw [trimEnd_eq_reverse, List.reverse_append, hstart fun c hc => hb c (List.mem_reverse.mp hc),
      ← trimEnd_eq_reverse]
  rw [trim_eq_trimStart_trimEnd, hend hafter, ← trim_eq_trimStart_trimEnd, trim, hstart hbefore, ← trim]

lemma exists_blank_append (t : Text) :
    ∃ before after, t = before ++ trim t ++ after ∧ Blank before ∧ Blank after := by
  refine ⟨t.takeWhile isWhitespace, (trimStart t).rtakeWhile isWhitespace, ?_, ?_, ?_⟩
  · have hsplit : trim t ++ (trimStart t).rtakeWhile isWhitespace = trimStart t :=
      List.rdropWhile_append_rtakeWhile
    rw [List.append_assoc, hsplit]
    exact List.takeWhile_append_dropWhile.symm
  · exact fun c hc => List.mem_takeWhile_imp hc
  · exact fun c hc => List.mem_rtakeWhile_imp hc

lemma length_trim_le (t : Text) : (trim t).length ≤ t.length :=
  (trimEnd_isInitial _).length_le.trans (trimStart_suffix t).length_le

lemma trim_eq_self_of_length (h : t.length ≤ (trim t).length) : trim t = t := by
  obtain ⟨before, after, heq, -, -⟩ := exists_blank_append t
  have hlength := congrArg List.length heq
  rw [List.length_append, List.length_append] at hlength
  have hbefore : before = [] := List.eq_nil_of_length_eq_zero (by omega)
  have hafter : after = [] := List.eq_nil_of_length_eq_zero (by omega)
  rw [hbefore, hafter, List.nil_append, List.append_nil] at heq
  exact heq.symm

/-! ## The start of a text -/

lemma stripPrefix_append (marker t : Text) : stripPrefix marker (marker ++ t) = some t := by
  simp [stripPrefix]

lemma isInitial_of_stripPrefix {marker t rest : Text} (h : stripPrefix marker t = some rest) :
    marker <+: t := by
  unfold stripPrefix at h
  split at h
  · rename_i hstart
    exact List.isPrefixOf_iff_prefix.mp hstart
  · cases h

lemma head?_of_isInitial {marker t : Text} (h : marker <+: t) (hne : marker ≠ []) :
    t.head? = marker.head? := by
  obtain ⟨s, rfl⟩ := h
  obtain ⟨c, u, rfl⟩ := List.exists_cons_of_ne_nil hne
  rfl

lemma not_isInitial_of_stripPrefix {marker t : Text} (h : stripPrefix marker t = none) : ¬ marker <+: t := by
  intro hinit
  unfold stripPrefix at h
  rw [if_pos (List.isPrefixOf_iff_prefix.mpr hinit)] at h
  cases h

/-! ## Separators -/

lemma takeWhile_append_cons {p : Char → Bool} {s : Text} (hs : ∀ x ∈ s, p x = true)
    (hc : p c = false) (t : Text) :
    (s ++ c :: t).takeWhile p = s ∧ (s ++ c :: t).dropWhile p = c :: t := by
  rw [List.takeWhile_append_of_pos hs, List.dropWhile_append_of_pos hs]
  simp [hc]

lemma takeWhile_ne_append_cons {s : Text} (hs : c ∉ s) (t : Text) :
    (s ++ c :: t).takeWhile (· != c) = s ∧ (s ++ c :: t).dropWhile (· != c) = c :: t :=
  takeWhile_append_cons (fun _ hx => bne_iff_ne.mpr (ne_of_mem_of_not_mem hx hs)) (by simp) t

lemma eq_and_eq_of_append_cons_eq {t t' u u' : Text} (ht : c ∉ t) (ht' : c ∉ t')
    (h : t ++ c :: u = t' ++ c :: u') : t = t' ∧ u = u' := by
  have heq : t = t' := by
    rw [← (takeWhile_ne_append_cons ht u).1, h, (takeWhile_ne_append_cons ht' u').1]
  subst heq
  exact ⟨rfl, List.cons.inj (List.append_cancel_left h) |>.2⟩

lemma eq_and_eq_of_append_cons_eq' {t t' u u' : Text} (hu : c ∉ u) (hu' : c ∉ u')
    (h : t ++ c :: u = t' ++ c :: u') : t = t' ∧ u = u' := by
  have hrev : u.reverse ++ c :: t.reverse = u'.reverse ++ c :: t'.reverse := by
    simpa using congrArg List.reverse h
  obtain ⟨hlast, hbefore⟩ := eq_and_eq_of_append_cons_eq (by simpa using hu) (by simpa using hu') hrev
  exact ⟨List.reverse_injective hbefore, List.reverse_injective hlast⟩

end Text

end Supercodex
