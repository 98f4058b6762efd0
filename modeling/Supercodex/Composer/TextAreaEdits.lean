import Supercodex.Library.Effects
import Supercodex.Composer.TextAreaPositions

/-!
# Edits of a text area (`tui/src/bottom_pane/textarea.rs`)

What each edit makes of the document that a text area shows: the pieces under the range give way to plain
text, and all other pieces stay.
-/

namespace Supercodex.Composer

open Positions Document Text

/-- What an operation makes of a text area that shows a document: it shows another one, and its cursor
stays between two characters, and outside all elements, where it was before. -/
structure Edited (s : TextArea) (d : List (Piece ℕ)) (s' : TextArea) (d' : List (Piece ℕ)) : Prop where
  shown : Shows s' d'
  boundary : IsBoundary s.text s.cursorPos → IsBoundary s'.text s'.cursorPos
  cut : Cut d s.cursorPos → Cut d' s'.cursorPos

namespace TextArea

variable {s s' : TextArea} {d d' d₁ mid d₂ : List (Piece ℕ)}

lemma edited_refl (h : Shows s d) : Edited s d s d := ⟨h, id, id⟩

lemma edited_of_cut (h : Shows s' d') (hcursor : Cut d' s'.cursorPos) : Edited s d s' d' := by
  refine ⟨h, fun _ => ?_, fun _ => hcursor⟩
  rw [h.text]
  exact hcursor.isBoundary

/-! ## Replacing and inserting text -/

lemma offset_eq (pos : ℕ) {before after x : ℕ} (h : pos + before ≤ x) :
    offset x ((after : ℤ) - before) = x - (pos + before) + (pos + after) := by
  rw [offset]
  omega

/-- The elements before a range stay where they are, those in it are dropped and those after it move. -/
lemma shiftElements_marks (hsolid : Solid (d₁ ++ mid ++ d₂)) (inserted : ℕ) :
    ((marks 0 (d₁ ++ mid ++ d₂)).filter fun e =>
      !(size d₁ ≤ e.range.start && e.range.stop ≤ size d₁ + size mid)).map
        (shiftElement (size d₁) (size mid) inserted) = marks 0 d₁ ++ marks (size d₁ + inserted) d₂ := by
  obtain ⟨hleft, hright⟩ := solid_append.mp hsolid
  obtain ⟨hleft, hmid⟩ := solid_append.mp hleft
  have hbefore : ((marks 0 d₁).filter fun e =>
      !(size d₁ ≤ e.range.start && e.range.stop ≤ size d₁ + size mid)).map
        (shiftElement (size d₁) (size mid) inserted) = marks 0 d₁ := by
    rw [List.filter_eq_self.mpr]
    · refine (List.map_congr_left fun e he => ?_).trans (List.map_id _)
      have hbounds := marks_bounds hleft he
      rw [shiftElement, if_pos (by omega)]
      rfl
    · intro e he
      have hbounds := marks_bounds hleft he
      simp only [Bool.not_eq_true', Bool.and_eq_false_iff, decide_eq_false_iff_not]
      omega
  have hdropped : (marks (0 + size d₁) mid).filter (fun e =>
      !(size d₁ ≤ e.range.start && e.range.stop ≤ size d₁ + size mid)) = [] := by
    refine List.filter_eq_nil_iff.mpr fun e he => ?_
    have hbounds := marks_bounds hmid he
    simp only [Bool.not_eq_true', Bool.not_eq_false, Bool.and_eq_true, decide_eq_true_eq]
    omega
  have hafter : ((marks (0 + size (d₁ ++ mid)) d₂).filter fun e =>
      !(size d₁ ≤ e.range.start && e.range.stop ≤ size d₁ + size mid)).map
        (shiftElement (size d₁) (size mid) inserted) = marks (size d₁ + inserted) d₂ := by
    rw [List.filter_eq_self.mpr]
    · rw [marks_move (0 + size (d₁ ++ mid)) (size d₁ + inserted)]
      refine List.map_congr_left fun e he => ?_
      have hbounds := marks_bounds hright he
      rw [size_append] at hbounds ⊢
      rw [shiftElement, if_neg (by omega), if_pos (by omega), offset_eq (size d₁) (by omega),
        offset_eq (size d₁) (by omega), Nat.zero_add]
    · intro e he
      have hbounds := marks_bounds hright he
      rw [size_append] at hbounds
      simp only [Bool.not_eq_true', Bool.and_eq_false_iff, decide_eq_false_iff_not]
      omega
  rw [marks_append, marks_append, List.filter_append, List.filter_append, List.map_append,
    List.map_append, hbefore, hdropped, hafter, List.map_nil, List.append_nil]

lemma shows_replaced (h : Shows s (d₁ ++ mid ++ d₂)) (text : Text)
    (htext : s'.text = textOf d₁ ++ text ++ textOf d₂)
    (helements : s'.elements = (s.shiftElements (size d₁) (size mid) (len text)).elements) :
    Shows s' (d₁ ++ plain text ++ d₂) where
  text := by rw [htext, textOf_append, textOf_append, textOf_plain]
  elements := by
    rw [helements, shiftElements, h.elements, shiftElements_marks h.solid, marks_append, marks_append,
      marks_plain, List.append_nil, size_append, size_plain, Nat.zero_add]
  solid := by
    obtain ⟨hleft, hright⟩ := solid_append.mp h.solid
    exact solid_append.mpr ⟨solid_append.mpr ⟨(solid_append.mp hleft).1, solid_plain text⟩, hright⟩

variable {range : Span}

lemma replaceRange_textOf (mid : List (Piece ℕ)) {new t : Text}
    (hstart : range.start = size d₁) (hstop : range.stop = size d₁ + size mid)
    (happly : Positions.replaceRange (textOf (d₁ ++ mid ++ d₂)) range new = some t) :
    t = textOf d₁ ++ new ++ textOf d₂ := by
  obtain ⟨u, m, v, htext, hu, hm, rfl⟩ := replaceRange_eq_some_iff.mp happly
  rw [textOf_append, textOf_append, List.append_assoc, List.append_assoc] at htext
  obtain ⟨rfl, hrest⟩ := append_injective htext (by rw [hu, hstart, size])
  rw [len_append, hstop, size, size] at hm
  obtain ⟨-, hv⟩ := append_injective hrest (by omega)
  rw [hv]

variable {text : Text}

/-- `replace_range_raw` on a range of whole pieces. -/
lemma replaceRangeRaw_spec (h : Shows s (d₁ ++ mid ++ d₂))
    (hstart : range.start = size d₁) (hstop : range.stop = size d₁ + size mid)
    (happly : s.replaceRangeRaw range text = some s') :
    Edited s (d₁ ++ mid ++ d₂) s' (d₁ ++ plain text ++ d₂) := by
  have hlen : size d₁ + size mid ≤ len s.text := by
    rw [h.text, ← size, size_append, size_append]
    omega
  rw [replaceRangeRaw, if_pos (by omega)] at happly
  simp only [hstart, hstop, Nat.min_eq_left hlen, Nat.min_eq_left (show size d₁ ≤ len s.text by omega),
    Nat.add_sub_cancel_left] at happly
  split at happly
  case isTrue hnothing =>
    cases happly
    have hmid : mid = [] := by
      refine eq_nil_of_size ?_ hnothing.1
      exact (solid_append.mp (solid_append.mp h.solid).1).2
    rw [hmid] at h ⊢
    rw [eq_nil_of_len hnothing.2]
    exact edited_refl h
  case isFalse =>
    rw [Effects.bind_eq_some] at happly
    obtain ⟨newText, hnew, happly⟩ := happly
    rw [h.text] at hnew
    have htext := replaceRange_textOf mid hstart hstop hnew
    cases happly
    refine edited_of_cut ?_ ?_
    · exact shows_replaced h text htext rfl
    · apply cut_clampPosToNearestBoundary
      exact shows_replaced h text htext rfl

/-- `insert_str_at`: the text comes in at a cut. -/
lemma insertStrAt_spec (h : Shows s d) {pos : ℕ} (happly : s.insertStrAt pos text = some s') :
    ∃ d₁ d₂, d = d₁ ++ d₂ ∧ size d₁ = s.clampPosForInsertion pos ∧
      Edited s d s' (d₁ ++ plain text ++ d₂) ∧ s'.nextElementId = s.nextElementId := by
  obtain ⟨d₁, d₂, rfl, hsize⟩ := cut_clampPosForInsertion h pos
  refine ⟨d₁, d₂, rfl, hsize, ?_⟩
  rw [insertStrAt] at happly
  simp only [Effects.bind_eq_some, ← hsize] at happly
  obtain ⟨newText, hnew, happly⟩ := happly
  cases happly
  have h' : Shows s (d₁ ++ [] ++ d₂) := by
    rw [List.append_nil]
    exact h
  rw [Positions.insertStr, h'.text] at hnew
  have htext := replaceRange_textOf [] rfl rfl hnew
  refine ⟨⟨shows_replaced h' text htext rfl, ?_, ?_⟩, rfl⟩
  · intro hcursor
    show IsBoundary newText (if size d₁ ≤ s.cursorPos then s.cursorPos + len text else s.cursorPos)
    rw [h.text, textOf_append, ← cut_plain (L := ℕ), plain_append] at hcursor
    have hinserted := (hcursor.insert (plain text)).isBoundary
    rw [size_plain, size_plain, ← size] at hinserted
    rw [htext]
    simpa using hinserted
  · intro hcursor
    have hinserted := hcursor.insert (plain text)
    rwa [size_plain] at hinserted

/-- `replace_range`: the pieces under the range, and those of the elements at its edges, give way. -/
lemma replaceRange_spec (h : Shows s d)
    (hstart : IsBoundary s.text range.start) (hstop : IsBoundary s.text range.stop)
    (happly : s.replaceRange range text = some s') :
    ∃ d₁ mid d₂, d = d₁ ++ mid ++ d₂ ∧ Edited s d s' (d₁ ++ plain text ++ d₂) := by
  rw [replaceRange] at happly
  have hle : (s.expandRangeToElementBoundaries range).start ≤
      (s.expandRangeToElementBoundaries range).stop := by
    by_contra hgt
    rw [replaceRangeRaw, if_neg hgt] at happly
    cases happly
  obtain ⟨hcut, hcut'⟩ := cut_expandRange h hstart hstop hle
  obtain ⟨d₁, mid, d₂, rfl, hsize, hsize'⟩ := hcut.cut hcut' hle
  rw [size_append] at hsize'
  exact ⟨d₁, mid, d₂, rfl, replaceRangeRaw_spec h hsize.symm hsize'.symm happly⟩

/-- `kill_range` removes what `replace_range` would. -/
lemma killRange_spec (h : Shows s d)
    (hstart : IsBoundary s.text range.start) (hstop : IsBoundary s.text range.stop)
    (happly : s.killRange range = some s') :
    ∃ d₁ mid d₂, d = d₁ ++ mid ++ d₂ ∧ Edited s d s' (d₁ ++ plain [] ++ d₂) := by
  have hnothing : ∃ d₁ mid d₂, d = d₁ ++ mid ++ d₂ ∧ Edited s d s (d₁ ++ plain [] ++ d₂) :=
    ⟨d, [], [], by simp, by simpa [plain] using edited_refl h⟩
  rw [killRange] at happly
  split at happly
  case isTrue =>
    cases happly
    exact hnothing
  case isFalse hlt =>
    rw [Effects.bind_eq_some] at happly
    obtain ⟨removed, -, happly⟩ := happly
    split at happly
    case isTrue =>
      cases happly
      exact hnothing
    case isFalse =>
      have hle : (s.expandRangeToElementBoundaries range).start ≤
          (s.expandRangeToElementBoundaries range).stop := by omega
      obtain ⟨hcut, hcut'⟩ := cut_expandRange h hstart hstop hle
      obtain ⟨d₁, mid, d₂, rfl, hsize, hsize'⟩ := hcut.cut hcut' hle
      rw [size_append] at hsize'
      have hkilled : Shows { s with killBuffer := removed } (d₁ ++ mid ++ d₂) :=
        ⟨h.text, h.elements, h.solid⟩
      obtain ⟨hshown, hboundary, hcursor⟩ := replaceRangeRaw_spec hkilled hsize.symm hsize'.symm happly
      exact ⟨d₁, mid, d₂, rfl, hshown, hboundary, hcursor⟩

lemma setCursor_spec (h : Shows s d) (pos : ℕ) : Edited s d (s.setCursor pos) d :=
  edited_of_cut ⟨h.text, h.elements, h.solid⟩ (cut_clampPosToNearestBoundary h _)

/-! ## Adding elements -/

lemma sortElements_pairwise (elements : List TextElement) :
    (sortElements elements).Pairwise fun e e' => e.range.start ≤ e'.range.start := by
  have htotal : Std.Total fun e e' : TextElement => e.range.start ≤ e'.range.start :=
    ⟨fun e e' => Nat.le_total ..⟩
  have htrans : IsTrans TextElement fun e e' => e.range.start ≤ e'.range.start :=
    ⟨fun e e' e'' => Nat.le_trans⟩
  exact List.pairwise_insertionSort _ elements

lemma sortElements_eq {elements sorted : List TextElement} (hperm : elements.Perm sorted)
    (hsorted : sorted.Pairwise fun e e' => e.range.start < e'.range.start) :
    sortElements elements = sorted := by
  have hle := sortElements_pairwise elements
  have hperm' : (sortElements elements).Perm sorted := (List.perm_insertionSort _ elements).trans hperm
  have hsorted' : sorted.Pairwise fun e e' => e.range.start ≤ e'.range.start := hsorted.imp Nat.le_of_lt
  refine List.Perm.eq_of_pairwise ?_ hle hsorted' hperm'
  have hdistinct : (sorted.map fun e => e.range.start).Nodup :=
    List.pairwise_map.mpr (hsorted.imp Nat.ne_of_lt)
  intro e e' he he' hlo hhi
  exact List.inj_on_of_nodup_map hdistinct (hperm'.subset he) he' (le_antisymm hlo hhi)

/-- `add_element` makes an atom of plain text. -/
lemma addElement_spec (h : Shows s (d₁ ++ plain text ++ d₂)) (htext : text ≠ []) :
    Shows (s.addElement ⟨size d₁, size d₁ + len text⟩).2 (d₁ ++ .atom s.nextElementId text :: d₂) := by
  have hsolid : Solid (d₁ ++ .atom s.nextElementId text :: d₂) := by
    obtain ⟨hleft, hright⟩ := solid_append.mp h.solid
    exact solid_append.mpr ⟨(solid_append.mp hleft).1, solid_cons htext hright⟩
  refine ⟨?_, ?_, hsolid⟩
  · show s.text = _
    rw [h.text, textOf_append, textOf_append, textOf_plain, textOf_append, textOf_atom, List.append_assoc]
  · refine sortElements_eq ?_ (marks_starts 0 hsolid)
    have hmarks : marks 0 (d₁ ++ .atom s.nextElementId text :: d₂) = marks 0 d₁ ++
        ⟨s.nextElementId, ⟨size d₁, size d₁ + len text⟩⟩ :: marks (size d₁ + len text) d₂ := by
      rw [marks_append, marks, Nat.zero_add]
    have hbefore : s.elements = marks 0 d₁ ++ marks (size d₁ + len text) d₂ := by
      rw [h.elements, marks_append, marks_append, marks_plain, List.append_nil, size_append, size_plain,
        Nat.zero_add]
    rw [hmarks]
    show (s.elements ++ [_]).Perm _
    rw [hbefore]
    exact (List.perm_append_singleton _ _).trans List.perm_middle.symm

/-- `insert_element`: an atom comes in at a cut. -/
lemma insertElement_spec (h : Shows s d) (htext : text ≠ []) {id : ℕ}
    (happly : s.insertElement text = some (id, s')) :
    ∃ d₁ d₂, d = d₁ ++ d₂ ∧ id = s.nextElementId ∧ Edited s d s' (d₁ ++ .atom id text :: d₂) := by
  rw [insertElement, Effects.bind_eq_some] at happly
  obtain ⟨inserted, hinserted, happly⟩ := happly
  obtain ⟨d₁, d₂, rfl, hsize, hedited, hid⟩ := insertStrAt_spec h hinserted
  rw [clampPosForInsertion_of_cut h (cut_clampPosForInsertion h _)] at hsize
  rw [← hsize] at happly
  have hadded := addElement_spec hedited.shown htext
  cases happly
  refine ⟨d₁, d₂, rfl, hid, ?_⟩
  obtain ⟨hshown, -, -⟩ := setCursor_spec hadded (size d₁ + len text)
  exact edited_of_cut hshown (cut_clampPosToNearestBoundary hadded _)

/-- `add_element_range` makes an atom of the text under the range, unless an element is there. -/
lemma addElementRange_spec (h : Shows s d) (range : Span) :
    s.addElementRange range = (none, s) ∨
      s.overlapsElement (s.clampRange range) = false ∧ ∃ d₁ text d₂, d = d₁ ++ plain text ++ d₂ ∧
        (s.clampRange range).start = size d₁ ∧ (s.clampRange range).stop = size d₁ + len text ∧
        Shows (s.addElementRange range).2 (d₁ ++ .atom s.nextElementId text :: d₂) ∧
        (s.addElementRange range).2.text = s.text ∧
        (s.addElementRange range).2.cursorPos = s.cursorPos := by
  have hstart : IsBoundary s.text (s.clampRange range).start := clampPosToCharBoundary_boundary s _
  have hstop : IsBoundary s.text (s.clampRange range).stop := clampPosToCharBoundary_boundary s _
  rw [addElementRange]
  generalize s.clampRange range = range at hstart hstop ⊢
  split
  case isTrue => exact .inl rfl
  case isFalse hlt =>
    split
    case isTrue => exact .inl rfl
    case isFalse =>
      split
      case isTrue => exact .inl rfl
      case isFalse hoverlap =>
        rw [Bool.not_eq_true] at hoverlap
        have hclear : ∀ e ∈ marks 0 d, ¬(range.start < e.range.stop ∧ e.range.start < range.stop) := by
          intro e he hmeets
          rw [← h.elements] at he
          rw [overlapsElement, List.any_eq_false] at hoverlap
          have hprop := hoverlap e he
          rw [Bool.and_eq_true, decide_eq_true_eq, decide_eq_true_eq] at hprop
          exact hprop hmeets
        have hcutStart : Cut d range.start := by
          rw [cut_iff h.solid, ← h.text]
          refine ⟨hstart, fun e he hinside => hclear e he ?_⟩
          omega
        have hcutStop : Cut d range.stop := by
          rw [cut_iff h.solid, ← h.text]
          refine ⟨hstop, fun e he hinside => hclear e he ?_⟩
          omega
        obtain ⟨d₁, mid, d₂, rfl, hsize, hsize'⟩ := hcutStart.cut hcutStop (by omega)
        rw [size_append] at hsize'
        have hmid : marks (size d₁) mid = [] := by
          refine List.eq_nil_iff_forall_not_mem.mpr fun e he => hclear e ?_ ?_
          · rw [marks_append, marks_append, Nat.zero_add]
            exact List.mem_append_left _ (List.mem_append_right _ he)
          · have hbounds := marks_bounds (solid_append.mp (solid_append.mp h.solid).1).2 he
            omega
        have hplain := eq_plain_of_marks hmid
        have hlen : size mid = len (textOf mid) := rfl
        rw [hplain] at h ⊢
        have htext : textOf mid ≠ [] := by
          intro hnil
          rw [hlen, hnil, len_nil] at hsize'
          omega
        refine .inr ⟨hoverlap, d₁, textOf mid, d₂, rfl, hsize.symm, by omega, ?_, rfl, rfl⟩
        have hadded := addElement_spec h htext
        rw [← hlen, hsize', hsize] at hadded
        exact hadded

/-- `remove_element_range` takes atoms for plain text. -/
lemma removeElementRange_spec (h : Shows s d) (range : Span) :
    ∃ d', Edited s d (s.removeElementRange range).2 d' ∧ (atoms d').Sublist (atoms d) := by
  rw [removeElementRange]
  generalize s.clampRange range = range
  split
  case isTrue => exact ⟨d, edited_refl h, List.Sublist.refl _⟩
  case isFalse =>
    have hsub : (s.elements.filter fun e =>
        e.range.start ≠ range.start || e.range.stop ≠ range.stop).Sublist (marks 0 d) := by
      rw [h.elements]
      exact List.filter_sublist
    generalize (s.elements.filter fun e =>
      e.range.start ≠ range.start || e.range.stop ≠ range.stop) = kept at hsub
    obtain ⟨d', htext, hmarks, hsolid⟩ := exists_of_marks (t := textOf d) 0
      ((marks_pairwise 0 h.solid).sublist hsub) fun m hm => by
        have hmem := hsub.subset hm
        have hbounds := marks_bounds h.solid hmem
        obtain ⟨hstart, hstop⟩ := cut_of_mark hmem
        exact ⟨hbounds.2.1, hbounds.1, hstart.isBoundary, hstop.isBoundary⟩
    refine ⟨d', ⟨⟨?_, hmarks.symm, hsolid⟩, fun hcursor => hcursor, fun hcursor => ?_⟩, ?_⟩
    · show s.text = textOf d'
      rw [h.text, htext]
    · rw [cut_iff hsolid, htext, hmarks]
      rw [cut_iff h.solid] at hcursor
      exact ⟨hcursor.1, fun m hm => hcursor.2 m (hsub.subset hm)⟩
    · exact atoms_sublist htext (hmarks ▸ hsub)

/-! ## Renaming an element -/

/-- Renaming leaves the elements before where they are and moves those after. -/
lemma shiftAfterRename_marks {id : ℕ} {old : Text} (hsolid : Solid (d₁ ++ .atom id old :: d₂)) (new : Text) :
    (marks 0 (d₁ ++ .atom id old :: d₂)).mapIdx (fun j e =>
      if j = (marks 0 d₁).length then { e with range := ⟨size d₁, size d₁ + len new⟩ }
      else if (len new : ℤ) - len old = 0 then e
      else shiftAfterRename (size d₁) (size d₁ + len old) (len new) ((len new : ℤ) - len old) e) =
        marks 0 (d₁ ++ .atom id new :: d₂) := by
  obtain ⟨hleft, hright⟩ := solid_append.mp hsolid
  have hright : Solid d₂ := fun id t ht => hright id t (List.mem_cons_of_mem _ ht)
  rw [marks_append, marks_append, marks, marks, List.mapIdx_append, List.mapIdx_cons]
  simp only [Nat.zero_add]
  congr 1
  · refine List.ext_getElem (by simp) fun j hj hj' => ?_
    rw [List.length_mapIdx] at hj
    have hbounds := marks_bounds hleft (List.getElem_mem hj)
    rw [List.getElem_mapIdx, if_neg (by omega)]
    split
    · rfl
    · rw [shiftAfterRename, if_pos (by omega)]
  · congr 1
    rw [marks_move (size d₁ + len old) (size d₁ + len new)]
    refine List.ext_getElem (by simp) fun j hj hj' => ?_
    rw [List.length_mapIdx] at hj
    have hbounds := marks_bounds hright (List.getElem_mem hj)
    rw [List.getElem_mapIdx, List.getElem_map, if_neg (by omega)]
    generalize (marks (size d₁ + len old) d₂)[j] = e at hbounds
    obtain ⟨e, start, stop⟩ := e
    dsimp only at hbounds ⊢
    split
    case isTrue heq =>
      have hstart : start - (size d₁ + len old) + (size d₁ + len new) = start := by omega
      have hstop : stop - (size d₁ + len old) + (size d₁ + len new) = stop := by omega
      rw [hstart, hstop]
    case isFalse =>
      rw [shiftAfterRename, if_neg (by dsimp only; omega), if_pos (by dsimp only; omega),
        offset_eq (size d₁) (by dsimp only; omega), offset_eq (size d₁) (by dsimp only; omega)]

/-- `replace_element_payload` gives the first element with the old text the new one. -/
lemma replaceElementPayload_spec (h : Shows s d) {old new : Text} (hnew : new ≠ []) {found : Bool}
    (happly : s.replaceElementPayload old new = some (found, s')) :
    (found = false ∧ s' = s ∧ ∀ e ∈ atoms d, e.2 ≠ old) ∨
      found = true ∧ ∃ d₁ id d₂, d = d₁ ++ .atom id old :: d₂ ∧ (∀ e ∈ atoms d₁, e.2 ≠ old) ∧
        Edited s d s' (d₁ ++ .atom id new :: d₂) := by
  have hatoms {before after : List (Piece ℕ)} (hd : d = before ++ after)
      (hnone : ∀ m ∈ marks 0 before, (get s.text m.range == some old) = false) :
      ∀ e ∈ atoms before, e.2 ≠ old := by
    rintro ⟨id, t⟩ he rfl
    rw [← marks_texts [] before (textOf after), textOf_nil, List.nil_append, ← textOf_append, ← hd, ← h.text,
      List.mem_filterMap] at he
    obtain ⟨m, hm, hget⟩ := he
    obtain ⟨t', hget, hpair⟩ := Option.map_eq_some_iff.mp hget
    cases hpair
    have hfalse := hnone m hm
    rw [hget, beq_self_eq_true] at hfalse
    cases hfalse
  rw [replaceElementPayload] at happly
  split at happly
  case h_1 hfind =>
    cases happly
    refine .inl ⟨rfl, rfl, hatoms (List.append_nil d).symm fun m hm => ?_⟩
    rw [List.findIdx?_eq_none_iff] at hfind
    exact hfind m (h.elements ▸ hm)
  case h_2 idx hfind =>
    rw [List.findIdx?_eq_some_iff_getElem] at hfind
    obtain ⟨hidx, hold, hfirst⟩ := hfind
    have hsplit : marks 0 d = s.elements.take idx ++ s.elements[idx] :: s.elements.drop (idx + 1) := by
      rw [← h.elements, List.getElem_cons_drop, List.take_append_drop]
    obtain ⟨d₁, t, d₂, hd, hrange, hbefore, -⟩ := marks_split hsplit
    have hget : get s.text s.elements[idx].range = some t := by
      rw [h.text]
      rw [Nat.zero_add] at hrange
      exact get_mark hd hrange
    have ht : t = old := by
      rw [hget] at hold
      exact Option.some.inj (eq_of_beq hold)
    have hlength : (marks 0 d₁).length = idx := by
      rw [hbefore, List.length_take]
      omega
    have hbeforeTexts : ∀ e ∈ atoms d₁, e.2 ≠ old := by
      refine hatoms hd fun m hm => ?_
      rw [hbefore, List.mem_take_iff_getElem] at hm
      obtain ⟨j, hj, rfl⟩ := hm
      exact Bool.eq_false_iff.mpr (hfirst j (by omega))
    subst ht
    generalize s.elements[idx].id = id at hd
    have hsolid : Solid (d₁ ++ .atom id new :: d₂) := by
      obtain ⟨hleft, hright⟩ := solid_append.mp (hd ▸ h.solid)
      exact solid_append.mpr ⟨hleft, solid_cons hnew fun id t ht => hright id t (List.mem_cons_of_mem _ ht)⟩
    refine .inr ?_
    rw [List.getElem?_eq_getElem hidx] at happly
    simp only [Option.bind_eq_bind, Option.bind_some, hrange, Nat.zero_add, Nat.add_sub_cancel_left] at happly
    have hsize : size d₁ + len t ≤ len s.text := by
      rw [h.text, ← size, hd, size_append, size_atom]
      omega
    rw [if_neg (by omega)] at happly
    simp only [Option.bind_eq_some_iff] at happly
    obtain ⟨newText, hreplace, happly⟩ := happly
    have htext : newText = textOf d₁ ++ new ++ textOf d₂ := by
      rw [h.text, hd, ← List.singleton_append, ← List.append_assoc] at hreplace
      refine replaceRange_textOf [.atom id t] ?_ ?_ hreplace
      · rfl
      · rw [size_atom, size_nil, Nat.add_zero]
    have helements := shiftAfterRename_marks (hd ▸ h.solid) new
    rw [← hd, ← h.elements, hlength] at helements
    rw [helements] at happly
    cases happly
    refine ⟨rfl, d₁, id, d₂, hd, hbeforeTexts, edited_of_cut ⟨?_, ?_, hsolid⟩ ?_⟩
    · show newText = _
      rw [htext, textOf_append, textOf_atom, List.append_assoc]
    · exact sortElements_eq (List.Perm.refl _) (marks_starts 0 hsolid)
    · apply cut_clampPosToNearestBoundary
      refine ⟨?_, rfl, hsolid⟩
      show newText = _
      rw [htext, textOf_append, textOf_atom, List.append_assoc]

/-! ## Setting the text -/

/-- Two ranges without a common byte. -/
def Disjoint (r r' : Span) : Prop :=
  ∀ pos, ¬((r.start ≤ pos ∧ pos < r.stop) ∧ r'.start ≤ pos ∧ pos < r'.stop)

lemma Disjoint.apart {r r' : Span} (h : Disjoint r r') (hr : r.start < r.stop) (hr' : r'.start < r'.stop) :
    r.stop ≤ r'.start ∨ r'.stop ≤ r.start := by
  by_contra hmeet
  have hcommon := h (max r.start r'.start)
  omega

lemma pushElement_of_empty {r : Span} (h : (s.clampRange r).stop ≤ (s.clampRange r).start) :
    s.pushElement r = s := if_pos h

lemma pushElement_of_lt {r : Span} (h : ¬(s.clampRange r).stop ≤ (s.clampRange r).start) :
    s.pushElement r = { s with
      nextElementId := min (s.nextElementId + 1) maxId
      elements := s.elements ++ [⟨s.nextElementId, s.clampRange r⟩] } := if_neg h

/-- The elements that `set_text_inner` pushes. -/
lemma foldl_pushElement (s : TextArea) (ranges : List Span) :
    (ranges.foldl pushElement s).text = s.text ∧
      (ranges.foldl pushElement s).elements.map (·.range) =
        s.elements.map (·.range) ++ (ranges.map s.clampRange).filter fun r => r.start < r.stop := by
  induction ranges generalizing s with
  | nil => exact ⟨rfl, (List.append_nil _).symm⟩
  | cons r ranges ih =>
    obtain ⟨htext, helements⟩ := ih (s.pushElement r)
    have hpushed : (s.pushElement r).text = s.text ∧ (s.pushElement r).elements.map (·.range) =
        s.elements.map (·.range) ++ [s.clampRange r].filter fun r => r.start < r.stop := by
      by_cases hle : (s.clampRange r).stop ≤ (s.clampRange r).start
      · rw [pushElement_of_empty hle, List.filter_cons_of_neg (by simpa using hle), List.filter_nil,
          List.append_nil]
        exact ⟨rfl, rfl⟩
      · rw [pushElement_of_lt hle, List.filter_cons_of_pos (by simpa using hle), List.filter_nil]
        exact ⟨rfl, List.map_append⟩
    have hclamp : (s.pushElement r).clampRange = s.clampRange := by
      funext r'
      rw [clampRange, clampRange, clampPosToCharBoundary, clampPosToCharBoundary, clampPosToCharBoundary,
        clampPosToCharBoundary, hpushed.1]
    rw [List.foldl_cons, htext, helements, hclamp, hpushed.2, hpushed.1, List.append_assoc,
      ← List.filter_append, List.map_cons, List.singleton_append]
    exact ⟨rfl, rfl⟩

lemma exists_of_apart {elements : List TextElement} (hapart : elements.Pairwise fun e e' =>
      e.range.stop ≤ e'.range.start ∨ e'.range.stop ≤ e.range.start)
    (hranges : ∀ e ∈ elements, e.range.start < e.range.stop ∧ IsBoundary text e.range.start ∧
      IsBoundary text e.range.stop) :
    ∃ d, textOf d = text ∧ marks 0 d = sortElements elements ∧ Solid d := by
  have hperm : (sortElements elements).Perm elements := List.perm_insertionSort _ elements
  have hle := sortElements_pairwise elements
  have hapart' : (sortElements elements).Pairwise fun e e' =>
      e.range.stop ≤ e'.range.start ∨ e'.range.stop ≤ e.range.start :=
    hperm.symm.pairwise hapart fun h => h.symm
  have hsorted : (sortElements elements).Pairwise fun e e' => e.range.stop ≤ e'.range.start := by
    refine (hle.and hapart').imp_of_mem fun {e e'} _ he' hboth => ?_
    have hrange := (hranges e' (hperm.subset he')).1
    omega
  refine exists_of_marks 0 hsorted fun e he => ?_
  obtain ⟨hlt, hstart, hstop⟩ := hranges e (hperm.subset he)
  exact ⟨hlt, Nat.zero_le _, hstart, hstop⟩

/-- `set_text_clearing_elements` makes plain text of the document. -/
lemma setTextClearingElements_spec (s : TextArea) (d : List (Piece ℕ)) (text : Text) :
    Edited s d (s.setTextClearingElements text) (plain text) := by
  have hcleared : Shows { s with text := text, cursorPos := min s.cursorPos (len text), elements := [] }
      (plain text) :=
    ⟨(textOf_plain text).symm, (marks_plain 0 text).symm, solid_plain text⟩
  exact edited_of_cut ⟨hcleared.text, hcleared.elements, hcleared.solid⟩
    (cut_clampPosToNearestBoundary hcleared _)

/-- `set_text_with_elements` with elements whose ranges are pairwise disjoint. -/
lemma setTextWithElements_spec (s : TextArea) (d : List (Piece ℕ)) (text : Text) {ranges : List Span}
    (hdisjoint : ranges.Pairwise Disjoint) : ∃ d', Edited s d (s.setTextWithElements text ranges) d' := by
  set cleared : TextArea :=
    { s with text := text, cursorPos := min s.cursorPos (len text), elements := [] } with hcleared
  obtain ⟨htext, helements⟩ := foldl_pushElement cleared ranges
  have hne {r : Span} (hlt : (cleared.clampRange r).start < (cleared.clampRange r).stop) :
      r.start < r.stop := by
    by_contra hge
    have hmono := cleared.clampPosToCharBoundary_mono
      (show min r.stop (len text) ≤ min r.start (len text) by omega)
    exact absurd hlt (Nat.not_lt.mpr hmono)
  have hsorted : ∃ d, textOf d = text ∧
      marks 0 d = sortElements (ranges.foldl pushElement cleared).elements ∧ Solid d := by
    set pushed := ranges.foldl pushElement cleared with hpushed
    rw [hcleared, List.map_nil, List.nil_append, ← hcleared] at helements
    refine exists_of_apart ?_ fun e he => ?_
    · rw [← List.pairwise_map (f := fun e : TextElement => e.range) (R := fun r r' : Span =>
        r.stop ≤ r'.start ∨ r'.stop ≤ r.start), helements, List.pairwise_filter, List.pairwise_map]
      refine hdisjoint.imp fun {r r'} h hlt hlt' => ?_
      rw [decide_eq_true_eq] at hlt hlt'
      rcases h.apart (hne hlt) (hne hlt') with hle | hle
      · exact .inl (cleared.clampPosToCharBoundary_mono (by omega))
      · exact .inr (cleared.clampPosToCharBoundary_mono (by omega))
    · have hrange : e.range ∈ pushed.elements.map (·.range) := List.mem_map_of_mem he
      rw [helements, List.mem_filter, decide_eq_true_eq, List.mem_map] at hrange
      obtain ⟨⟨r, -, hr⟩, hlt⟩ := hrange
      rw [← hr] at hlt ⊢
      exact ⟨hlt, cleared.clampPosToCharBoundary_boundary _, cleared.clampPosToCharBoundary_boundary _⟩
  obtain ⟨d', htext', hmarks, hsolid⟩ := hsorted
  have hshown : Shows { ranges.foldl pushElement cleared with
      elements := sortElements (ranges.foldl pushElement cleared).elements } d' :=
    ⟨htext.trans htext'.symm, hmarks.symm, hsolid⟩
  refine ⟨d', edited_of_cut ⟨hshown.text, hshown.elements, hshown.solid⟩ ?_⟩
  exact cut_clampPosToNearestBoundary hshown _

end TextArea

end Supercodex.Composer
