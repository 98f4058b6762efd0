import Supercodex.Library.Effects
import Supercodex.Composer.ChatComposer
import Supercodex.Composer.TextAreaTheorems

/-!
# Steps of the composer (`tui/src/bottom_pane/chat_composer.rs`)

What the composer itself makes of the document in its text area. Slash commands become elements and
cease to be ones; no other element is touched by that.
-/

namespace Supercodex.Composer

open Positions Document Text TextArea

variable {s s' : TextArea} {d : List (Piece ℕ)}

lemma Edited.trans {s₁ s₂ s₃ : TextArea} {d₁ d₂ d₃ : List (Piece ℕ)} (h : Edited s₁ d₁ s₂ d₂)
    (h' : Edited s₂ d₂ s₃ d₃) : Edited s₁ d₁ s₃ d₃ :=
  ⟨h'.shown, fun hcursor => h'.boundary (h.boundary hcursor), fun hcursor => h'.cut (h.cut hcursor)⟩

namespace TextArea

/-! ## Elements and their texts -/

lemma WellFormed.exists_shows (h : s.WellFormed) : ∃ d, Shows s d := by
  obtain ⟨d, htext, hmarks, hsolid⟩ := exists_of_marks (L := ℕ) 0 h.sorted fun e he => by
    obtain ⟨hlt, -, hstart, hstop⟩ := h.ranges e he
    exact ⟨hlt, Nat.zero_le _, isCharBoundary_iff.mp hstart, isCharBoundary_iff.mp hstop⟩
  exact ⟨d, htext.symm, hmarks.symm, hsolid⟩

lemma namedTexts_def (s : TextArea) :
    s.namedTexts = s.elements.filterMap fun e => (get s.text e.range).map fun t => (e.id, t) := by
  rw [namedTexts, textElementSnapshots, List.map_filterMap]
  refine List.filterMap_congr fun e _ => ?_
  rw [Option.map_map]
  rfl

lemma elementPayloads_eq (s : TextArea) : s.elementPayloads = s.namedTexts.map Prod.snd := by
  rw [elementPayloads, namedTexts_def, List.map_filterMap]
  refine List.filterMap_congr fun e _ => ?_
  rw [Option.map_map]
  exact Option.map_id'.symm

lemma get_element (h : Shows s d) {e : TextElement} (he : e ∈ s.elements) :
    ∃ t, get s.text e.range = some t ∧ t ≠ [] := by
  rw [h.elements] at he
  obtain ⟨d₁, t, d₂, hd, hrange⟩ := mem_marks.mp he
  refine ⟨t, ?_, h.solid e.id t (by rw [hd]; simp)⟩
  rw [h.text]
  exact get_mark hd (by rw [hrange, Nat.zero_add])

lemma map_fst_namedTexts (h : Shows s d) : s.namedTexts.map Prod.fst = s.elements.map (·.id) := by
  rw [namedTexts_def, List.map_filterMap, ← List.filterMap_eq_map]
  refine List.filterMap_congr fun e he => ?_
  obtain ⟨t, hget, -⟩ := get_element h he
  rw [hget]
  rfl

/-! ## Slash commands -/

/-- The text of a slash command. -/
def IsSlash (t : Text) : Prop := t.head? = some '/'

instance : DecidablePred IsSlash := fun t => inferInstanceAs (Decidable (t.head? = some '/'))

/-- The elements that are no slash commands. -/
def others (s : TextArea) : List (ℕ × Text) := s.namedTexts.filter fun e => ¬IsSlash e.2

lemma mem_others {e : ℕ × Text} : e ∈ s.others ↔ e ∈ s.namedTexts ∧ ¬IsSlash e.2 := by
  rw [others, List.mem_filter, decide_eq_true_eq]

lemma isSlash_iff {t : Text} : IsSlash t ↔ (stripPrefix ['/'] t).isSome = true := by
  rw [IsSlash, stripPrefix]
  cases t with
  | nil => simp
  | cons c t =>
    simp only [List.head?_cons, Option.some.injEq, List.isPrefixOf_cons_cons, List.isPrefixOf_nil_left,
      Bool.and_true, beq_iff_eq]
    constructor
    · rintro rfl
      rfl
    · intro h
      split at h
      case isTrue heq => exact heq.symm
      case isFalse => cases h

lemma clampRange_of_get {range : Span} {t : Text} (hget : get s.text range = some t) :
    s.clampRange range = range := by
  obtain ⟨u, v, htext, hstart, hstop⟩ := get_eq_some_iff.mp hget
  have hboundary : IsBoundary s.text range.start := ⟨u, t ++ v, by rw [htext, List.append_assoc], hstart⟩
  have hboundary' : IsBoundary s.text range.stop := ⟨u ++ t, v, htext, hstop⟩
  rw [clampRange, Nat.min_eq_left hboundary.le_len, Nat.min_eq_left hboundary'.le_len,
    clampPosToCharBoundary_of_boundary hboundary, clampPosToCharBoundary_of_boundary hboundary']

lemma removeElementRange_text (s : TextArea) (range : Span) :
    (s.removeElementRange range).2.text = s.text ∧
      (s.removeElementRange range).2.cursorPos = s.cursorPos := by
  rw [removeElementRange]
  split <;> exact ⟨rfl, rfl⟩

lemma removeElementRange_slash {range : Span} {t : Text} (hget : get s.text range = some t)
    (ht : IsSlash t) : (s.removeElementRange range).2.others = s.others := by
  have hlt : range.start < range.stop := by
    obtain ⟨u, v, -, hstart, hstop⟩ := get_eq_some_iff.mp hget
    have hpos : 0 < len t := len_pos (by rintro rfl; cases ht)
    rw [len_append] at hstop
    omega
  have hkept : (s.removeElementRange range).2.elements = s.elements.filter fun e =>
      e.range.start ≠ range.start || e.range.stop ≠ range.stop := by
    rw [removeElementRange, clampRange_of_get hget]
    rw [if_neg (by omega)]
  rw [others, others, namedTexts_def, namedTexts_def, (removeElementRange_text s range).1, hkept, List.filterMap_filter,
    List.filter_filterMap, List.filter_filterMap]
  refine List.filterMap_congr fun e _ => ?_
  split
  case isTrue => rfl
  case isFalse hdropped =>
    have hrange : e.range = range := by
      simp only [Bool.or_eq_true, decide_eq_true_eq, not_or, not_not] at hdropped
      obtain ⟨id, start, stop⟩ := e
      rw [Span.mk.injEq]
      exact hdropped
    rw [hrange, hget, Option.map_some, Option.filter_some, if_neg (by simpa using ht)]
    rfl

lemma foldl_removeElementRange (h : Shows s d) {ranges : List Span}
    (hranges : ∀ range ∈ ranges, ∃ t, get s.text range = some t ∧ IsSlash t)
    (hs' : ranges.foldl (fun s range => (s.removeElementRange range).2) s = s') :
    ∃ d', Shows s' d' ∧ s'.text = s.text ∧ s'.cursorPos = s.cursorPos ∧ s'.others = s.others := by
  induction ranges generalizing s d with
  | nil =>
    cases hs'
    exact ⟨d, h, rfl, rfl, rfl⟩
  | cons range ranges ih =>
    obtain ⟨t, hget, ht⟩ := hranges range List.mem_cons_self
    obtain ⟨d₁, hedited, -⟩ := removeElementRange_spec h range
    obtain ⟨htext, hcursor⟩ := removeElementRange_text s range
    obtain ⟨d', hshown, htext', hcursor', hothers⟩ := ih hedited.shown (fun range hrange => by
      rw [htext]
      exact hranges range (List.mem_cons_of_mem _ hrange)) hs'
    refine ⟨d', hshown, htext'.trans htext, hcursor'.trans hcursor, ?_⟩
    rw [hothers, removeElementRange_slash hget ht]

lemma addElementRange_slash (h : Shows s d) (hslash : IsSlash s.text) (stop : ℕ) :
    ∃ d', Shows (s.addElementRange ⟨0, stop⟩).2 d' ∧ (s.addElementRange ⟨0, stop⟩).2.text = s.text ∧
      (s.addElementRange ⟨0, stop⟩).2.cursorPos = s.cursorPos ∧
      (s.addElementRange ⟨0, stop⟩).2.others = s.others := by
  rcases addElementRange_spec h ⟨0, stop⟩ with hnone | ⟨-, d₁, text, d₂, rfl, hstart, -, hadded, htext, hcursor⟩
  · rw [hnone]
    exact ⟨d, h, rfl, rfl, rfl⟩
  refine ⟨_, hadded, htext, hcursor, ?_⟩
  have hzero : s.clampPosToCharBoundary 0 = 0 := clampPosToCharBoundary_of_boundary (isBoundary_zero _)
  have hnil : d₁ = [] := by
    refine eq_nil_of_size (solid_append.mp (solid_append.mp h.solid).1).1 ?_
    rw [← hstart, clampRange, Nat.zero_min, hzero]
  have hne : text ≠ [] := hadded.solid s.nextElementId text (by simp)
  have htextSlash : IsSlash text := by
    obtain ⟨c, text, rfl⟩ := List.exists_cons_of_ne_nil hne
    rw [h.text, hnil, textOf_append, textOf_append, textOf_plain] at hslash
    exact hslash
  rw [others, others, namedTexts_eq hadded, namedTexts_eq h, hnil, List.nil_append, List.nil_append,
    atoms_append, atoms_plain, atoms, List.nil_append, List.filter_cons_of_neg (by simpa using htextSlash)]

end TextArea

namespace ChatComposer

variable {c c' : ChatComposer} {config : Config}

lemma isSlash_of_range {line : Text} {range : Span}
    (h : slashCommandElementRange config c line = some range) :
    TextArea.IsSlash line ∧ range.start = 0 := by
  rw [slashCommandElementRange] at h
  split at h
  · cases h
  rw [Effects.bind_eq_some] at h
  obtain ⟨⟨name, rest, n⟩, hparse, h⟩ := h
  rw [parseSlashName, Effects.bind_eq_some] at hparse
  obtain ⟨stripped, hstripped, -⟩ := hparse
  refine ⟨isSlash_iff.mpr (Option.isSome_of_eq_some hstripped), ?_⟩
  dsimp only at h
  split at h
  · cases h
  split at h
  · cases h
  split at h
  · cases h
    rfl
  · cases h

/-- Syncing leaves the text, the cursor and all elements but the slash commands. -/
structure Synced (s s' : TextArea) : Prop where
  text : s'.text = s.text
  cursorPos : s'.cursorPos = s.cursorPos
  others : s'.others = s.others

/-- `sync_slash_command_elements` only touches slash commands. -/
theorem syncSlashCommandElements_spec (config : Config) (h : Shows c.textarea d) :
    ∃ textarea d', c.syncSlashCommandElements config = { c with textarea := textarea } ∧
      Shows textarea d' ∧ Synced c.textarea textarea := by
  rw [syncSlashCommandElements]
  split
  case isTrue => exact ⟨c.textarea, d, rfl, h, rfl, rfl, rfl⟩
  case isFalse =>
    dsimp only
    have hstale : ∀ range ∈ (((c.textarea.textElements.filter fun elem =>
          ((elem.placeholderIn c.textarea.text).bind (stripPrefix ['/'])).isSome).filter fun elem =>
            c.slashCommandElementRange config (c.textarea.text.takeWhile (· ≠ '\n')) ≠ some elem.byteRange).map
              (·.byteRange)), ∃ t, get c.textarea.text range = some t ∧ TextArea.IsSlash t := by
      intro range hrange
      obtain ⟨elem, helem, rfl⟩ := List.mem_map.mp hrange
      obtain ⟨helem, hslash⟩ := List.mem_filter.mp (List.mem_of_mem_filter helem)
      obtain ⟨e, he, rfl⟩ := List.mem_map.mp helem
      obtain ⟨t, hget, -⟩ := get_element h he
      rw [UserTextElement.placeholderIn, hget] at hslash
      exact ⟨t, hget, isSlash_iff.mpr hslash⟩
    generalize hremoved : List.foldl (fun s range => (removeElementRange s range).2) c.textarea _ = removed
    obtain ⟨d₁, hshown, htext, hcursor, hothers⟩ := foldl_removeElementRange h hstale hremoved
    split
    case h_1 range hrange =>
      obtain ⟨hslash, hstart⟩ := isSlash_of_range hrange
      have hremovedSlash : TextArea.IsSlash removed.text := by
        rw [htext, TextArea.IsSlash]
        rw [TextArea.IsSlash] at hslash
        cases htext : c.textarea.text with
        | nil =>
          rw [htext] at hslash
          cases hslash
        | cons a t =>
          rw [htext, List.takeWhile_cons] at hslash
          split at hslash
          · exact hslash
          · cases hslash
      obtain ⟨start, stop⟩ := range
      obtain rfl : start = 0 := hstart
      obtain ⟨d₂, hadded, htext', hcursor', hothers'⟩ :=
        addElementRange_slash hshown hremovedSlash stop
      split
      · exact ⟨removed, d₁, rfl, hshown, htext, hcursor, hothers⟩
      · exact ⟨_, d₂, rfl, hadded, htext'.trans htext, hcursor'.trans hcursor, hothers'.trans hothers⟩
    case h_2 => exact ⟨removed, d₁, rfl, hshown, htext, hcursor, hothers⟩

/-! ## Dropping elements -/

lemma dropElement_eq (c : ChatComposer) (removedAnyImage : Bool) (removed : Text) :
    dropElement (c, removedAnyImage) removed = ({ c with
      pendingPastes := c.pendingPastes.filter fun paste => paste.1 ≠ removed
      attachedImages := c.attachedImages.eraseP fun image => image.placeholder == removed },
      removedAnyImage || c.attachedImages.any fun image => image.placeholder == removed) := by
  rw [dropElement, List.eraseP_eq_eraseIdx]
  split
  case h_1 idx hfind =>
    have hany : c.attachedImages.any (fun image => image.placeholder == removed) = true := by
      rw [← List.findIdx?_isSome, hfind]
      rfl
    rw [hfind, hany, Bool.or_true]
  case h_2 hfind =>
    have hany : c.attachedImages.any (fun image => image.placeholder == removed) = false := by
      rw [← List.findIdx?_isSome, hfind]
      rfl
    rw [hfind, hany, Bool.or_false]

lemma eraseP_eq_filter {images : List AttachedImage} (h : (images.map (·.placeholder)).Nodup) (removed : Text) :
    (images.eraseP fun image => image.placeholder == removed) =
      images.filter fun image => image.placeholder ≠ removed := by
  induction images with
  | nil => rfl
  | cons image images ih =>
    rw [List.map_cons, List.nodup_cons] at h
    by_cases heq : image.placeholder = removed
    · rw [List.eraseP_cons_of_pos (by simpa using heq), List.filter_cons_of_neg (by simpa using heq),
        List.filter_eq_self.mpr]
      intro image' himage'
      refine decide_eq_true fun heq' => h.1 ?_
      rw [heq, ← heq']
      exact List.mem_map_of_mem himage'
    · rw [List.eraseP_cons_of_neg (by simpa using heq), List.filter_cons_of_pos (by simpa using heq), ih h.2]

/-- Dropping elements drops what is pending for them, and the images that they stand for. -/
lemma foldl_dropElement (removed : List Text) (c : ChatComposer) (removedAnyImage : Bool) :
    ∃ images removedAny, removed.foldl dropElement (c, removedAnyImage) = ({ c with
        pendingPastes := c.pendingPastes.filter fun paste => paste.1 ∉ removed
        attachedImages := images }, removedAny) ∧ images.Sublist c.attachedImages ∧
      ((c.attachedImages.map (·.placeholder)).Nodup →
        images = c.attachedImages.filter (fun image => image.placeholder ∉ removed) ∧
        (removedAny = true ↔ removedAnyImage = true ∨
          ∃ image ∈ c.attachedImages, image.placeholder ∈ removed)) := by
  induction removed generalizing c removedAnyImage with
  | nil => exact ⟨c.attachedImages, removedAnyImage, by simp, List.Sublist.refl _, by simp⟩
  | cons first removed ih =>
    rw [List.foldl_cons, dropElement_eq]
    obtain ⟨images, removedAny, hfold, hsub, hnodup⟩ := ih { c with
      pendingPastes := c.pendingPastes.filter fun paste => paste.1 ≠ first
      attachedImages := c.attachedImages.eraseP fun image => image.placeholder == first }
      (removedAnyImage || c.attachedImages.any fun image => image.placeholder == first)
    refine ⟨images, removedAny, ?_, hsub.trans List.eraseP_sublist, fun hdistinct => ?_⟩
    · have hpending : (c.pendingPastes.filter fun paste => paste.1 ≠ first).filter
          (fun paste => paste.1 ∉ removed) = c.pendingPastes.filter fun paste => paste.1 ∉ first :: removed := by
        rw [List.filter_filter]
        refine List.filter_congr fun paste _ => ?_
        simp only [List.mem_cons, not_or, Bool.decide_and, Bool.and_comm]
      rw [hfold, hpending]
    · obtain ⟨himages, hremoved⟩ := hnodup (hdistinct.sublist (List.eraseP_sublist.map _))
      rw [eraseP_eq_filter hdistinct] at himages hremoved
      constructor
      · rw [himages, List.filter_filter]
        refine List.filter_congr fun image _ => ?_
        simp only [List.mem_cons, not_or, Bool.decide_and, Bool.and_comm]
      · rw [hremoved, Bool.or_eq_true, List.any_eq_true]
        simp only [List.mem_filter, List.mem_cons, beq_iff_eq, decide_eq_true_eq]
        constructor
        · rintro ((h | ⟨image, himage, heq⟩) | ⟨image, ⟨himage, -⟩, hmem⟩)
          · exact .inl h
          · exact .inr ⟨image, himage, .inl heq⟩
          · exact .inr ⟨image, himage, .inr hmem⟩
        · rintro (h | ⟨image, himage, hmem⟩)
          · exact .inl (.inl h)
          · by_cases heq : image.placeholder = first
            · exact .inl (.inr ⟨image, himage, heq⟩)
            · exact .inr ⟨image, ⟨himage, heq⟩, hmem.resolve_left heq⟩

end ChatComposer

end Supercodex.Composer
