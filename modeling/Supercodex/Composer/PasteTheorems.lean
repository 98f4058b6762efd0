import Supercodex.Composer.Pastes
import Supercodex.Composer.RelabelTheorems

/-!
# Large pastes (`tui/src/bottom_pane/chat_composer.rs`)

Whatever is typed, deleted and pasted, every element of a large paste has its text pending under a label
of its own, so that walking the elements expands each of them by what was pasted for it. Replacing the
labels in the text does the same as long as no label occurs elsewhere in it.
-/

namespace Supercodex.Composer

open Positions Document Text Runs ChatComposer TextArea

variable {crates : Crates} {config : Config} {s s' : TextArea} {c c' : ChatComposer}

/-! ## Labels -/

/-- The text of a label of a large paste begins like this. -/
def isPaste (t : Text) : Bool := ['[', 'P'].isPrefixOf t

lemma largePastePlaceholder_eq (charCount suffix : ℕ) :
    largePastePlaceholder charCount suffix = "[Pasted Content".toList ++ ' ' ::
      (Nat.toDigits 10 charCount ++ ' ' :: ("chars]".toList ++
        if suffix = 1 then [] else " #".toList ++ Nat.toDigits 10 suffix)) := by
  unfold largePastePlaceholder
  split <;> simp

lemma isPaste_label (charCount suffix : ℕ) :
    isPaste (largePastePlaceholder charCount suffix) = true := by
  rw [largePastePlaceholder_eq]
  rfl

lemma isPaste_image (n : ℕ) : isPaste (localImageLabelText n) = false := by
  rw [localImageLabelText_cons]
  rfl

lemma space_not_mem_digits (n : ℕ) : ' ' ∉ Nat.toDigits 10 n := by
  intro h
  have hdigit := Nat.isDigit_of_mem_toDigits (by decide) (by decide) h
  exact absurd hdigit (by decide)

lemma largePastePlaceholder_injective {charCount charCount' suffix suffix' : ℕ}
    (h : largePastePlaceholder charCount suffix =
      largePastePlaceholder charCount' suffix') : charCount = charCount' ∧ suffix = suffix' := by
  rw [largePastePlaceholder_eq, largePastePlaceholder_eq] at h
  have hrest := (List.cons.inj (List.append_cancel_left h)).2
  obtain ⟨hcount, hend⟩ := eq_and_eq_of_append_cons_eq (space_not_mem_digits _) (space_not_mem_digits _) hrest
  refine ⟨toDigits_injective hcount, ?_⟩
  have hsuffix := List.append_cancel_left hend
  by_cases hone : suffix = 1 <;> by_cases hone' : suffix' = 1
  · rw [hone, hone']
  · rw [if_pos hone, if_neg hone'] at hsuffix
    cases hsuffix
  · rw [if_neg hone, if_pos hone'] at hsuffix
    cases hsuffix
  · rw [if_neg hone, if_neg hone'] at hsuffix
    exact toDigits_injective (List.append_cancel_left hsuffix)

lemma not_isSlash_of_isPaste {t : Text} (h : isPaste t = true) : ¬TextArea.IsSlash t := by
  rw [isPaste, List.isPrefixOf_iff_prefix] at h
  obtain ⟨rest, rfl⟩ := h
  rw [TextArea.IsSlash]
  simp

/-! ## Elements of large pastes -/

namespace TextArea

/-- The elements that stand for large pastes. -/
def pastes (s : TextArea) : List (ℕ × Text) := s.namedTexts.filter fun e => isPaste e.2

lemma mem_pastes {e : ℕ × Text} : e ∈ s.pastes ↔ e ∈ s.namedTexts ∧ isPaste e.2 = true := by
  rw [pastes, List.mem_filter]

lemma pastes_eq_of_others (h : s'.others = s.others) : s'.pastes = s.pastes := by
  have hothers (s : TextArea) : s.pastes = s.others.filter fun e => isPaste e.2 := by
    rw [pastes, others, List.filter_filter]
    refine List.filter_congr fun e _ => ?_
    cases hpaste : isPaste e.2 with
    | true => simp [not_isSlash_of_isPaste hpaste]
    | false => rfl
  rw [hothers, hothers, h]

/-- A text area in shape with some of the large pastes. -/
structure Leaves (s s' : TextArea) : Prop where
  sound : s'.Sound
  pastes : s'.pastes.Sublist s.pastes

end TextArea

/-- An operation that creates no elements. -/
def Op.CreatesNone : Op → Prop
  | .setTextWithElements _ _ => False
  | .insertElement _ => False
  | .addElementRange _ => False
  | .replaceElementPayload _ _ => False
  | _ => True

namespace TextArea

lemma Sound.leaves (hcrates : crates.Documented) (h : s.Sound) {op : Op} (hok : op.Ok s) (hnone : op.CreatesNone)
    (happly : s.apply crates op = some s') : Leaves s s' := by
  obtain ⟨d, hshown, hcursor⟩ := h
  obtain ⟨d', hshown', hcursor', -, hkeeps⟩ := apply_spec hcrates hshown hcursor hok happly
  refine ⟨⟨d', hshown', hcursor'⟩, ?_⟩
  have hsub : (atoms d').Sublist (atoms d) := by
    cases op with
    | setTextClearingElements text =>
      have hnil : atoms d' = [] := hkeeps
      rw [hnil]
      exact List.nil_sublist _
    | setTextWithElements text elements | insertElement text | addElementRange range => exact absurd hnone id
    | replaceElementPayload old new => exact absurd hnone id
    | _ => exact hkeeps
  rw [pastes, pastes, namedTexts_eq hshown, namedTexts_eq hshown']
  exact hsub.filter _

/-- `insert_element` adds one element. -/
lemma Sound.insertElement (h : s.Sound) {text : Text} (htext : text ≠ []) {id : ℕ}
    (happly : s.insertElement text = some (id, s')) : s'.Sound ∧ ∃ left right,
      s.namedTexts = left ++ right ∧ s'.namedTexts = left ++ (id, text) :: right := by
  obtain ⟨d, hshown, hcursor⟩ := h
  obtain ⟨d₁, d₂, rfl, -, hedited⟩ := insertElement_spec hshown htext happly
  refine ⟨⟨_, hedited.shown, hedited.boundary hcursor⟩, atoms d₁, atoms d₂, ?_, ?_⟩
  · rw [namedTexts_eq hshown, atoms_append]
  · rw [namedTexts_eq hedited.shown, atoms_append, atoms]

end TextArea

/-! ## The invariant -/

/-- What holds of the composer after some large pastes: each element of a large paste has its text
pending, and its label is that of no other one. -/
structure Holds (log : List (Text × Text)) (c : ChatComposer) : Prop where
  sound : c.textarea.Sound
  pending : c.pendingPastes.Sublist log
  labels : (log.map Prod.fst).Nodup
  numbered : ∀ label ∈ log.map Prod.fst, ∃ charCount suffix,
    label = ChatComposer.largePastePlaceholder charCount suffix ∧ suffix ≤ c.largePasteCounters charCount
  distinct : (c.textarea.pastes.map Prod.snd).Nodup
  held : ∀ e ∈ c.textarea.pastes, e.2 ∈ c.pendingPastes.map Prod.fst
  images : ∀ image ∈ c.attachedImages, ∃ n, image.placeholder = localImageLabelText n

variable {label : Text}

namespace Holds

variable {log : List (Text × Text)}

/-- Elements may leave the text area, with or without their pending pastes. -/
lemma leaves (h : Holds log c) (hleaves : TextArea.Leaves c.textarea c'.textarea)
    (hcounters : c'.largePasteCounters = c.largePasteCounters)
    (hpending : c'.pendingPastes.Sublist c.pendingPastes)
    (hheld : ∀ e ∈ c'.textarea.pastes, e.2 ∈ c.pendingPastes.map Prod.fst →
      e.2 ∈ c'.pendingPastes.map Prod.fst)
    (himages : ∀ image ∈ c'.attachedImages, ∃ n, image.placeholder = localImageLabelText n) : Holds log c' where
  sound := hleaves.sound
  pending := hpending.trans h.pending
  labels := h.labels
  numbered := by
    rw [hcounters]
    exact h.numbered
  distinct := h.distinct.sublist (hleaves.pastes.map _)
  held e he := hheld e he (h.held e (hleaves.pastes.subset he))
  images := himages

lemma textarea (h : Holds log c) {textarea : TextArea} (hleaves : TextArea.Leaves c.textarea textarea)
    (isBashMode : Bool) : Holds log { c with textarea := textarea, isBashMode := isBashMode } :=
  h.leaves hleaves rfl (List.Sublist.refl _) (fun _ _ hmem => hmem) h.images

lemma syncPopups (h : Holds log c) : Holds log (c.syncPopups config) := by
  obtain ⟨d, hshown, hcursor⟩ := h.sound
  obtain ⟨textarea, d', hsync, hshown', hsynced⟩ := syncSlashCommandElements_spec config hshown
  rw [ChatComposer.syncPopups, hsync]
  refine h.textarea ⟨⟨d', hshown', ?_⟩, ?_⟩ c.isBashMode
  · rw [hsynced.text, hsynced.cursorPos]
    exact hcursor
  · rw [pastes_eq_of_others hsynced.others]

lemma syncBashMode (hcrates : crates.Documented) (h : Holds log c) (happly : c.syncBashModeFromText = some c') :
    Holds log c' := by
  rw [syncBashModeFromText] at happly
  split at happly
  case isTrue hbash =>
    rw [Option.bind_eq_bind, Option.bind_eq_some_iff] at happly
    obtain ⟨textarea, hreplace, happly⟩ := happly
    cases happly
    have hok : (Op.replaceRange ⟨0, 1⟩ []).Ok c.textarea := by
      rw [Bool.and_eq_true, decide_eq_true_eq] at hbash
      obtain ⟨rest, htext⟩ := List.head?_eq_some_iff.mp hbash.2
      refine ⟨isCharBoundary_iff.mpr (isBoundary_zero _), isCharBoundary_iff.mpr ?_⟩
      rw [htext]
      exact ⟨['!'], rest, rfl, rfl⟩
    exact h.textarea (h.sound.leaves hcrates hok trivial hreplace) true
  case isFalse =>
    cases happly
    exact h

lemma insertStr (hcrates : crates.Documented) (h : Holds log c) {text : Text}
    (happly : c.insertStr config text = some c') : Holds log c' := by
  simp only [ChatComposer.insertStr, Option.bind_eq_bind, Option.bind_eq_some_iff] at happly
  obtain ⟨textarea, hinsert, synced, hsync, happly⟩ := happly
  cases happly
  have hinserted := h.textarea (h.sound.leaves hcrates (show (Op.insertStr text).Ok _ from trivial) trivial hinsert) c.isBashMode
  exact (hinserted.syncBashMode hcrates hsync).syncPopups

lemma relabel (h : Holds log c) (happly : c.relabelAttachedImagesAndUpdatePlaceholders = some c') :
    Holds log c' := by
  obtain ⟨d, hshown, hcursor⟩ := h.sound
  obtain ⟨textarea, d', hrelabel, hedited, -, -, hkinds⟩ := relabelAttachedImages_spec hshown
  rw [hrelabel] at happly
  cases happly
  have hpastes : textarea.pastes = c.textarea.pastes := by
    refine hkinds isPaste (fun image himage => ?_) isPaste_image
    obtain ⟨n, hn⟩ := h.images image himage
    rw [hn, isPaste_image]
  refine h.leaves ⟨⟨d', hedited.shown, hedited.boundary hcursor⟩, ?_⟩ rfl (List.Sublist.refl _)
    (fun _ _ hmem => hmem) ?_
  · rw [hpastes]
  · intro image himage
    rw [Composer.numbered, List.mem_mapIdx] at himage
    obtain ⟨idx, hidx, rfl⟩ := himage
    exact ⟨_, rfl⟩

/-- `reconcile_deleted_elements` drops what is pending for elements that are gone. -/
lemma reconcile (h : Holds log c) {elementsBefore : List Text}
    (happly : c.reconcileDeletedElements elementsBefore = some c') : Holds log c' := by
  rw [reconcileDeletedElements] at happly
  obtain ⟨images, removedAny, hfold, hsub, -⟩ := foldl_dropElement
    (elementsBefore.filter (!c.textarea.elementPayloads.contains ·)) c false
  dsimp only at happly
  rw [hfold] at happly
  have hdropped : Holds log { c with
      pendingPastes := c.pendingPastes.filter fun paste =>
        paste.1 ∉ elementsBefore.filter (!c.textarea.elementPayloads.contains ·)
      attachedImages := images } := by
    refine h.leaves ⟨h.sound, List.Sublist.refl _⟩ rfl List.filter_sublist ?_
      fun image himage => h.images image (hsub.subset himage)
    intro e he hmem
    obtain ⟨paste, hpaste, heq⟩ := List.mem_map.mp hmem
    refine List.mem_map.mpr ⟨paste, List.mem_filter.mpr ⟨hpaste, decide_eq_true ?_⟩, heq⟩
    -- the label is still the text of an element
    rw [heq, List.mem_filter, elementPayloads_eq]
    have hpayload : e.2 ∈ c.textarea.namedTexts.map Prod.snd :=
      List.mem_map_of_mem (mem_pastes.mp he).1
    simp [hpayload]
  split at happly
  · exact hdropped.relabel happly
  · cases happly
    exact hdropped

lemma handleInputBasic (hcrates : crates.Documented) (h : Holds log c) {backspace : Bool} {input : Op}
    (hok : input.Ok c.textarea) (hnone : input.CreatesNone)
    (happly : c.handleInputBasic crates backspace input = some c') : Holds log c' := by
  simp only [ChatComposer.handleInputBasic] at happly
  split at happly
  case isTrue =>
    cases happly
    exact h.textarea ⟨h.sound, List.Sublist.refl _⟩ false
  case isFalse =>
    simp only [Option.bind_eq_bind, Option.bind_eq_some_iff] at happly
    obtain ⟨textarea, hedit, synced, hsync, happly⟩ := happly
    have hedited := h.textarea (h.sound.leaves hcrates hok hnone hedit) c.isBashMode
    have hsynced := hedited.syncBashMode hcrates hsync
    split at happly
    · exact hsynced.reconcile happly
    · cases happly
      exact hsynced

lemma handleNonAsciiChar (hcrates : crates.Documented) (h : Holds log c) {input : Op}
    (hok : input.Ok c.textarea) (hnone : input.CreatesNone)
    (happly : c.handleNonAsciiChar crates input = some c') : Holds log c' := by
  simp only [ChatComposer.handleNonAsciiChar, Option.bind_eq_bind, Option.bind_eq_some_iff] at happly
  obtain ⟨textarea, hedit, happly⟩ := happly
  cases happly
  have hleaves := h.sound.leaves hcrates hok hnone hedit
  refine h.leaves hleaves rfl List.filter_sublist (fun e he hmem => ?_) h.images
  obtain ⟨paste, hpaste, heq⟩ := List.mem_map.mp hmem
  refine List.mem_map.mpr ⟨paste, List.mem_filter.mpr ⟨hpaste, contains_iff.mpr ?_⟩, heq⟩
  -- the text of an element is in the text
  have hnamed := (mem_pastes.mp he).1
  rw [namedTexts_def, List.mem_filterMap] at hnamed
  obtain ⟨element, -, hget⟩ := hnamed
  obtain ⟨t, htext, rfl⟩ := Option.map_eq_some_iff.mp hget
  obtain ⟨u, v, htext, -, -⟩ := get_eq_some_iff.mp htext
  exact ⟨u, v, by rw [heq, ← htext]⟩

lemma grabTyped (hcrates : crates.Documented) (h : Holds log c) {startByte : ℕ}
    (hstart : isCharBoundary c.textarea.text startByte) (happly : c.grabTyped startByte = some c') :
    Holds log c' := by
  rw [ChatComposer.grabTyped, Option.bind_eq_bind, Option.bind_eq_some_iff] at happly
  obtain ⟨textarea, hreplace, happly⟩ := happly
  cases happly
  obtain ⟨d, -, hcursor⟩ := id h.sound
  have hok : (Op.replaceRange ⟨startByte, c.textarea.cursorPos⟩ []).Ok c.textarea :=
    ⟨hstart, isCharBoundary_iff.mpr hcursor⟩
  exact h.textarea (h.sound.leaves hcrates hok trivial hreplace) c.isBashMode

lemma attachImage (h : Holds log c) {path : Text} (happly : c.attachImage path = some c') : Holds log c' := by
  simp only [ChatComposer.attachImage, Option.bind_eq_bind, Option.bind_eq_some_iff] at happly
  obtain ⟨⟨id, textarea⟩, hinsert, happly⟩ := happly
  cases happly
  obtain ⟨hsound, left, right, hbefore, hafter⟩ := h.sound.insertElement (localImageLabelText_ne_nil _) hinsert
  have hpastes : textarea.pastes = c.textarea.pastes := by
    rw [pastes, pastes, hbefore, hafter, List.filter_append, List.filter_append,
      List.filter_cons_of_neg (by simp [isPaste_image])]
  refine h.leaves ⟨hsound, ?_⟩ rfl (List.Sublist.refl _) (fun _ _ hmem => hmem) ?_
  · rw [hpastes]
  · intro image himage
    rcases List.mem_append.mp himage with himage | himage
    · exact h.images image himage
    · rw [List.mem_singleton.mp himage]
      exact ⟨_, rfl⟩

lemma label_not_mem (h : Holds log c) (charCount : ℕ) :
    largePastePlaceholder charCount (c.largePasteCounters charCount + 1) ∉ log.map Prod.fst := by
  intro hmem
  obtain ⟨charCount', suffix, hlabel, hle⟩ := h.numbered _ hmem
  obtain ⟨rfl, rfl⟩ := largePastePlaceholder_injective hlabel
  omega

/-- A large paste comes in as an element of its own, with its text pending. -/
lemma largePaste (h : Holds log c) (pasted : Text) {charCount id : ℕ} {textarea : TextArea}
    (hlabel : label = largePastePlaceholder charCount (c.largePasteCounters charCount + 1))
    (hinsert : c.textarea.insertElement label = some (id, textarea)) :
    Holds (log ++ [(label, pasted)]) { c with
      textarea := textarea
      pendingPastes := c.pendingPastes ++ [(label, pasted)]
      largePasteCounters := Function.update c.largePasteCounters charCount
        (c.largePasteCounters charCount + 1) } := by
  have hpaste : isPaste label = true := by
    rw [hlabel]
    exact isPaste_label _ _
  have hnew : label ∉ log.map Prod.fst := by
    rw [hlabel]
    exact h.label_not_mem charCount
  have hne : label ≠ [] := by
    rintro rfl
    cases hpaste
  obtain ⟨hsound, left, right, hbefore, hafter⟩ := h.sound.insertElement hne hinsert
  have hbeforePastes : c.textarea.pastes = (left.filter fun e => isPaste e.2) ++ right.filter fun e => isPaste e.2 := by
    rw [pastes, hbefore, List.filter_append]
  have hafterPastes : textarea.pastes =
      (left.filter fun e => isPaste e.2) ++ (id, label) :: right.filter fun e => isPaste e.2 := by
    rw [pastes, hafter, List.filter_append, List.filter_cons_of_pos (by simpa using hpaste)]
  have hperm : textarea.pastes.Perm ((id, label) :: c.textarea.pastes) := by
    rw [hbeforePastes, hafterPastes]
    exact List.perm_middle
  refine ⟨hsound, ?_, ?_, ?_, ?_, ?_, h.images⟩
  · exact h.pending.append_right _
  · rw [List.map_append, List.map_singleton]
    exact List.nodup_append.mpr ⟨h.labels, List.nodup_singleton _, by
      rintro a ha b hb rfl
      rw [List.mem_singleton.mp hb] at ha
      exact hnew ha⟩
  · intro label' hlabel'
    dsimp only
    rw [List.map_append, List.map_singleton, List.mem_append, List.mem_singleton] at hlabel'
    rcases hlabel' with hlabel' | rfl
    · obtain ⟨charCount', suffix, heq, hle⟩ := h.numbered label' hlabel'
      refine ⟨charCount', suffix, heq, hle.trans ?_⟩
      by_cases hsame : charCount' = charCount
      · rw [hsame, Function.update_self]
        omega
      · rw [Function.update_of_ne hsame]
    · exact ⟨charCount, _, hlabel, by rw [Function.update_self]⟩
  · refine ((hperm.map Prod.snd).nodup_iff).mpr (List.nodup_cons.mpr ⟨?_, h.distinct⟩)
    intro hmem
    obtain ⟨e, he, heq⟩ := List.mem_map.mp hmem
    refine hnew ?_
    have heq : e.2 = label := heq
    rw [← heq]
    exact (h.pending.map Prod.fst).subset (h.held e he)
  · intro e he
    rw [List.map_append, List.map_singleton, List.mem_append, List.mem_singleton]
    rcases List.mem_cons.mp (hperm.subset he) with rfl | he
    · exact .inr rfl
    · exact .inl (h.held e he)

end Holds

/-- The label that a large paste gets. -/
def ChatComposer.pasteLabel (c : ChatComposer) (pasted : Text) : Text :=
  largePastePlaceholder pasted.length (c.largePasteCounters pasted.length + 1)

/-- What a paste of some text makes of the composer. -/
lemma ChatComposer.handlePaste_cases {pasted normalized : Text} (hnormalized : normalized = normalizeLineEnds pasted)
    (happly : c.handlePaste config pasted = some c') :
    ∃ integrated, c' = integrated.syncPopups config ∧
      (largePasteCharThreshold < normalized.length ∧
        (∃ id textarea, c.textarea.insertElement (c.pasteLabel normalized) = some (id, textarea) ∧
          integrated = { c with
            textarea := textarea
            pendingPastes := c.pendingPastes ++ [(c.pasteLabel normalized, normalized)]
            largePasteCounters := Function.update c.largePasteCounters normalized.length
              (c.largePasteCounters normalized.length + 1) }) ∨
      ¬largePasteCharThreshold < normalized.length ∧
        (c.insertStr config normalized = some integrated ∨
          ∃ path attached textarea, c.attachImage path = some attached ∧
            attached.textarea.insertStr [' '] = some textarea ∧
            integrated = { attached with textarea := textarea })) := by
  rw [handlePaste, ← hnormalized] at happly
  split at happly
  case isTrue hlarge =>
    simp only [Option.bind_eq_bind, Option.bind_eq_some_iff] at happly
    obtain ⟨⟨id, textarea⟩, hinsert, integrated, hintegrated, happly⟩ := happly
    exact ⟨integrated, (Option.some.inj happly).symm,
      .inl ⟨hlarge, id, textarea, hinsert, (Option.some.inj hintegrated).symm⟩⟩
  case isFalse hsmall =>
    split at happly
    · simp only [Option.bind_eq_bind, Option.bind_eq_some_iff] at happly
      obtain ⟨attached, hattached, happly⟩ := happly
      split at happly
      · simp only [Option.bind_eq_some_iff] at happly
        obtain ⟨textarea, hspace, integrated, hintegrated, happly⟩ := happly
        rw [handlePasteImagePath] at hattached
        split at hattached
        · cases hattached
        case h_2 path _ =>
          obtain ⟨attached', hattach, hsome⟩ := Option.map_eq_some_iff.mp hattached
          cases hsome
          exact ⟨integrated, (Option.some.inj happly).symm, .inr ⟨hsmall,
            .inr ⟨path, _, textarea, hattach, hspace, (Option.some.inj hintegrated).symm⟩⟩⟩
      · simp only [Option.bind_eq_some_iff] at happly
        obtain ⟨integrated, hinsert, happly⟩ := happly
        exact ⟨integrated, (Option.some.inj happly).symm, .inr ⟨hsmall, .inl hinsert⟩⟩
    · simp only [Option.bind_eq_bind, Option.bind_eq_some_iff] at happly
      obtain ⟨integrated, hinsert, happly⟩ := happly
      exact ⟨integrated, (Option.some.inj happly).symm, .inr ⟨hsmall, .inl hinsert⟩⟩

/-! ## Runs -/

/-- What is done to the composer: text that is typed or inserted, keys that the text area handles,
characters outside ASCII, typed text that is taken for the beginning of a paste, pastes, and what the
display does to the text area. -/
inductive Input where
  | insertStr (text : Text)
  | key (backspace : Bool) (input : Op)
  | nonAscii (input : Op)
  | grabTyped (startByte : ℕ)
  | paste (pasted : Text)
  | syncPopups
  | display (op : Op)

/-- One input. -/
def ChatComposer.input (crates : Crates) (config : Config) (c : ChatComposer) : Input → Option ChatComposer
  | .insertStr text => c.insertStr config text
  | .key backspace input => c.handleInputBasic crates backspace input
  | .nonAscii input => c.handleNonAsciiChar crates input
  | .grabTyped startByte => c.grabTyped startByte
  | .paste pasted => c.handlePaste config pasted
  | .syncPopups => some (c.syncPopups config)
  | .display op => (c.textarea.apply crates op).map fun textarea => { c with textarea := textarea }

/-- Keys create no elements, and what is taken back begins between two characters. -/
def Input.Ok (c : ChatComposer) : Input → Prop
  | .key _ input => input.Ok c.textarea ∧ input.CreatesNone
  | .nonAscii input => input.Ok c.textarea ∧ input.CreatesNone
  | .display op => op.Ok c.textarea ∧ op.CreatesNone
  | .grabTyped startByte => isCharBoundary c.textarea.text startByte
  | _ => True

/-- One input leads from one composer to another. -/
def Composes (crates : Crates) (config : Config) (c : ChatComposer) (input : Input) (c' : ChatComposer) : Prop :=
  c.input crates config input = some c'

/-- The large paste of one input, with the label that it gets and the text that is pasted. -/
def largePasteOf (c : ChatComposer) : Input → Option (Text × Text)
  | .paste pasted =>
    let pasted := ChatComposer.normalizeLineEnds pasted
    if largePasteCharThreshold < pasted.length then some (c.pasteLabel pasted, pasted) else none
  | _ => none

/-- The large pastes of a run. -/
def largePastes (ts : List (Transition ChatComposer Input)) : List (Text × Text) :=
  ts.filterMap fun t => largePasteOf t.before t.label

lemma Holds.input (hcrates : crates.Documented) {log : List (Text × Text)} (h : Holds log c) {input : Input}
    (hok : input.Ok c) (happly : Composes crates config c input c') :
    Holds (log ++ (largePasteOf c input).toList) c' := by
  have hnone (hlog : largePasteOf c input = none) (hholds : Holds log c') :
      Holds (log ++ (largePasteOf c input).toList) c' := by
    rw [hlog, Option.toList_none, List.append_nil]
    exact hholds
  cases input with
  | insertStr text => exact hnone rfl (h.insertStr hcrates happly)
  | key backspace input => exact hnone rfl (h.handleInputBasic hcrates hok.1 hok.2 happly)
  | nonAscii input => exact hnone rfl (h.handleNonAsciiChar hcrates hok.1 hok.2 happly)
  | grabTyped startByte => exact hnone rfl (h.grabTyped hcrates hok happly)
  | syncPopups =>
    cases happly
    exact hnone rfl h.syncPopups
  | display op =>
    obtain ⟨textarea, hedit, rfl⟩ := Option.map_eq_some_iff.mp happly
    exact hnone rfl (h.textarea (h.sound.leaves hcrates hok.1 hok.2 hedit) c.isBashMode)
  | paste pasted =>
    obtain ⟨integrated, rfl, ⟨hlarge, id, textarea, hinsert, rfl⟩ | ⟨hsmall, hrest⟩⟩ :=
      handlePaste_cases rfl happly
    · rw [largePasteOf, if_pos hlarge, Option.toList_some]
      exact (h.largePaste (normalizeLineEnds pasted) rfl hinsert).syncPopups
    refine hnone (if_neg hsmall) ?_
    rcases hrest with hinsert | ⟨path, attached, textarea, hattach, hspace, rfl⟩
    · exact (h.insertStr hcrates hinsert).syncPopups
    · have hattached := h.attachImage hattach
      have hleaves := hattached.sound.leaves hcrates (show (Op.insertStr [' ']).Ok _ from trivial) trivial hspace
      exact (hattached.textarea hleaves attached.isBashMode).syncPopups

/-- The invariant holds after every run. -/
theorem holds_of_run (hcrates : crates.Documented) {ts : List (Transition ChatComposer Input)}
    (run : RunWhere (Composes crates config) (fun c input => input.Ok c) .new ts c) :
    Holds (largePastes ts) c := by
  obtain ⟨run, hok⟩ := run
  induction run with
  | nil =>
    exact ⟨sound_new, List.Sublist.refl _, List.nodup_nil, fun _ h => absurd h List.not_mem_nil,
      List.nodup_nil, fun _ h => absurd h List.not_mem_nil, fun _ h => absurd h List.not_mem_nil⟩
  | @snoc ts c c' input run taken ih =>
    have hbefore := ih fun t ht => hok t (List.mem_append_left _ ht)
    have hlast : input.Ok c := hok ⟨c, input, c'⟩ (by simp)
    rw [largePastes, List.filterMap_append, ← largePastes]
    have hsingle : List.filterMap (fun t : Transition ChatComposer Input => largePasteOf t.before t.label)
        [⟨c, input, c'⟩] = (largePasteOf c input).toList := by
      cases hpaste : largePasteOf c input <;> simp [hpaste]
    rw [hsingle]
    exact hbefore.input hcrates hlast taken

/-! ## Both expansions -/

/-- The text in which each element of a large paste is replaced by what was pasted, and the elements that
are kept, each with the bytes that its text takes there. -/
structure Expands (pastes : List (Text × Text)) (c : ChatComposer) (text : Text)
    (elements : List UserTextElement) : Prop where
  replaced : ∃ d, Shows c.textarea d ∧ text = textOf (expand (fun t => pastes.lookup t) (c.document d))
  kept : elements.map (·.placeholder) =
    (c.textarea.namedTexts.filter fun e => (pastes.lookup e.2).isNone).map fun e => some e.2
  covers : ∀ e ∈ elements, Positions.get text e.byteRange = e.placeholder
  sorted : elements.Pairwise fun e e' => e.byteRange.stop ≤ e'.byteRange.start

/-- The labels of the large pastes occur in the text only as elements, also when the pastes that came
earlier are expanded. -/
def ChatComposer.LabelsApart (c : ChatComposer) : Prop :=
  ∃ d, Shows c.textarea d ∧ Apart c.pendingPastes (c.document d)

lemma lookup_of_sublist {pastes pending : List (Text × Text)} (hsub : pending.Sublist pastes)
    (hlabels : (pastes.map Prod.fst).Nodup) (hmem : label ∈ pending.map Prod.fst) :
    pending.lookup label = pastes.lookup label := by
  obtain ⟨⟨label, actual⟩, hpaste, rfl⟩ := List.mem_map.mp hmem
  have hpending : pending.lookup label = some actual :=
    Relabel.lookup_of_mem (hlabels.sublist (hsub.map _)) hpaste
  have hpastes : pastes.lookup label = some actual := Relabel.lookup_of_mem hlabels (hsub.subset hpaste)
  rw [hpending, hpastes]

lemma mem_of_lookup {pastes : List (Text × Text)} (h : pastes.lookup label ≠ none) :
    label ∈ pastes.map Prod.fst := by
  by_contra hmem
  exact h (Relabel.lookup_of_notMem hmem)

namespace Holds

variable {log : List (Text × Text)} {d : List (Piece ℕ)}

lemma isPaste_of_mem (h : Holds log c) (hmem : label ∈ log.map Prod.fst) :
    isPaste label = true := by
  obtain ⟨charCount, suffix, rfl, -⟩ := h.numbered label hmem
  exact isPaste_label charCount suffix

lemma once (h : Holds log c) (hshown : Shows c.textarea d) :
    (atoms d).Pairwise fun a b => a.2 = b.2 → c.pendingPastes.lookup a.2 = none := by
  have hdistinct := h.distinct
  rw [pastes, namedTexts_eq hshown, List.Nodup, List.pairwise_map, List.pairwise_filter]
    at hdistinct
  refine hdistinct.imp fun {a b} hne heq => ?_
  by_contra hlookup
  have hpaste := h.isPaste_of_mem ((h.pending.map Prod.fst).subset (mem_of_lookup hlookup))
  exact hne hpaste (heq ▸ hpaste) heq

lemma expanded_eq (h : Holds log c) (hshown : Shows c.textarea d) :
    c.expanded d = expand (fun t => log.lookup t) (c.document d) := by
  refine expand_congr fun a ha => ?_
  rw [atoms_document] at ha
  cases hpaste : isPaste a.2 with
  | true =>
    refine lookup_of_sublist h.pending h.labels (h.held a (mem_pastes.mpr ⟨?_, hpaste⟩))
    rw [namedTexts_eq hshown]
    exact ha
  | false =>
    have hlog : a.2 ∉ log.map Prod.fst := by
      intro hmem
      rw [h.isPaste_of_mem hmem] at hpaste
      cases hpaste
    have hpending : a.2 ∉ c.pendingPastes.map Prod.fst :=
      fun hmem => hlog ((h.pending.map Prod.fst).subset hmem)
    exact (Relabel.lookup_of_notMem hpending).trans (Relabel.lookup_of_notMem hlog).symm

end Holds

/-- In every state that is reached, walking the elements expands each large paste by what was pasted, and
replacing the labels does the same where these occur only as elements. -/
theorem large_pastes_expand (hcrates : crates.Documented) {ts : List (Transition ChatComposer Input)}
    (run : RunWhere (Composes crates config) (fun c input => input.Ok c) .new ts c) :
    ((largePastes ts).map Prod.fst).Nodup ∧
    ∃ text elements, expandPendingPastes c.currentText c.currentTextElements c.pendingPastes =
        some (text, elements) ∧
      Expands (largePastes ts) c text elements ∧
      (c.LabelsApart → c.currentTextWithPending = text) := by
  have h := holds_of_run hcrates run
  obtain ⟨d, hshown, -⟩ := id h.sound
  refine ⟨h.labels, _, _, expandPendingPastes_eq hshown (h.once hshown), ⟨?_, ?_, ?_, ?_⟩, ?_⟩
  · exact ⟨d, hshown, by rw [h.expanded_eq hshown]⟩
  · rw [map_placeholder_messageElements, h.expanded_eq hshown, atoms_expand, atoms_document,
      namedTexts_eq hshown]
  · intro e he
    exact get_messageElements [] he
  · exact messageElements_pairwise 0 _
  · rintro ⟨d', hshown', hapart⟩
    have hlabels : ∀ paste ∈ c.pendingPastes, paste.1 ≠ [] := by
      intro paste hpaste hnil
      have hlabel := h.isPaste_of_mem ((h.pending.map Prod.fst).subset (List.mem_map_of_mem hpaste))
      rw [hnil] at hlabel
      cases hlabel
    have hwalk := expandPendingPastes_eq hshown (h.once hshown)
    rw [expandPendingPastes_eq hshown' (h.once hshown'), Option.some.injEq, Prod.mk.injEq] at hwalk
    rw [currentTextWithPending_eq hshown' hlabels hapart, hwalk.1]

/-! ## Large pastes of one length -/

variable {pasted : Text}

lemma ChatComposer.handlePaste_large (hcr : '\r' ∉ pasted)
    (hlarge : largePasteCharThreshold < pasted.length) {id : ℕ} {textarea : TextArea}
    (hinsert : c.textarea.insertElement (c.pasteLabel pasted) = some (id, textarea)) :
    c.handlePaste plainConfig pasted = some { c with
      textarea := textarea
      pendingPastes := c.pendingPastes ++ [(c.pasteLabel pasted, pasted)]
      largePasteCounters := Function.update c.largePasteCounters pasted.length
        (c.largePasteCounters pasted.length + 1) } := by
  have hsame : normalizeLineEnds pasted = pasted := by
    rw [normalizeLineEnds, replace_of_notMem hcr, replace_of_notMem hcr]
  rw [handlePaste, hsame]
  rw [if_pos hlarge, nextLargePastePlaceholder]
  dsimp only
  rw [← pasteLabel, hinsert]
  rfl

/-- The label of the first paste of so many characters. -/
def firstLabel : Text := "[Pasted Content 1001 chars]".toList

/-- The label of the second one. -/
def secondLabel : Text := firstLabel ++ " #2".toList

/-- The text area after one large paste. -/
def oneElement : TextArea := ⟨firstLabel, 27, none, none, [⟨1, ⟨0, 27⟩⟩], 2, []⟩

/-- The label of the first paste of one more character. -/
def longerLabel : Text := "[Pasted Content 1002 chars]".toList

/-- The text area after another one. -/
def twoElements (label : Text) : TextArea :=
  ⟨firstLabel ++ label, 27 + len label, none, none, [⟨1, ⟨0, 27⟩⟩, ⟨2, ⟨27, 27 + len label⟩⟩], 3, []⟩

/-- A composer after one paste. -/
def onePaste (pasted : Text) : ChatComposer := { ChatComposer.new with
  textarea := oneElement
  pendingPastes := [(firstLabel, pasted)]
  largePasteCounters := Function.update (fun _ => 0) 1001 1 }

/-- A composer after two pastes. -/
def twoPastes (pasted label pasted' : Text) : ChatComposer := { ChatComposer.new with
  textarea := twoElements label
  pendingPastes := [(firstLabel, pasted), (label, pasted')]
  largePasteCounters := Function.update (onePaste pasted).largePasteCounters pasted'.length
    ((onePaste pasted).largePasteCounters pasted'.length + 1) }

lemma composes_onePaste (hcr : '\r' ∉ pasted) (hlength : pasted.length = 1001) :
    Composes byCharacter plainConfig .new (.paste pasted) (onePaste pasted) := by
  have hlabel : new.pasteLabel pasted = firstLabel := by
    rw [pasteLabel, hlength]
    decide
  have hinsert : new.textarea.insertElement (new.pasteLabel pasted) =
      some (1, oneElement) := by
    rw [hlabel]
    decide +kernel
  rw [Composes, input, handlePaste_large hcr (by rw [hlength]; decide) hinsert, hlabel,
    hlength]
  rfl

lemma composes_twoPastes {label pasted' : Text} (hcr : '\r' ∉ pasted')
    (hlarge : largePasteCharThreshold < pasted'.length) (hlabel : (onePaste pasted).pasteLabel pasted' = label)
    (hinsert : oneElement.insertElement label = some (2, twoElements label)) :
    Composes byCharacter plainConfig (onePaste pasted) (.paste pasted') (twoPastes pasted label pasted') := by
  rw [← hlabel] at hinsert
  rw [Composes, input, handlePaste_large hcr hlarge hinsert, hlabel]
  rfl

/-- Two pastes, each of its own label. -/
lemma run_twoPastes {label pasted' : Text} (hcr : '\r' ∉ pasted) (hlength : pasted.length = 1001)
    (hcr' : '\r' ∉ pasted') (hlarge : largePasteCharThreshold < pasted'.length)
    (hlabel : (onePaste pasted).pasteLabel pasted' = label)
    (hinsert : oneElement.insertElement label = some (2, twoElements label)) :
    ∃ ts, RunWhere (Composes byCharacter plainConfig) (fun c input => input.Ok c) .new ts
      (twoPastes pasted label pasted') := by
  have hfirst : RunWhere (Composes byCharacter plainConfig) (fun c input => input.Ok c) .new _ (onePaste pasted) :=
    RunWhere.nil.next (Input.paste pasted) trivial (composes_onePaste hcr hlength)
  exact ⟨_, hfirst.next (Input.paste pasted') trivial (composes_twoPastes hcr' hlarge hlabel hinsert)⟩

lemma currentTextWithPending_twoPastes (hbracket : '[' ∉ pasted) (pasted' : Text) :
    (twoPastes pasted secondLabel pasted').currentTextWithPending = pasted ++ (pasted ++ " #2".toList) := by
  have hrest : replace firstLabel pasted " #2".toList = " #2".toList := rfl
  have hreplaced : replace firstLabel pasted (firstLabel ++ secondLabel) =
      pasted ++ (pasted ++ " #2".toList) := by
    have hne : firstLabel ≠ [] := by decide
    rw [replace_append hne, secondLabel, replace_append hne, hrest]
  have habsent : '[' ∉ pasted ++ (pasted ++ " #2".toList) := by
    simp only [List.mem_append, hbracket, false_or]
    decide
  show List.foldl _ (firstLabel ++ secondLabel) [(firstLabel, pasted), (secondLabel, pasted')] = _
  rw [List.foldl_cons, List.foldl_cons, List.foldl_nil]
  dsimp only
  rw [replace_of_contains, replace_of_contains, hreplaced]
  exact replace_of_notMem habsent

lemma shows_twoElements (hlabel : label ≠ []) :
    Shows (twoElements label) [.atom 1 firstLabel, .atom 2 label] where
  text := by simp [twoElements, textOf, Piece.text]
  elements := rfl
  solid := by
    refine solid_cons (List.cons_ne_nil _ _) (solid_cons hlabel ?_)
    exact fun _ _ h => absurd h List.not_mem_nil

lemma expandPendingPastes_twoPastes (hlabel : label ≠ []) (hne : firstLabel ≠ label)
    (pasted pasted' : Text) : ∃ elements, expandPendingPastes (twoPastes pasted label pasted').currentText
      (twoPastes pasted label pasted').currentTextElements (twoPastes pasted label pasted').pendingPastes =
        some (pasted ++ pasted', elements) := by
  have honce : (atoms [.atom 1 firstLabel, .atom 2 label]).Pairwise fun a b : ℕ × Text =>
      a.2 = b.2 → (twoPastes pasted label pasted').pendingPastes.lookup a.2 = none := by
    simp [atoms, hne]
  have hexpanded : (twoPastes pasted label pasted').expanded [.atom 1 firstLabel, .atom 2 label] =
      plain pasted ++ plain pasted' := by
    have hfirst : (twoPastes pasted label pasted').pendingPastes.lookup firstLabel = some pasted := rfl
    have hsecond : (twoPastes pasted label pasted').pendingPastes.lookup label = some pasted' := by
      simp [twoPastes, List.lookup_cons, beq_eq_false_iff_ne.mpr hne.symm]
    show expand (fun t => (twoPastes pasted label pasted').pendingPastes.lookup t)
      [.atom 1 firstLabel, .atom 2 label] = _
    simp only [expand, hfirst, hsecond, List.append_nil]
  have hwalk := expandPendingPastes_eq (c := twoPastes pasted label pasted') (shows_twoElements hlabel) honce
  rw [hexpanded, textOf_append, textOf_plain, textOf_plain] at hwalk
  exact ⟨_, hwalk⟩

lemma notMem_replicate {a b : Char} {n : ℕ} (hne : a ≠ b) : a ∉ List.replicate n b :=
  fun h => hne (List.eq_of_mem_replicate h)

/-- Two pastes of different lengths. -/
theorem large_pastes_expand_two :
    (twoPastes (List.replicate 1001 'x') longerLabel (List.replicate 1002 'y')).currentTextWithPending =
      List.replicate 1001 'x' ++ List.replicate 1002 'y' := by
  have hxs : (List.replicate 1001 'x').length = 1001 := List.length_replicate ..
  have hys : (List.replicate 1002 'y').length = 1002 := List.length_replicate ..
  have hcr : '\r' ∉ List.replicate 1001 'x' := notMem_replicate (by decide)
  have hcr' : '\r' ∉ List.replicate 1002 'y' := notMem_replicate (by decide)
  have hbracket : '[' ∉ List.replicate 1001 'x' := notMem_replicate (by decide)
  generalize List.replicate 1001 'x' = xs at *
  generalize List.replicate 1002 'y' = ys at *
  have hlabel : (onePaste xs).pasteLabel ys = longerLabel := by
    have hcount : (onePaste xs).largePasteCounters 1002 = 0 := by
      show Function.update (fun _ => 0) 1001 1 1002 = 0
      exact Function.update_of_ne (by decide) ..
    rw [pasteLabel, hys, hcount]
    decide
  obtain ⟨ts, run⟩ := run_twoPastes hcr hxs hcr' (by rw [hys]; decide) hlabel (by decide +kernel)
  have hapart : (twoPastes xs longerLabel ys).LabelsApart := by
    refine ⟨[.atom 1 firstLabel, .atom 2 longerLabel], shows_twoElements (by decide), ?_, ?_, trivial⟩
    · show OnlyAtom firstLabel [.atom 1 firstLabel, .atom 2 longerLabel]
      exact onlyAtom_of_head (c := '[') rfl (by simp) (by decide)
    · have hexpanded : expandLabel firstLabel xs [Piece.atom 1 firstLabel, .atom 2 longerLabel] =
          plain xs ++ [.atom 2 longerLabel] := by
        rw [expandLabel, expand_atom_some (if_pos rfl), expand_atom_none (if_neg (by decide))]
        rfl
      show OnlyAtom longerLabel (expandLabel firstLabel xs [Piece.atom 1 firstLabel, .atom 2 longerLabel])
      rw [hexpanded]
      refine onlyAtom_of_head (c := '[') rfl (by simpa [plain] using hbracket) ?_
      rw [atoms_append, atoms_plain]
      decide
  obtain ⟨-, text, elements, hexpand, -, hboth⟩ := large_pastes_expand byCharacter_documented run
  obtain ⟨elements', hwalk⟩ := expandPendingPastes_twoPastes (show longerLabel ≠ [] by decide) (by decide) xs ys
  rw [hboth hapart]
  rw [hwalk] at hexpand
  cases hexpand
  rfl

/-- Of two pastes of one length the second one is lost. -/
theorem large_pastes_differ : ∃ ts c, RunWhere (Composes byCharacter plainConfig) (fun c input => input.Ok c)
      .new ts c ∧ ∃ text elements, expandPendingPastes c.currentText c.currentTextElements
        c.pendingPastes = some (text, elements) ∧ c.currentTextWithPending ≠ text := by
  have hlength (a : Char) : (List.replicate 1001 a).length = 1001 := List.length_replicate ..
  have hxs := hlength 'x'
  have hys := hlength 'y'
  have hcr : '\r' ∉ List.replicate 1001 'x' := notMem_replicate (by decide)
  have hcr' : '\r' ∉ List.replicate 1001 'y' := notMem_replicate (by decide)
  have hbracket : '[' ∉ List.replicate 1001 'x' := notMem_replicate (by decide)
  generalize List.replicate 1001 'x' = xs at hxs hcr hbracket
  generalize List.replicate 1001 'y' = ys at hys hcr'
  have hlabel : (onePaste xs).pasteLabel ys = secondLabel := by
    have hcount : (onePaste xs).largePasteCounters 1001 = 1 := by
      show Function.update (fun _ => 0) 1001 1 1001 = 1
      exact Function.update_self ..
    rw [pasteLabel, hys, hcount]
    decide
  obtain ⟨ts, run⟩ := run_twoPastes hcr hxs hcr' (by rw [hys]; decide) hlabel (by decide +kernel)
  obtain ⟨elements, hexpand⟩ := expandPendingPastes_twoPastes (show secondLabel ≠ [] by decide) (by decide) xs ys
  refine ⟨_, _, run, xs ++ ys, elements, hexpand, ?_⟩
  rw [currentTextWithPending_twoPastes hbracket]
  intro heq
  have hlengths := congrArg List.length heq
  simp [hxs, hys] at hlengths

end Supercodex.Composer
