import Supercodex.Composer.ChatComposerEdits
import Supercodex.Library.Relabel

/-!
# Image labels (`tui/src/bottom_pane/chat_composer.rs`)

The images are relabelled one after another, each by the first element that has its old label. Their
labels keep pointing at them exactly if no earlier image is given the label of a later one whose element
comes after its own.
-/

namespace Supercodex.Composer

open Positions Document Text Relabel ChatComposer TextArea

variable {s s' : TextArea} {d : List (Piece ℕ)}

/-! ## Labels -/

lemma localImageLabelText_cons (n : ℕ) :
    localImageLabelText n = '[' :: ("Image #".toList ++ Nat.toDigits 10 n ++ [']']) := by
  unfold localImageLabelText
  simp

lemma localImageLabelText_injective : Function.Injective localImageLabelText := by
  intro m n h
  unfold localImageLabelText at h
  exact toDigits_injective (List.append_cancel_left (List.append_cancel_right h))

lemma localImageLabelText_ne_nil (n : ℕ) : localImageLabelText n ≠ [] := by
  rw [localImageLabelText_cons]
  exact List.cons_ne_nil _ _

lemma not_isSlash_label (n : ℕ) : ¬TextArea.IsSlash (localImageLabelText n) := by
  rw [localImageLabelText_cons, TextArea.IsSlash, List.head?_cons, Option.some.injEq]
  decide

/-- The images with the labels that they get after some remote ones. -/
def numbered (remote : ℕ) (images : List AttachedImage) : List AttachedImage :=
  images.mapIdx fun idx image => { image with placeholder := localImageLabelText (remote + idx + 1) }

/-- The old and the new label of every image. -/
def renames (remote : ℕ) (images : List AttachedImage) : List (Text × Text) :=
  images.mapIdx fun idx image => (image.placeholder, localImageLabelText (remote + idx + 1))

variable {remote : ℕ} {images : List AttachedImage}

lemma map_fst_renames : (renames remote images).map Prod.fst = images.map (·.placeholder) := by
  refine List.ext_getElem? fun i => ?_
  rw [renames, List.getElem?_map, List.getElem?_mapIdx, List.getElem?_map, Option.map_map]
  rfl

lemma nodup_renames : ((renames remote images).map Prod.snd).Nodup := by
  refine List.pairwise_iff_getElem.mpr fun i j hi hj hij heq => ?_
  simp only [renames, List.getElem_map, List.getElem_mapIdx] at heq
  have hnumber := localImageLabelText_injective heq
  omega

lemma mem_renames {r : Text × Text} : r ∈ renames remote images ↔
    ∃ idx image, images[idx]? = some image ∧
      r = (image.placeholder, localImageLabelText (remote + idx + 1)) := by
  rw [List.mem_iff_getElem?, renames]
  simp only [List.getElem?_mapIdx, Option.map_eq_some_iff]
  constructor
  · rintro ⟨idx, image, himage, rfl⟩
    exact ⟨idx, image, himage, rfl⟩
  · rintro ⟨idx, image, himage, rfl⟩
    exact ⟨idx, image, himage, rfl⟩

/-! ## One image -/

/-- `replace_element_payload` does not fail. -/
lemma TextArea.exists_replaceElementPayload (h : Shows s d) (old new : Text) :
    ∃ result, s.replaceElementPayload old new = some result := by
  rw [replaceElementPayload]
  split
  case h_1 => exact ⟨_, rfl⟩
  case h_2 idx hfind =>
    obtain ⟨hidx, -, -⟩ := List.findIdx?_eq_some_iff_getElem.mp hfind
    rw [List.getElem?_eq_getElem hidx, Option.bind_eq_bind, Option.bind_some]
    obtain ⟨t, hget, -⟩ := get_element h (List.getElem_mem hidx)
    obtain ⟨u, v, htext, hstart, hstop⟩ := get_eq_some_iff.mp hget
    have hreplace : Positions.replaceRange s.text s.elements[idx].range new = some (u ++ new ++ v) :=
      replaceRange_eq_some_iff.mpr ⟨u, t, v, htext, hstart, hstop, rfl⟩
    dsimp only
    split
    · exact ⟨_, rfl⟩
    · rw [hreplace]
      exact ⟨_, rfl⟩

/-- The first element of the old text is renamed; elements of other kinds stay. -/
lemma TextArea.replaceElementPayload_named (h : Shows s d) (old : Text) {new : Text} (hnew : new ≠ []) :
    ∃ found s' d', s.replaceElementPayload old new = some (found, s') ∧ Edited s d s' d' ∧
      s'.namedTexts.map Prod.fst = s.namedTexts.map Prod.fst ∧
      s'.namedTexts.map Prod.snd = renameFirst old new (s.namedTexts.map Prod.snd) ∧
      ∀ kind : Text → Bool, kind old = false → kind new = false →
        s'.namedTexts.filter (fun e => kind e.2) = s.namedTexts.filter fun e => kind e.2 := by
  obtain ⟨⟨found, s'⟩, happly⟩ := exists_replaceElementPayload h old new
  refine ⟨found, s', ?_⟩
  rcases replaceElementPayload_spec h hnew happly with ⟨-, rfl, hnone⟩ | ⟨-, d₁, id, d₂, rfl, hbefore, hedited⟩
  · refine ⟨d, happly, edited_refl h, rfl, ?_, fun kind _ _ => rfl⟩
    have hnotMem : old ∉ (atoms d).map Prod.snd := by
      intro hmem
      obtain ⟨e, he, heq⟩ := List.mem_map.mp hmem
      exact hnone e he heq
    rw [namedTexts_eq h, renameFirst_of_notMem hnotMem]
  · have hold : s.namedTexts = atoms d₁ ++ (id, old) :: atoms d₂ := by
      rw [namedTexts_eq h, atoms_append, atoms]
    have hnewTexts : s'.namedTexts = atoms d₁ ++ (id, new) :: atoms d₂ := by
      rw [namedTexts_eq hedited.shown, atoms_append, atoms]
    refine ⟨_, happly, hedited, ?_, ?_, fun kind hkindOld hkindNew => ?_⟩
    · rw [hold, hnewTexts]
      simp only [List.map_append, List.map_cons]
    · have hnotMem : old ∉ (atoms d₁).map Prod.snd := by
        intro hmem
        obtain ⟨e, he, heq⟩ := List.mem_map.mp hmem
        exact hbefore e he heq
      rw [hold, hnewTexts, List.map_append, List.map_append, List.map_cons, List.map_cons,
        renameFirst_append hnotMem]
    · rw [hold, hnewTexts, List.filter_append, List.filter_append,
        List.filter_cons_of_neg (by simpa using hkindNew), List.filter_cons_of_neg (by simpa using hkindOld)]

namespace ChatComposer

variable {c : ChatComposer}

/-! ## All images -/

/-- The images when so many of them are relabelled. -/
def relabelledTo (remote : ℕ) (images : List AttachedImage) (count : ℕ) : List AttachedImage :=
  (numbered remote images).take count ++ images.drop count

variable {count : ℕ}

lemma length_take_numbered (remote : ℕ) (h : count ≤ images.length) :
    ((numbered remote images).take count).length = count := by
  rw [List.length_take, numbered, List.length_mapIdx, Nat.min_eq_left h]

lemma getElem?_relabelledTo (remote : ℕ) (h : count ≤ images.length) :
    (relabelledTo remote images count)[count]? = images[count]? := by
  have hlength := length_take_numbered remote h
  rw [relabelledTo, List.getElem?_append_right (le_of_eq hlength), hlength, Nat.sub_self,
    List.getElem?_drop, Nat.add_zero]

lemma set_relabelledTo (h : count < images.length) :
    (relabelledTo remote images count).set count
        { images[count] with placeholder := localImageLabelText (remote + count + 1) } =
      relabelledTo remote images (count + 1) := by
  have hlength := length_take_numbered remote (Nat.le_of_lt h)
  have hnext : (numbered remote images)[count]? =
      some { images[count] with placeholder := localImageLabelText (remote + count + 1) } := by
    rw [numbered, List.getElem?_mapIdx, List.getElem?_eq_getElem h]
    rfl
  rw [relabelledTo, List.set_append_right _ _ (le_of_eq hlength), hlength, Nat.sub_self,
    List.drop_eq_getElem_cons h, List.set_cons_zero, relabelledTo, List.take_add_one, hnext,
    Option.toList_some, List.append_assoc, List.singleton_append]

lemma relabelledTo_succ (h : count < images.length)
    (hsame : images[count].placeholder = localImageLabelText (remote + count + 1)) :
    relabelledTo remote images (count + 1) = relabelledTo remote images count := by
  have hget := getElem?_relabelledTo remote (Nat.le_of_lt h)
  rw [List.getElem?_eq_getElem h] at hget
  obtain ⟨hlt, hget⟩ := List.getElem?_eq_some_iff.mp hget
  rw [← set_relabelledTo h, ← hsame, ← hget, List.set_getElem_self]

/-- The images have other labels, and those of the elements are renamed one after another. -/
def Relabels (c : ChatComposer) (d : List (Piece ℕ)) (result : Option ChatComposer) (images : List AttachedImage)
    (labels : List (Text × Text)) : Prop :=
  ∃ textarea d', result = some { c with attachedImages := images, textarea := textarea } ∧
    Edited c.textarea d textarea d' ∧
    textarea.namedTexts.map Prod.fst = c.textarea.namedTexts.map Prod.fst ∧
    textarea.namedTexts.map Prod.snd = relabel labels (c.textarea.namedTexts.map Prod.snd) ∧
    ∀ kind : Text → Bool, (∀ image ∈ c.attachedImages, kind image.placeholder = false) →
      (∀ n, kind (localImageLabelText n) = false) →
      textarea.namedTexts.filter (fun e => kind e.2) = c.textarea.namedTexts.filter fun e => kind e.2

lemma foldlM_relabelImage (h : Shows c.textarea d) (hcount : count ≤ c.attachedImages.length) :
    Relabels c d ((List.range count).foldlM relabelImage c)
      (relabelledTo c.remoteImageUrls.length c.attachedImages count)
      ((renames c.remoteImageUrls.length c.attachedImages).take count) := by
  induction count with
  | zero => exact ⟨c.textarea, d, rfl, edited_refl h, rfl, rfl, fun kind _ _ => rfl⟩
  | succ count ih =>
    obtain ⟨textarea, d', hfold, hedited, hids, hlabels, hkinds⟩ := ih (Nat.le_of_lt hcount)
    have hnext : (renames c.remoteImageUrls.length c.attachedImages)[count]? =
        some (c.attachedImages[count].placeholder,
          localImageLabelText (c.remoteImageUrls.length + count + 1)) := by
      rw [renames, List.getElem?_mapIdx, List.getElem?_eq_getElem hcount]
      rfl
    have hrelabel := relabel_snoc ((renames c.remoteImageUrls.length c.attachedImages).take count)
      (c.textarea.namedTexts.map Prod.snd) c.attachedImages[count].placeholder
      (localImageLabelText (c.remoteImageUrls.length + count + 1))
    rw [← hlabels] at hrelabel
    unfold Relabels
    rw [List.range_succ, List.foldlM_append, hfold, List.take_add_one, hnext, Option.toList_some, hrelabel,
      Option.bind_eq_bind, Option.bind_some]
    simp only [List.foldlM_cons, List.foldlM_nil, bind_pure]
    rw [relabelImage]
    dsimp only
    rw [getElem?_relabelledTo _ (Nat.le_of_lt hcount), List.getElem?_eq_getElem hcount, Option.bind_eq_bind,
      Option.bind_some]
    split
    case isTrue hsame =>
      refine ⟨textarea, d', ?_, hedited, hids, rfl, hkinds⟩
      rw [relabelledTo_succ hcount hsame]
    case isFalse =>
      obtain ⟨found, textarea', d'', happly, hedited', hids', hlabels', hkinds'⟩ :=
        replaceElementPayload_named hedited.shown c.attachedImages[count].placeholder
          (localImageLabelText_ne_nil (c.remoteImageUrls.length + count + 1))
      refine ⟨textarea', d'', ?_, hedited.trans hedited', hids'.trans hids, hlabels', fun kind himages hnew => ?_⟩
      · rw [happly, set_relabelledTo hcount]
        rfl
      · rw [hkinds' kind (himages _ (List.getElem_mem hcount)) (hnew _), hkinds kind himages hnew]

/-- `relabel_attached_images_and_update_placeholders`. -/
lemma relabelAttachedImages_spec (h : Shows c.textarea d) :
    Relabels c d c.relabelAttachedImagesAndUpdatePlaceholders (numbered c.remoteImageUrls.length c.attachedImages)
      (renames c.remoteImageUrls.length c.attachedImages) := by
  have hspec := foldlM_relabelImage h le_rfl
  have hall : relabelledTo c.remoteImageUrls.length c.attachedImages c.attachedImages.length =
      numbered c.remoteImageUrls.length c.attachedImages := by
    rw [relabelledTo, List.drop_length, List.append_nil, numbered, List.take_of_length_le]
    exact le_of_eq List.length_mapIdx
  have hrenames : (renames c.remoteImageUrls.length c.attachedImages).take c.attachedImages.length =
      renames c.remoteImageUrls.length c.attachedImages :=
    List.take_of_length_le (le_of_eq List.length_mapIdx)
  rwa [hall, hrenames] at hspec

end ChatComposer

/-! ## Labels that follow their images -/

/-- The images stand in the text: each has a label of its own, which is the text of one element. -/
structure ImagesInText (s : TextArea) (images : List AttachedImage) : Prop where
  wellFormed : s.WellFormed
  ids : (s.elements.map (·.id)).Nodup
  distinct : (images.map (·.placeholder)).Nodup
  single : ∀ image ∈ images, Single s.elementPayloads image.placeholder

/-- The labels follow the images: these are numbered after the remote ones, and the element that had the
former label of an image has its new one. -/
structure LabelsFollow (remote : ℕ) (images : List AttachedImage) (before : TextArea)
    (after : ChatComposer) : Prop where
  attached : after.attachedImages = numbered remote images
  elements : ∀ idx image, images[idx]? = some image → ∀ id, (id, image.placeholder) ∈ before.namedTexts →
    (id, localImageLabelText (remote + idx + 1)) ∈ after.textarea.namedTexts

variable {textarea : TextArea}

/-- Renaming one label after another has the labels follow exactly if the renames are in order. -/
lemma ImagesInText.follow_iff (h : ImagesInText s images) {after : ChatComposer}
    (himages : after.attachedImages = numbered remote images)
    (hids : textarea.namedTexts.map Prod.fst = s.namedTexts.map Prod.fst)
    (hlabels : textarea.namedTexts.map Prod.snd = relabel (renames remote images) (s.namedTexts.map Prod.snd))
    (hothers : after.textarea.others = textarea.others) :
    LabelsFollow remote images s after ↔ InOrder s.elementPayloads (renames remote images) := by
  obtain ⟨d, hshown⟩ := h.wellFormed.exists_shows
  have hold : ((renames remote images).map Prod.fst).Nodup := by
    rw [map_fst_renames]
    exact h.distinct
  have hsingle : ∀ r ∈ renames remote images, Single (s.namedTexts.map Prod.snd) r.1 := by
    intro r hr
    obtain ⟨idx, image, himage, rfl⟩ := mem_renames.mp hr
    rw [← s.elementPayloads_eq]
    exact h.single image (List.mem_of_getElem? himage)
  have hnames : (s.namedTexts.map Prod.fst).Nodup := by
    rw [map_fst_namedTexts hshown]
    exact h.ids
  have hmem (id n : ℕ) : (id, localImageLabelText n) ∈ after.textarea.namedTexts ↔
      (id, localImageLabelText n) ∈ textarea.namedTexts := by
    have hsame : (id, localImageLabelText n) ∈ after.textarea.others ↔
        (id, localImageLabelText n) ∈ textarea.others := by rw [hothers]
    rw [mem_others, mem_others] at hsame
    simpa only [not_isSlash_label, not_false_eq_true, and_true] using hsame
  rw [s.elementPayloads_eq, ← relabel_iff_of_names hold nodup_renames hsingle hnames hids hlabels]
  constructor
  · intro hfollow r hr id hid
    obtain ⟨idx, image, himage, rfl⟩ := mem_renames.mp hr
    exact (hmem id _).mp (hfollow.elements idx image himage id hid)
  · intro hrenamed
    refine ⟨himages, fun idx image himage id hid => (hmem id _).mpr ?_⟩
    exact hrenamed _ (mem_renames.mpr ⟨idx, image, himage, rfl⟩) id hid

/-- The images whose labels are still in the text. -/
def remainingImages (s : TextArea) (images : List AttachedImage) : List AttachedImage :=
  images.filter fun image => image.placeholder ∈ s.elementPayloads

lemma ImagesInText.remaining (h : ImagesInText s images) (hwell : textarea.WellFormed)
    (hsub : textarea.namedTexts.Sublist s.namedTexts) :
    ImagesInText textarea (remainingImages textarea images) where
  wellFormed := hwell
  ids := by
    obtain ⟨d, hshown⟩ := h.wellFormed.exists_shows
    obtain ⟨d', hshown'⟩ := hwell.exists_shows
    have hids := h.ids
    rw [← map_fst_namedTexts hshown] at hids
    rw [← map_fst_namedTexts hshown']
    exact hids.sublist (hsub.map _)
  distinct := h.distinct.sublist (List.filter_sublist.map _)
  single := by
    intro image himage
    obtain ⟨himage, hmem⟩ := List.mem_filter.mp himage
    refine (h.single image himage).sublist ?_ (of_decide_eq_true hmem)
    rw [elementPayloads_eq, elementPayloads_eq]
    exact hsub.map _

lemma follow_of_numbered {after : ChatComposer} (himages : after.attachedImages = images)
    (htext : after.textarea.namedTexts = s.namedTexts) :
    LabelsFollow remote images s after ↔ numbered remote images = images := by
  constructor
  · intro hfollow
    rw [← hfollow.attached, himages]
  · intro hnumbered
    refine ⟨himages.trans hnumbered.symm, fun idx image himage id hid => ?_⟩
    have hlabel : image.placeholder = localImageLabelText (remote + idx + 1) := by
      rw [← hnumbered, numbered, List.getElem?_mapIdx, Option.map_eq_some_iff] at himage
      obtain ⟨image', -, rfl⟩ := himage
      rfl
    rw [htext, ← hlabel]
    exact hid

lemma remainingImages_ne_iff : remainingImages s images ≠ images ↔
    ∃ image ∈ images, image.placeholder ∉ s.elementPayloads := by
  rw [ne_eq, remainingImages, List.filter_eq_self]
  simp only [decide_eq_true_eq, not_forall, exists_prop]

/-- `set_remote_image_urls`. -/
lemma ImagesInText.setRemoteImageUrls {c : ChatComposer} (h : ImagesInText c.textarea c.attachedImages)
    (config : Config) (urls : List Text) :
    (∃ after, c.setRemoteImageUrls config urls = some after ∧
        LabelsFollow urls.length c.attachedImages c.textarea after) ↔
      InOrder c.textarea.elementPayloads (renames urls.length c.attachedImages) := by
  obtain ⟨d, hshown⟩ := h.wellFormed.exists_shows
  obtain ⟨textarea, d', hrelabel, hedited, hids, hlabels, -⟩ := relabelAttachedImages_spec
    (c := { c with remoteImageUrls := urls, selectedRemoteImageIndex := none }) hshown
  obtain ⟨synced, d'', hsync, -, hsynced⟩ := syncSlashCommandElements_spec
    (c := { c with
      attachedImages := numbered urls.length c.attachedImages
      textarea := textarea
      remoteImageUrls := urls
      selectedRemoteImageIndex := none }) config hedited.shown
  rw [ChatComposer.setRemoteImageUrls, hrelabel, Option.bind_eq_bind, Option.bind_some,
    syncPopups, hsync]
  simp only [Option.some.injEq, exists_eq_left']
  exact h.follow_iff rfl hids hlabels hsynced.others

/-- Deleting elements, and then `reconcile_deleted_elements`. -/
lemma ImagesInText.reconcileDeletedElements {c : ChatComposer}
    (h : ImagesInText c.textarea c.attachedImages) (hwell : textarea.WellFormed)
    (hsub : textarea.namedTexts.Sublist c.textarea.namedTexts) :
    (∃ after, ChatComposer.reconcileDeletedElements { c with textarea := textarea }
          c.textarea.elementPayloads = some after ∧
        LabelsFollow c.remoteImageUrls.length (remainingImages textarea c.attachedImages) textarea after) ↔
      if remainingImages textarea c.attachedImages = c.attachedImages then
        numbered c.remoteImageUrls.length c.attachedImages = c.attachedImages
      else InOrder textarea.elementPayloads
        (renames c.remoteImageUrls.length (remainingImages textarea c.attachedImages)) := by
  set removed := c.textarea.elementPayloads.filter (!textarea.elementPayloads.contains ·) with hremoved
  have hmem {image : AttachedImage} (himage : image ∈ c.attachedImages) :
      image.placeholder ∈ removed ↔ image.placeholder ∉ textarea.elementPayloads := by
    have hbefore := (h.single image himage).mem
    rw [hremoved, List.mem_filter]
    simp [hbefore]
  obtain ⟨images, removedAny, hfold, -, hdistinct⟩ := ChatComposer.foldl_dropElement removed
    { c with textarea := textarea } false
  obtain ⟨rfl, hany⟩ := hdistinct h.distinct
  have hkept : c.attachedImages.filter (fun image => image.placeholder ∉ removed) =
      remainingImages textarea c.attachedImages := by
    refine List.filter_congr fun image himage => ?_
    simp only [hmem himage, not_not]
  have hdeleted : removedAny = true ↔ remainingImages textarea c.attachedImages ≠ c.attachedImages := by
    rw [hany, remainingImages_ne_iff]
    simp only [Bool.false_eq_true, false_or]
    refine exists_congr fun image => and_congr_right fun himage => hmem himage
  rw [hkept] at hfold
  rw [ChatComposer.reconcileDeletedElements]
  rw [← hremoved, hfold]
  dsimp only
  split
  case isTrue hremovedAny =>
    obtain ⟨d, hshown⟩ := hwell.exists_shows
    obtain ⟨after, d', hrelabel, -, hids, hlabels, -⟩ := ChatComposer.relabelAttachedImages_spec
      (c := { c with
        textarea := textarea
        pendingPastes := c.pendingPastes.filter fun paste => paste.1 ∉ removed
        attachedImages := remainingImages textarea c.attachedImages }) hshown
    rw [hrelabel, if_neg (hdeleted.mp hremovedAny)]
    simp only [Option.some.injEq, exists_eq_left']
    exact (h.remaining hwell hsub).follow_iff rfl hids hlabels rfl
  case isFalse hremovedAny =>
    have hsame : remainingImages textarea c.attachedImages = c.attachedImages := by
      by_contra hne
      exact hremovedAny (hdeleted.mpr hne)
    rw [if_pos hsame, hsame]
    simp only [Option.some.injEq, exists_eq_left']
    exact follow_of_numbered rfl rfl

/-- The labels follow the images exactly if an image is never given the label of a later one whose
element comes after its own, and where no image is deleted the images had their labels before. -/
theorem image_labels_follow (config : Config) {c : ChatComposer}
    (h : ImagesInText c.textarea c.attachedImages) :
    (∀ urls, (∃ after, c.setRemoteImageUrls config urls = some after ∧
        LabelsFollow urls.length c.attachedImages c.textarea after) ↔
      InOrder c.textarea.elementPayloads (renames urls.length c.attachedImages)) ∧
    ∀ textarea : TextArea, textarea.WellFormed → textarea.namedTexts.Sublist c.textarea.namedTexts →
      ((∃ after, reconcileDeletedElements { c with textarea := textarea }
          c.textarea.elementPayloads = some after ∧
        LabelsFollow c.remoteImageUrls.length (remainingImages textarea c.attachedImages) textarea after) ↔
      if remainingImages textarea c.attachedImages = c.attachedImages then
        numbered c.remoteImageUrls.length c.attachedImages = c.attachedImages
      else InOrder textarea.elementPayloads
        (renames c.remoteImageUrls.length (remainingImages textarea c.attachedImages))) :=
  ⟨fun urls => h.setRemoteImageUrls config urls,
    fun _ hwell hsub => h.reconcileDeletedElements hwell hsub⟩

/-- A composer without slash commands and without pasted images. -/
def plainConfig : Config where
  slashCommandsEnabled := false
  imagePasteEnabled := false
  isKnownSlashName _ := false
  pastedImage _ := none

/-- Two images, the first of them at the end of the text. -/
def imagesBackward : ChatComposer := { ChatComposer.new with
  textarea := ⟨"[Image #2][Image #1]".toList, 0, none, none, [⟨2, ⟨0, 10⟩⟩, ⟨1, ⟨10, 20⟩⟩], 3, []⟩
  attachedImages := [⟨"[Image #1]".toList, "a.png".toList⟩, ⟨"[Image #2]".toList, "b.png".toList⟩] }

theorem image_labels_follow_backward : ∃ after,
    imagesBackward.setRemoteImageUrls plainConfig ["c.png".toList] = some after ∧
      LabelsFollow 1 imagesBackward.attachedImages imagesBackward.textarea after := by
  have himages : ImagesInText imagesBackward.textarea imagesBackward.attachedImages :=
    ⟨⟨by decide, by decide⟩, by decide, by decide, by decide⟩
  exact ((image_labels_follow plainConfig himages).1 ["c.png".toList]).mpr (by decide)

/-- Two images, one attached after the other. -/
def imagesForward : ChatComposer := { ChatComposer.new with
  textarea := ⟨"[Image #1][Image #2]".toList, 20, none, none, [⟨1, ⟨0, 10⟩⟩, ⟨2, ⟨10, 20⟩⟩], 3, []⟩
  attachedImages := [⟨"[Image #1]".toList, "a.png".toList⟩, ⟨"[Image #2]".toList, "b.png".toList⟩] }

/-- With a remote image before them, the element of the first image is renamed twice and that of the
second one not at all. -/
theorem image_labels_lost : (new.attachImage "a.png".toList).bind
      (·.attachImage "b.png".toList) = some imagesForward ∧
    ImagesInText imagesForward.textarea imagesForward.attachedImages ∧
    ¬∃ after, imagesForward.setRemoteImageUrls plainConfig ["c.png".toList] = some after ∧
      LabelsFollow 1 imagesForward.attachedImages imagesForward.textarea after := by
  have himages : ImagesInText imagesForward.textarea imagesForward.attachedImages :=
    ⟨⟨by decide, by decide⟩, by decide, by decide, by decide⟩
  refine ⟨rfl, himages, fun hfollow => ?_⟩
  exact absurd ((himages.setRemoteImageUrls plainConfig ["c.png".toList]).mp hfollow) (by decide)

end Supercodex.Composer
