import Supercodex.Composer.ChatComposerEdits
import Supercodex.Library.Expansion

/-!
# Expanding large pastes (`tui/src/bottom_pane/chat_composer.rs`)

`expand_pending_pastes` walks the elements of a message and expands those that are pending;
`current_text_with_pending` replaces their labels in the text. Both are stated on the document that the
composer shows.
-/

namespace Supercodex.Composer

open Positions Document Text

variable {d : List (Piece ℕ)}

/-! ## Messages -/

/-- The elements of a document that begins at a position, as a message has them. -/
def messageElements : ℕ → List (Piece ℕ) → List UserTextElement
  | _, [] => []
  | pos, .char c :: d => messageElements (pos + c.utf8Size) d
  | pos, .atom _ t :: d => ⟨⟨pos, pos + len t⟩, some t⟩ :: messageElements (pos + len t) d

@[simp] lemma messageElements_append (pos : ℕ) (d d' : List (Piece ℕ)) :
    messageElements pos (d ++ d') = messageElements pos d ++ messageElements (pos + size d) d' := by
  induction d generalizing pos with
  | nil => rfl
  | cons piece d ih =>
    cases piece with
    | char c => rw [List.cons_append, messageElements, messageElements, ih, size_char, Nat.add_assoc]
    | atom id t =>
      rw [List.cons_append, messageElements, messageElements, ih, size_atom, Nat.add_assoc, List.cons_append]

@[simp] lemma messageElements_plain (pos : ℕ) (t : Text) : messageElements pos (plain t) = [] := by
  induction t generalizing pos with
  | nil => rfl
  | cons c t ih => exact ih _

lemma map_placeholder_messageElements (pos : ℕ) (d : List (Piece ℕ)) :
    (messageElements pos d).map (·.placeholder) = (atoms d).map fun a => some a.2 := by
  induction d generalizing pos with
  | nil => rfl
  | cons piece d ih =>
    cases piece with
    | char c => exact ih _
    | atom id t => exact congrArg (some t :: ·) (ih _)

lemma get_messageElements (before : Text) {e : UserTextElement} (he : e ∈ messageElements (len before) d) :
    get (before ++ textOf d) e.byteRange = e.placeholder := by
  induction d generalizing before with
  | nil => exact absurd he List.not_mem_nil
  | cons piece d ih =>
    cases piece with
    | char c =>
      rw [textOf_char, ← List.singleton_append, ← List.append_assoc]
      refine ih _ ?_
      rw [len_append, len_cons, len_nil, Nat.add_zero]
      exact he
    | atom id t =>
      rcases List.mem_cons.mp he with rfl | he
      · refine get_eq_some_iff.mpr ⟨before, textOf d, ?_, rfl, len_append ..⟩
        rw [textOf_atom, List.append_assoc]
      rw [textOf_atom, ← List.append_assoc]
      refine ih _ ?_
      rw [len_append]
      exact he

lemma messageElements_bounds {pos : ℕ} {e : UserTextElement} (he : e ∈ messageElements pos d) :
    pos ≤ e.byteRange.start ∧ e.byteRange.start ≤ e.byteRange.stop := by
  induction d generalizing pos with
  | nil => exact absurd he List.not_mem_nil
  | cons piece d ih =>
    cases piece with
    | char c =>
      have hbounds := ih he
      omega
    | atom id t =>
      rcases List.mem_cons.mp he with rfl | he
      · dsimp only
        omega
      · have hbounds := ih he
        omega

lemma messageElements_pairwise (pos : ℕ) (d : List (Piece ℕ)) :
    (messageElements pos d).Pairwise fun e e' => e.byteRange.stop ≤ e'.byteRange.start := by
  induction d generalizing pos with
  | nil => exact .nil
  | cons piece d ih =>
    cases piece with
    | char c => exact ih _
    | atom id t => exact List.pairwise_cons.mpr ⟨fun e he => (messageElements_bounds he).1, ih _⟩

lemma insertionSort_messageElements (pos : ℕ) (d : List (Piece ℕ)) :
    (messageElements pos d).insertionSort (fun a b => a.byteRange.start ≤ b.byteRange.start) =
      messageElements pos d := by
  refine List.Pairwise.insertionSort_eq ((messageElements_pairwise pos d).imp_of_mem fun he _ hle => ?_)
  have hbounds := messageElements_bounds he
  omega

/-! ## The message of the composer -/

namespace ChatComposer

variable {c : ChatComposer}

/-- The document that a composer shows, with the mark of its mode. -/
def document (c : ChatComposer) (d : List (Piece ℕ)) : List (Piece ℕ) :=
  if c.isBashMode then .char '!' :: d else d

lemma atoms_document (c : ChatComposer) (d : List (Piece ℕ)) : atoms (c.document d) = atoms d := by
  rw [document]
  split <;> rfl

lemma solid_document (h : Solid d) : Solid (c.document d) := by
  rw [document]
  split
  · intro id t ht
    exact h id t ((List.mem_cons.mp ht).resolve_left (by simp))
  · exact h

lemma currentText_eq (h : Shows c.textarea d) : c.currentText = textOf (c.document d) := by
  rw [currentText, document, h.text]
  split <;> rfl

lemma textElements_eq {s : TextArea} (h : Shows s d) : s.textElements = messageElements 0 d := by
  have hmarks (before d : List (Piece ℕ)) (hd : s.text = textOf before ++ textOf d) :
      (marks (size before) d).map (fun e => (⟨e.range, get s.text e.range⟩ : UserTextElement)) =
        messageElements (size before) d := by
    induction d generalizing before with
    | nil => rfl
    | cons piece d ih =>
      have hrest := ih (before ++ [piece]) (by
        rw [hd, ← textOf_append, ← textOf_append, List.append_assoc, List.singleton_append])
      cases piece with
      | char c =>
        rw [size_append, size_char, size_nil, Nat.add_zero] at hrest
        exact hrest
      | atom id t =>
        have hget : get s.text ⟨size before, size before + len t⟩ = some t := by
          refine get_eq_some_iff.mpr ⟨textOf before, textOf d, ?_, rfl, len_append ..⟩
          rw [hd, textOf_atom, List.append_assoc]
        rw [size_append, size_atom, size_nil, Nat.add_zero] at hrest
        rw [marks, List.map_cons, hget, hrest, messageElements]
  rw [TextArea.textElements, h.elements]
  exact hmarks [] d h.text

lemma shift_messageElements (hsolid : Solid d) (pos shift : ℕ) :
    (messageElements pos d).filterMap (fun e => shiftTextElement e shift) = messageElements (pos + shift) d := by
  induction d generalizing pos with
  | nil => rfl
  | cons piece d ih =>
    have hrest : Solid d := fun id t ht => hsolid id t (List.mem_cons_of_mem _ ht)
    cases piece with
    | char c =>
      rw [messageElements, ih hrest, messageElements, Nat.add_right_comm]
    | atom id t =>
      have ht : 0 < len t := len_pos (hsolid id t List.mem_cons_self)
      rw [messageElements, List.filterMap_cons, shiftTextElement]
      dsimp only
      rw [if_neg (by omega), ih hrest, messageElements, Nat.add_right_comm]

lemma currentTextElements_eq (h : Shows c.textarea d) :
    c.currentTextElements = messageElements 0 (c.document d) := by
  rw [currentTextElements, textElements_eq h, shift_messageElements h.solid, document]
  split <;> rfl

/-! ## Expanding elements -/

lemma popFront_eq_some {label actual : Text} {pending rest : List (Text × Text)}
    (h : popFront label pending = some (actual, rest)) :
    pending.lookup label = some actual ∧ ∀ t, t ≠ label → rest.lookup t = pending.lookup t := by
  induction pending generalizing rest with
  | nil => cases h
  | cons entry pending ih =>
    obtain ⟨placeholder, text⟩ := entry
    rw [popFront] at h
    split at h
    case isTrue heq =>
      cases h
      refine ⟨by rw [heq, List.lookup_cons, beq_self_eq_true], fun t ht => ?_⟩
      rw [List.lookup_cons, heq, beq_false_of_ne ht]
    case isFalse hne =>
      obtain ⟨⟨found, rest'⟩, hpop, h⟩ := Option.map_eq_some_iff.mp h
      cases h
      obtain ⟨hfound, hothers⟩ := ih hpop
      refine ⟨by rw [List.lookup_cons, beq_false_of_ne (Ne.symm hne), hfound], fun t ht => ?_⟩
      rw [List.lookup_cons, List.lookup_cons, hothers t ht]

lemma popFront_eq_none {label : Text} {pending : List (Text × Text)} (h : popFront label pending = none) :
    pending.lookup label = none := by
  induction pending with
  | nil => rfl
  | cons entry pending ih =>
    obtain ⟨placeholder, text⟩ := entry
    rw [popFront] at h
    split at h
    · cases h
    case isFalse hne =>
      rw [List.lookup_cons, beq_false_of_ne (Ne.symm hne)]
      exact ih (Option.map_eq_none_iff.mp h)

lemma get_stretch (before between after : Text) :
    (if len before < len before + len between then
        get (before ++ between ++ after) ⟨len before, len before + len between⟩ else some []) =
      some between := by
  split
  case isTrue => exact get_eq_some_iff.mpr ⟨before, after, rfl, rfl, len_append ..⟩
  case isFalse hempty => rw [eq_nil_of_len (show len between = 0 by omega)]

/-- The text from the cursor of the walk on. -/
def trailing (text : Text) (state : Rebuilt) : Option Text :=
  if state.cursor < len text then get text ⟨state.cursor, len text⟩ else some []

/-- What one element adds, after some text before it. -/
lemma expandElement_eq (before between t after : Text) {state : Rebuilt} (hcursor : state.cursor = len before) :
    expandElement (before ++ between ++ t ++ after) state
        ⟨⟨len before + len between, len before + len between + len t⟩, some t⟩ =
      some (match popFront t state.pending with
        | some (actual, pending) =>
          ⟨state.text ++ between ++ actual, state.elements, len (before ++ between ++ t), pending⟩
        | none => ⟨state.text ++ between ++ t,
            state.elements ++ [⟨⟨len (state.text ++ between), len (state.text ++ between) + len t⟩, some t⟩],
            len (before ++ between ++ t), state.pending⟩) := by
  have hbetween := get_stretch before between (t ++ after)
  rw [← List.append_assoc] at hbetween
  have hinside : get (before ++ between ++ t ++ after)
      ⟨len before + len between, len before + len between + len t⟩ = some t := by
    refine get_eq_some_iff.mpr ⟨before ++ between, after, rfl, len_append .., ?_⟩
    rw [len_append, len_append]
  have hstart : min (len before + len between) (len (before ++ between ++ t ++ after)) =
      len before + len between := by
    simp only [len_append]
    omega
  have hstop : min (len before + len between + len t) (len (before ++ between ++ t ++ after)) =
      len before + len between + len t := by
    simp only [len_append]
    omega
  rw [expandElement]
  rw [hstart, hstop, if_neg (by omega), hcursor, hinside, UserTextElement.placeholderIn]
  split at hbetween
  case isTrue hlt =>
    rw [if_pos hlt, hbetween]
    simp only [Option.bind_eq_bind, Option.bind_some, Option.some_or, len_append]
    cases popFront t state.pending <;> rfl
  case isFalse hlt =>
    obtain rfl := Option.some.inj hbetween
    rw [if_neg hlt]
    simp only [Option.bind_eq_bind, Option.bind_some, Option.some_or, len_append]
    cases popFront t state.pending <;> rfl

/-- The walk over the elements of a document expands those that are pending, each label of which is that
of one element. -/
lemma foldlM_expandElement (before between : Text) (state : Rebuilt) (hcursor : state.cursor = len before)
    (honce : (atoms d).Pairwise fun a b => a.2 = b.2 → state.pending.lookup a.2 = none) :
    ∃ walked rest, (messageElements (len before + len between) d).foldlM
          (expandElement (before ++ between ++ textOf d)) state = some walked ∧
      trailing (before ++ between ++ textOf d) walked = some rest ∧
      walked.text ++ rest = state.text ++ between ++ textOf (expand (fun t => state.pending.lookup t) d) ∧
      walked.elements = state.elements ++ messageElements (len (state.text ++ between))
        (expand (fun t => state.pending.lookup t) d) := by
  induction d generalizing before between state with
  | nil =>
    refine ⟨state, between, rfl, ?_, ?_, (List.append_nil _).symm⟩
    · have hbetween := get_stretch before between []
      rw [trailing, hcursor, len_append, len_append]
      exact hbetween
    · exact (List.append_nil _).symm
  | cons piece d ih =>
    cases piece with
    | char c =>
      obtain ⟨walked, rest, hwalk, htrailing, htext, helements⟩ := ih before (between ++ [c]) state hcursor honce
      have hwhole : before ++ (between ++ [c]) ++ textOf d = before ++ between ++ textOf (.char c :: d) := by
        rw [textOf_char, List.append_assoc, List.append_assoc, List.append_assoc, List.singleton_append]
      have hlen : len before + len (between ++ [c]) = len before + len between + c.utf8Size := by
        rw [len_append, len_cons, len_nil, Nat.add_zero, Nat.add_assoc]
      rw [hwhole] at hwalk htrailing
      rw [hlen] at hwalk
      refine ⟨walked, rest, hwalk, htrailing, ?_, ?_⟩
      · rw [htext, expand_char, textOf_char]
        simp only [List.append_assoc, List.singleton_append]
      · rw [helements, expand_char, messageElements, ← List.append_assoc, len_append, len_cons, len_nil,
          Nat.add_zero]
    | atom id t =>
      obtain ⟨hfirst, honce⟩ := List.pairwise_cons.mp honce
      have hwhole : before ++ between ++ t ++ textOf d = before ++ between ++ textOf (.atom id t :: d) := by
        rw [textOf_atom, List.append_assoc]
      have hstep := expandElement_eq before between t (textOf d) hcursor
      rw [hwhole] at hstep
      rw [messageElements, List.foldlM_cons, hstep, Option.bind_eq_bind, Option.bind_some]
      cases hpop : popFront t state.pending with
      | none =>
        have hnone := popFront_eq_none hpop
        obtain ⟨walked, rest, hwalk, htrailing, htext, helements⟩ := ih (before ++ between ++ t) []
          ⟨state.text ++ between ++ t,
            state.elements ++ [⟨⟨len (state.text ++ between), len (state.text ++ between) + len t⟩, some t⟩],
            len (before ++ between ++ t), state.pending⟩ rfl honce
        rw [List.append_nil, hwhole] at hwalk htrailing
        refine ⟨walked, rest, ?_, htrailing, ?_, ?_⟩
        · rw [← hwalk, len_append, len_append]
          rfl
        · rw [htext, expand_atom_none hnone, textOf_atom]
          simp only [List.append_assoc, List.nil_append]
        · rw [helements, expand_atom_none hnone, messageElements, List.append_nil, List.append_assoc,
            List.singleton_append, len_append _ t]
      | some found =>
        obtain ⟨actual, pending⟩ := found
        obtain ⟨hsome, hothers⟩ := popFront_eq_some hpop
        have hrest : expand (fun t => pending.lookup t) d = expand (fun t => state.pending.lookup t) d := by
          refine expand_congr fun a ha => hothers a.2 fun heq => ?_
          have hnone := hfirst a ha heq.symm
          rw [hsome] at hnone
          cases hnone
        have honce' : (atoms d).Pairwise fun a b => a.2 = b.2 → pending.lookup a.2 = none := by
          refine honce.imp_of_mem fun {a b} ha _ h heq => ?_
          rw [hothers a.2]
          · exact h heq
          · intro hlabel
            have hnone := hfirst a ha hlabel.symm
            rw [hsome] at hnone
            cases hnone
        obtain ⟨walked, rest, hwalk, htrailing, htext, helements⟩ := ih (before ++ between ++ t) []
          ⟨state.text ++ between ++ actual, state.elements, len (before ++ between ++ t), pending⟩ rfl honce'
        rw [List.append_nil, hwhole] at hwalk htrailing
        rw [hrest] at htext helements
        refine ⟨walked, rest, ?_, htrailing, ?_, ?_⟩
        · rw [← hwalk, len_append, len_append]
          rfl
        · rw [htext, expand_atom_some hsome, textOf_append, textOf_plain]
          simp only [List.append_assoc, List.nil_append]
        · rw [helements, expand_atom_some hsome, messageElements_append, messageElements_plain, List.nil_append,
            size_plain, List.append_nil, len_append _ actual]

/-! ## Both expansions -/

/-- The document with its large pastes. -/
def expanded (c : ChatComposer) (d : List (Piece ℕ)) : List (Piece ℕ) :=
  expand (fun t => c.pendingPastes.lookup t) (c.document d)

/-- `expand_pending_pastes` on the text and the elements of a composer. -/
theorem expandPendingPastes_eq (h : Shows c.textarea d)
    (honce : (atoms d).Pairwise fun a b => a.2 = b.2 → c.pendingPastes.lookup a.2 = none) :
    expandPendingPastes c.currentText c.currentTextElements c.pendingPastes =
      some (textOf (c.expanded d), messageElements 0 (c.expanded d)) := by
  rw [currentText_eq h, currentTextElements_eq h, expandPendingPastes, expanded]
  split
  case isTrue hnothing =>
    have hsame : expand (fun t => c.pendingPastes.lookup t) (c.document d) = c.document d := by
      refine expand_eq_self fun a ha => ?_
      rcases Bool.or_eq_true_iff.mp hnothing with hpending | helements
      · rw [List.isEmpty_iff.mp hpending]
        rfl
      have hatoms := map_placeholder_messageElements 0 (c.document d)
      rw [List.isEmpty_iff.mp helements, List.map_nil] at hatoms
      rw [List.map_eq_nil_iff.mp hatoms.symm] at ha
      exact absurd ha List.not_mem_nil
    rw [hsame]
  case isFalse =>
    rw [← atoms_document c d] at honce
    obtain ⟨walked, rest, hwalk, htrailing, htext, helements⟩ := foldlM_expandElement [] []
      ⟨[], [], 0, c.pendingPastes⟩ rfl honce
    simp only [List.append_nil, List.nil_append, len_nil, Nat.add_zero] at hwalk htrailing htext helements
    rw [insertionSort_messageElements]
    dsimp only
    rw [hwalk, Option.bind_eq_bind, Option.bind_some, helements, ← htext]
    rw [trailing] at htrailing
    split at htrailing
    case isTrue hlt =>
      rw [if_pos hlt, htrailing]
      rfl
    case isFalse hlt =>
      obtain rfl := Option.some.inj htrailing
      rw [if_neg hlt]
      rfl

lemma replace_of_contains (label actual text : Text) :
    (if contains label text then replace label actual text else text) = replace label actual text := by
  split
  case isTrue => rfl
  case isFalse habsent =>
    have hnone : ∀ a b, text = a ++ b → b ≠ [] → ¬label <+: b ++ [] := by
      rintro a b rfl - ⟨v, hv⟩
      rw [List.append_nil] at hv
      exact habsent (contains_iff.mpr ⟨a, v, by rw [List.append_assoc, hv]⟩)
    have hskip := replace_skip actual [] hnone
    have hnil : replace label actual [] = [] := replaceFrom_nil 0
    rw [List.append_nil, hnil, List.append_nil] at hskip
    exact hskip.symm

/-- `current_text_with_pending` where the labels of the pastes occur only as elements. -/
theorem currentTextWithPending_eq (h : Shows c.textarea d)
    (hlabels : ∀ paste ∈ c.pendingPastes, paste.1 ≠ []) (hapart : Apart c.pendingPastes (c.document d)) :
    c.currentTextWithPending = textOf (c.expanded d) := by
  rw [currentTextWithPending, currentText_eq h, expanded, ← foldl_replace hlabels (solid_document h.solid) hapart]
  congr 1
  funext text paste
  exact replace_of_contains paste.1 paste.2 text

end ChatComposer

end Supercodex.Composer
