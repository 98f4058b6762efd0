import Supercodex.Mentions.Codec

/-!
# Mentions through the history

A text with its mentions in place is encoded item by item. It is read back unchanged unless a path holds a
closing parenthesis, or a link that the text leaves open is closed by the one of a mention.
-/

namespace Supercodex.Mentions

open Text DecodedHistoryText

/-! ## Texts with mentions in place -/

/-- A character of the text, or a token that a mention is given for. -/
inductive Item where
  | char (c : Char)
  | mention (m : LinkedMention)

/-- Plain text as items. -/
def chars (t : Text) : List Item := t.map .char

/-- The text of items. -/
def textOf : List Item → Text
  | [] => []
  | .char c :: items => c :: textOf items
  | .mention m :: items => toolMentionSigil :: m.mention ++ textOf items

/-- The mentions of items. -/
def mentionsOf : List Item → List LinkedMention
  | [] => []
  | .char _ :: items => mentionsOf items
  | .mention m :: items => m :: mentionsOf items

/-- The items with each mention written as a link. -/
def linked : List Item → Text
  | [] => []
  | .char c :: items => c :: linked items
  | .mention m :: items => link m.mention m.path ++ linked items

/-- The name of the token that a text starts with. -/
def tokenAt : Text → Option Text
  | [] => none
  | c :: t =>
    let name := t.takeWhile isMentionNameChar
    if c = toolMentionSigil ∧ name ≠ [] then some name else none

/-- The mentions come in the order of their tokens in the text, each at the leftmost token with its name
that is free: a token is passed over only if no mention that is left has its name. -/
inductive Placed : Text → List LinkedMention → List Item → Prop
  | nil : Placed [] [] []
  | mention {m : LinkedMention} {t : Text} {ms : List LinkedMention} {items : List Item}
      (token : tokenAt (toolMentionSigil :: m.mention ++ t) = some m.mention) (rest : Placed t ms items) :
      Placed (toolMentionSigil :: m.mention ++ t) (m :: ms) (.mention m :: items)
  | char {c : Char} {t : Text} {ms : List LinkedMention} {items : List Item}
      (free : ∀ name, tokenAt (c :: t) = some name → ∀ m ∈ ms, m.mention ≠ name) (rest : Placed t ms items) :
      Placed (c :: t) ms (.char c :: items)

/-- A mention with a name of mention characters that is no environment variable, and with the path of a
tool without white space around it. -/
structure Linkable (m : LinkedMention) : Prop where
  name : ∀ c ∈ m.mention, isMentionNameChar c = true
  env : isCommonEnvVar m.mention = false
  path : isToolPath m.path = true
  trimmed : trim m.path = m.path

/-- Items start with a link that the text leaves open, which runs into the link of the next mention and is
taken for a mention with it. -/
def RunsInto (items : List Item) : Prop :=
  ∃ sigil name gap raw m after, items = chars (opener sigil name gap ++ raw) ++ .mention m :: after ∧
    Opens sigil name gap ∧ ')' ∉ raw ∧
    accepts sigil name (trim (raw ++ opener toolMentionSigil m.mention [] ++ m.path)) = true

section

variable {text t : Text} {ms : List LinkedMention} {items : List Item} {m : LinkedMention} {c : Char}

lemma Placed.textOf_eq (h : Placed text ms items) : textOf items = text := by
  induction h with
  | nil => rfl
  | mention token rest ih | char free rest ih => rw [textOf, ih]

lemma Placed.mentionsOf_eq (h : Placed text ms items) : mentionsOf items = ms := by
  induction h with
  | nil => rfl
  | mention token rest ih | char free rest ih => rw [mentionsOf, ih]

/-! ## Encoding -/

/-- The queue of each name holds the paths of its mentions. -/
def queuesOf (ms : List LinkedMention) (name : Text) : List Text :=
  (ms.filter fun m => m.mention = name).map LinkedMention.path

lemma mentionsByName_eq (ms : List LinkedMention) : mentionsByName ms = queuesOf ms := by
  have hfold : ∀ (ms : List LinkedMention) (queues : Text → List Text),
      ms.foldl (fun (queues : Text → List Text) m => Function.update queues m.mention (queues m.mention ++ [m.path])) queues =
        fun name => queues name ++ queuesOf ms name := by
    intro ms
    induction ms with
    | nil =>
      intro queues
      funext name
      exact (List.append_nil _).symm
    | cons m ms ih =>
      intro queues
      rw [List.foldl_cons, ih]
      funext name
      by_cases hname : m.mention = name
      · subst hname
        simp [queuesOf]
      · rw [Function.update_of_ne (Ne.symm hname)]
        simp [queuesOf, hname]
  rw [mentionsByName, hfold]
  rfl

lemma encodeFrom_skip (queues : Text → List Text) (skipped t : Text) :
    encodeFrom queues skipped.length (skipped ++ t) = encodeFrom queues 0 t := by
  induction skipped with
  | nil => rfl
  | cons c skipped ih => exact ih

lemma encodeFrom_token {queues : Text → List Text} {name path : Text} {paths : List Text}
    (htoken : tokenAt (toolMentionSigil :: name ++ t) = some name) (hqueue : queues name = path :: paths) :
    encodeFrom queues 0 (toolMentionSigil :: name ++ t) =
      link name path ++ encodeFrom (Function.update queues name paths) 0 t := by
  rw [List.cons_append, tokenAt] at htoken
  split_ifs at htoken with hname
  have htake : (name ++ t).takeWhile isMentionNameChar = name := Option.some.inj htoken
  rw [htake] at hname
  rw [List.cons_append, encodeFrom, htake, if_pos hname, hqueue]
  exact congrArg (link name path ++ ·) (encodeFrom_skip _ name t)

lemma encodeFrom_char {queues : Text → List Text}
    (hfree : ∀ name, tokenAt (c :: t) = some name → queues name = []) :
    encodeFrom queues 0 (c :: t) = c :: encodeFrom queues 0 t := by
  rw [encodeFrom]
  split_ifs with hname
  · have htoken : tokenAt (c :: t) = some (t.takeWhile isMentionNameChar) := by
      rw [tokenAt]
      exact if_pos hname
    rw [hfree _ htoken]
  · rfl

lemma Placed.encodeFrom_eq (h : Placed text ms items) : encodeFrom (queuesOf ms) 0 text = linked items := by
  induction h with
  | nil => rfl
  | @mention m t ms items token rest ih =>
    have hqueue : queuesOf (m :: ms) m.mention = m.path :: queuesOf ms m.mention := by simp [queuesOf]
    have hrest : Function.update (queuesOf (m :: ms)) m.mention (queuesOf ms m.mention) = queuesOf ms := by
      funext name
      by_cases hname : m.mention = name
      · subst hname
        rw [Function.update_self]
      · rw [Function.update_of_ne (Ne.symm hname)]
        simp [queuesOf, hname]
    rw [encodeFrom_token token hqueue, hrest, ih, linked]
  | @char c t ms items free rest ih =>
    rw [encodeFrom_char, ih, linked]
    intro name hname
    rw [queuesOf, List.filter_eq_nil_iff.mpr, List.map_nil]
    intro m hm
    simpa using free name hname m hm

lemma Placed.encode_eq (h : Placed text ms items) : encodeHistoryMentions text ms = linked items := by
  rw [← h.encodeFrom_eq, encodeHistoryMentions]
  split_ifs with hempty
  · rw [Bool.or_eq_true, List.isEmpty_iff, List.isEmpty_iff] at hempty
    rcases hempty with rfl | rfl
    · clear h
      induction text with
      | nil => rfl
      | cons c t ih =>
        have hchar : encodeFrom (queuesOf []) 0 (c :: t) = c :: encodeFrom (queuesOf []) 0 t :=
          encodeFrom_char fun _ _ => rfl
        rw [hchar, ← ih]
    · rfl
  · rw [mentionsByName_eq]

/-! ## Decoding -/

lemma head_of_mentionAt {found : Text × Text × Text} (h : mentionAt (c :: t) = some found) : c = '[' := by
  rw [mentionAt] at h
  split_ifs at h with hhead
  simpa using hhead

lemma decode_cons_iff (decoded : DecodedHistoryText) :
    decodeHistoryMentions (c :: t) = ⟨c :: decoded.text, decoded.mentions⟩ ↔
      mentionAt (c :: t) = none ∧ decodeHistoryMentions t = decoded := by
  cases hfound : mentionAt (c :: t) with
  | some found =>
    refine iff_of_false (fun h => ?_) (fun h => nomatch h.1)
    obtain rfl := head_of_mentionAt hfound
    rw [decodeHistoryMentions_of_some hfound] at h
    have htext := congrArg (fun decoded => decoded.text.head?) h
    exact absurd htext (by simp [toolMentionSigil])
  | none =>
    rw [decodeHistoryMentions_of_none hfound, mk.injEq]
    constructor
    · intro h
      refine ⟨rfl, ?_⟩
      show mk _ _ = _
      rw [(List.cons.inj h.1).2, h.2]
    · rintro ⟨-, rfl⟩
      exact ⟨rfl, rfl⟩

lemma plain_of_append {s : Text} (h : decodeHistoryMentions (s ++ t) = ⟨s ++ t, []⟩) :
    decodeHistoryMentions t = ⟨t, []⟩ := by
  induction s with
  | nil => exact h
  | cons c s ih => exact ih ((decode_cons_iff ⟨s ++ t, []⟩).mp h).2

lemma mentionAt_link (hm : Linkable m) (hne : m.mention ≠ []) (hpath : ')' ∉ m.path) (t : Text) :
    mentionAt (link m.mention m.path ++ t) = some (m.mention, m.path, t) := by
  refine mentionAt_eq_some_iff.mpr
    ⟨toolMentionSigil, [], m.path, ⟨.inl rfl, hne, hm.name, fun _ h => nomatch h⟩, ?_, hpath, hm.trimmed.symm, ?_⟩
  · rw [link_eq, List.append_assoc, List.singleton_append]
  · rw [accepts, hm.env, if_pos rfl, hm.path]
    rfl

lemma not_mem_path {t name path rest : Text} (h : mentionAt t = some (name, path, rest)) : ')' ∉ path := by
  obtain ⟨sigil, gap, raw, -, -, hraw, rfl, -⟩ := mentionAt_eq_some_iff.mp h
  exact fun hmem => hraw ((trimStart_suffix raw).subset ((trimEnd_isInitial _).subset hmem))

lemma decode_link_iff (hm : Linkable m) (hne : m.mention ≠ []) (decoded : DecodedHistoryText) :
    decodeHistoryMentions (link m.mention m.path ++ t) =
        ⟨toolMentionSigil :: m.mention ++ decoded.text, m :: decoded.mentions⟩ ↔
      ')' ∉ m.path ∧ decodeHistoryMentions t = decoded := by
  constructor
  · intro h
    cases hfound : mentionAt (link m.mention m.path ++ t) with
    | none =>
      have hcons : link m.mention m.path ++ t = '[' :: (link m.mention m.path ++ t).tail := rfl
      rw [hcons] at hfound h
      rw [decodeHistoryMentions_of_none hfound] at h
      have htext := congrArg (fun decoded => decoded.text.head?) h
      exact absurd htext (by simp [toolMentionSigil])
    | some found =>
      obtain ⟨name, path, rest⟩ := found
      rw [decodeHistoryMentions_of_some hfound, mk.injEq] at h
      have hmention : (⟨name, path⟩ : LinkedMention) = m := (List.cons.inj h.2).1
      have hpath : ')' ∉ m.path := by
        rw [← hmention]
        exact not_mem_path hfound
      rw [mentionAt_link hm hne hpath] at hfound
      cases hfound
      refine ⟨hpath, ?_⟩
      show mk _ _ = _
      rw [List.append_cancel_left h.1, (List.cons.inj h.2).2]
  · rintro ⟨hpath, rfl⟩
    exact decodeHistoryMentions_of_some (mentionAt_link hm hne hpath t)

/-! ## Open links -/

lemma not_mem_tail_opener {sigil x : Char} {name gap : Text} (hopens : Opens sigil name gap)
    (hx : x ∉ [toolMentionSigil, pluginTextMentionSigil, ']', '(']) (hname : isMentionNameChar x = false)
    (hgap : isAsciiWhitespace x = false) : x ∉ (opener sigil name gap).tail := by
  intro hmem
  simp only [List.mem_cons, List.not_mem_nil, or_false, not_or] at hx
  simp only [opener, List.cons_append, List.tail_cons, List.mem_cons, List.mem_append, List.append_assoc,
    List.not_mem_nil, or_false] at hmem
  rcases hmem with hsigil | hmem | hclose | hmem | hparen
  · rcases hopens.sigil with rfl | rfl
    · exact hx.1 hsigil
    · exact hx.2.1 hsigil
  · rw [hopens.name x hmem] at hname
    cases hname
  · exact hx.2.2.1 hclose
  · rw [hopens.gap x hmem] at hgap
    cases hgap
  · exact hx.2.2.2 hparen

lemma paren_not_mem_opener {sigil : Char} {name gap : Text} (hopens : Opens sigil name gap) :
    ')' ∉ opener sigil name gap := by
  have htail := not_mem_tail_opener hopens (x := ')') (by decide) (by decide) (by decide)
  exact fun hmem => (List.mem_cons.mp hmem).elim (by decide) htail

lemma open_of_append {sigil : Char} {name gap w u inside : Text} (hopens : Opens sigil name gap)
    (h : c :: w ++ '[' :: u = opener sigil name gap ++ inside) :
    ∃ raw, c :: w = opener sigil name gap ++ raw ∧ inside = raw ++ '[' :: u := by
  rcases List.append_eq_append_iff.mp h with ⟨part, hopener, hrest⟩ | ⟨raw, hw, hinside⟩
  · cases part with
    | nil => exact ⟨[], by rw [hopener, List.append_nil, List.append_nil], by simpa using hrest.symm⟩
    | cons b part =>
      rw [List.cons_append, List.cons.injEq] at hrest
      obtain ⟨rfl, -⟩ := hrest
      refine absurd ?_ (not_mem_tail_opener hopens (x := '[') (by decide) (by decide) (by decide))
      rw [hopener, List.cons_append, List.tail_cons]
      simp
  · exact ⟨raw, hw, hinside⟩

lemma Linkable.opens (hm : Linkable m) (hne : m.mention ≠ []) : Opens toolMentionSigil m.mention [] :=
  ⟨.inl rfl, hne, hm.name, fun _ h => nomatch h⟩

/-- Where no mention is found at the start of a text, none is found when a link follows a part of it,
unless a link that this part leaves open runs into it. -/
lemma mentionAt_before_link {w v rest : Text} (hplain : mentionAt (c :: w ++ v) = none)
    (hm : Opens toolMentionSigil m.mention []) (hpath : ')' ∉ m.path) :
    mentionAt (c :: w ++ (link m.mention m.path ++ rest)) = none ↔
      ∀ sigil name gap raw, c :: w = opener sigil name gap ++ raw → Opens sigil name gap → ')' ∉ raw →
        accepts sigil name (trim (raw ++ opener toolMentionSigil m.mention [] ++ m.path)) = false := by
  have hlink : ∀ raw, raw ++ (link m.mention m.path ++ rest) =
      raw ++ opener toolMentionSigil m.mention [] ++ m.path ++ ')' :: rest := by
    intro raw
    simp [link_eq]
  have hclosed : ∀ raw, ')' ∉ raw → ')' ∉ raw ++ opener toolMentionSigil m.mention [] ++ m.path := by
    intro raw hraw
    simp [hraw, paren_not_mem_opener hm, hpath]
  constructor
  · intro hnone sigil name gap raw hw hopens hraw
    by_contra haccepts
    have hsome : mentionAt (c :: w ++ (link m.mention m.path ++ rest)) = some (name, _, rest) :=
      mentionAt_eq_some_iff.mpr ⟨sigil, gap, _, hopens,
        by rw [hw, List.append_assoc, hlink, List.append_assoc (opener sigil name gap)],
        hclosed raw hraw, rfl, by simpa using haccepts⟩
    rw [hnone] at hsome
    cases hsome
  · intro hnone
    rw [Option.eq_none_iff_forall_ne_some]
    rintro ⟨name, path, after⟩ hsome
    obtain ⟨sigil, gap, raw', hopens, ht, hraw', rfl, haccepts⟩ := mentionAt_eq_some_iff.mp hsome
    rw [List.append_assoc (opener sigil name gap)] at ht
    obtain ⟨raw, hw, hinside⟩ := open_of_append hopens ht
    have hinside' : raw ++ (link m.mention m.path ++ rest) = raw' ++ ')' :: after := hinside.symm
    by_cases hraw : ')' ∈ raw
    · -- the link is closed within the text
      obtain ⟨inner, outer, rfl, hinner⟩ := List.eq_append_cons_of_mem hraw
      rw [List.append_assoc, List.cons_append] at hinside'
      obtain ⟨rfl, -⟩ := eq_and_eq_of_append_cons_eq hinner hraw' hinside'
      have hfound : mentionAt (c :: w ++ v) = some (name, trim inner, outer ++ v) :=
        mentionAt_eq_some_iff.mpr ⟨sigil, gap, inner, hopens, by rw [hw]; simp, hinner, rfl, haccepts⟩
      rw [hplain] at hfound
      cases hfound
    · rw [hlink] at hinside'
      obtain ⟨rfl, -⟩ := eq_and_eq_of_append_cons_eq (hclosed raw hraw) hraw' hinside'
      rw [hnone sigil name gap raw hw hopens hraw] at haccepts
      cases haccepts

/-! ## Items -/

@[simp] lemma textOf_append (items items' : List Item) : textOf (items ++ items') = textOf items ++ textOf items' := by
  induction items with
  | nil => rfl
  | cons item items ih => cases item <;> simp [textOf, ih]

@[simp] lemma linked_append (items items' : List Item) : linked (items ++ items') = linked items ++ linked items' := by
  induction items with
  | nil => rfl
  | cons item items ih => cases item <;> simp [linked, ih]

@[simp] lemma textOf_chars (t : Text) : textOf (chars t) = t := by
  induction t with
  | nil => rfl
  | cons c t ih => exact congrArg (c :: ·) ih

@[simp] lemma linked_chars (t : Text) : linked (chars t) = t := by
  induction t with
  | nil => rfl
  | cons c t ih => exact congrArg (c :: ·) ih

lemma mentionsOf_chars_append (t : Text) (items : List Item) : mentionsOf (chars t ++ items) = mentionsOf items := by
  induction t with
  | nil => rfl
  | cons c t ih => exact ih

lemma exists_chars (items : List Item) :
    ∃ w, items = chars w ∨ ∃ m after, items = chars w ++ .mention m :: after := by
  induction items with
  | nil => exact ⟨[], .inl rfl⟩
  | cons item items ih =>
    cases item with
    | mention m => exact ⟨[], .inr ⟨m, items, rfl⟩⟩
    | char c =>
      obtain ⟨w, rfl | ⟨m, after, rfl⟩⟩ := ih
      · exact ⟨c :: w, .inl rfl⟩
      · exact ⟨c :: w, .inr ⟨m, after, rfl⟩⟩

lemma mention_not_mem_chars (m : LinkedMention) (t : Text) : Item.mention m ∉ chars t := by
  intro h
  obtain ⟨c, -, h⟩ := List.mem_map.mp h
  cases h

lemma chars_append_mention_inj {w w' : Text} {m m' : LinkedMention} {after after' : List Item}
    (h : chars w ++ .mention m :: after = chars w' ++ .mention m' :: after') : w = w' ∧ m = m' := by
  induction w generalizing w' with
  | nil =>
    cases w' with
    | nil =>
      cases h
      exact ⟨rfl, rfl⟩
    | cons c' w' => cases h
  | cons c w ih =>
    cases w' with
    | nil => cases h
    | cons c' w' =>
      obtain ⟨hc, hrest⟩ := List.cons.inj h
      obtain ⟨rfl, rfl⟩ := ih hrest
      cases hc
      exact ⟨rfl, rfl⟩

lemma mentionAt_char (hplain : mentionAt (c :: textOf items) = none)
    (hopens : ∀ m ∈ mentionsOf items, Opens toolMentionSigil m.mention [])
    (hpaths : ∀ m ∈ mentionsOf items, ')' ∉ m.path) :
    mentionAt (c :: linked items) = none ↔ ¬RunsInto (.char c :: items) := by
  obtain ⟨w, rfl | ⟨m, after, rfl⟩⟩ := exists_chars items
  · rw [textOf_chars] at hplain
    rw [linked_chars]
    refine iff_of_true hplain ?_
    rintro ⟨sigil, name, gap, raw, m, after, h, -⟩
    refine mention_not_mem_chars m (c :: w) ?_
    show Item.mention m ∈ Item.char c :: chars w
    rw [h]
    simp
  · rw [mentionsOf_chars_append] at hopens hpaths
    rw [textOf_append, textOf_chars] at hplain
    rw [linked_append, linked_chars]
    refine (mentionAt_before_link hplain (hopens m List.mem_cons_self) (hpaths m List.mem_cons_self)).trans ?_
    constructor
    · rintro hnone ⟨sigil, name, gap, raw, m', after', h, hopens', hraw, haccepts⟩
      obtain ⟨hw, rfl⟩ := chars_append_mention_inj (w := c :: w) h
      rw [hnone sigil name gap raw hw hopens' hraw] at haccepts
      cases haccepts
    · intro hnot sigil name gap raw hw hopens' hraw
      by_contra haccepts
      refine hnot ⟨sigil, name, gap, raw, m, after, ?_, hopens', hraw, by simpa using haccepts⟩
      rw [← hw]
      rfl

lemma not_runsInto_mention (m : LinkedMention) (items : List Item) : ¬RunsInto (.mention m :: items) := by
  rintro ⟨sigil, name, gap, raw, m', after, h, -⟩
  cases h

lemma not_runsInto_nil : ¬RunsInto [] := by
  rintro ⟨sigil, name, gap, raw, m, after, h, -⟩
  cases h

/-- The text and the mentions of items are read back exactly if no path holds a closing parenthesis and
no link of the text runs into another one. -/
theorem decode_linked_iff (hplain : decodeHistoryMentions (textOf items) = ⟨textOf items, []⟩)
    (hlinkable : ∀ m ∈ mentionsOf items, Linkable m) (hne : ∀ m ∈ mentionsOf items, m.mention ≠ []) :
    decodeHistoryMentions (linked items) = ⟨textOf items, mentionsOf items⟩ ↔
      (∀ m ∈ mentionsOf items, ')' ∉ m.path) ∧ ∀ rest, rest <:+ items → ¬RunsInto rest := by
  induction items with
  | nil =>
    refine iff_of_true (by rw [linked, decodeHistoryMentions]; rfl) ⟨fun m h => (nomatch h), ?_⟩
    intro rest hrest
    rw [List.suffix_nil.mp hrest]
    exact not_runsInto_nil
  | cons item items ih =>
    simp only [List.suffix_cons_iff, forall_eq_or_imp]
    cases item with
    | char c =>
      obtain ⟨hat, hrest⟩ := (decode_cons_iff ⟨textOf items, []⟩).mp hplain
      have hstep := mentionAt_char hat fun m hm => (hlinkable m hm).opens (hne m hm)
      refine (decode_cons_iff ⟨textOf items, mentionsOf items⟩).trans ?_
      rw [ih hrest hlinkable hne]
      constructor
      · rintro ⟨hfound, hpaths, hruns⟩
        exact ⟨hpaths, (hstep hpaths).mp hfound, hruns⟩
      · rintro ⟨hpaths, hfirst, hruns⟩
        exact ⟨(hstep hpaths).mpr hfirst, hpaths, hruns⟩
    | mention m =>
      have hrest : decodeHistoryMentions (textOf items) = ⟨textOf items, []⟩ := plain_of_append hplain
      refine (decode_link_iff (hlinkable m List.mem_cons_self) (hne m List.mem_cons_self)
        ⟨textOf items, mentionsOf items⟩).trans ?_
      rw [ih hrest (fun m' hm' => hlinkable m' (List.mem_cons_of_mem _ hm'))
        fun m' hm' => hne m' (List.mem_cons_of_mem _ hm')]
      simp only [mentionsOf, List.mem_cons, forall_eq_or_imp, not_runsInto_mention, not_false_eq_true,
        true_and, and_assoc]

lemma tokenAt_name_ne_nil {name : Text} (h : tokenAt t = some name) : name ≠ [] := by
  cases t with
  | nil => cases h
  | cons c t =>
    rw [tokenAt] at h
    split_ifs at h with hname
    rw [← Option.some.inj h]
    exact hname.2

lemma Placed.mention_ne_nil (h : Placed text ms items) : ∀ m ∈ ms, m.mention ≠ [] := by
  induction h with
  | nil => exact fun m hm => (nomatch hm)
  | mention token rest ih => exact List.forall_mem_cons.mpr ⟨tokenAt_name_ne_nil token, ih⟩
  | char free rest ih => exact ih

end

/-- A text that is read back unchanged, with mentions in the order of their tokens, is read back with these
mentions after encoding them exactly if no path holds a closing parenthesis and no link that the text leaves
open runs into the one of a mention. -/
theorem decode_encode_iff {text : Text} {mentions : List LinkedMention} {items : List Item}
    (hplain : decodeHistoryMentions text = ⟨text, []⟩) (hplaced : Placed text mentions items)
    (hlinkable : ∀ m ∈ mentions, Linkable m) :
    decodeHistoryMentions (encodeHistoryMentions text mentions) = ⟨text, mentions⟩ ↔
      (∀ m ∈ mentions, ')' ∉ m.path) ∧ ∀ rest, rest <:+ items → ¬RunsInto rest := by
  rw [hplaced.encode_eq]
  have hne := hplaced.mention_ne_nil
  rw [← hplaced.textOf_eq] at hplain ⊢
  rw [← hplaced.mentionsOf_eq] at hlinkable hne ⊢
  exact decode_linked_iff hplain hlinkable hne

/-- A mention of an app with a plain path. -/
def exampleMention : LinkedMention := ⟨['a'], "app://x".toList⟩

lemma linkable_exampleMention : Linkable exampleMention :=
  ⟨List.forall_mem_singleton.mpr (by decide), by decide +kernel, by decide +kernel, by decide +kernel⟩

/-- A text that is one token. -/
theorem decode_encode_iff_one :
    decodeHistoryMentions ['$', 'a'] = ⟨['$', 'a'], []⟩ ∧
      Placed ['$', 'a'] [exampleMention] [.mention exampleMention] ∧ Linkable exampleMention ∧
      decodeHistoryMentions (encodeHistoryMentions ['$', 'a'] [exampleMention]) = ⟨['$', 'a'], [exampleMention]⟩ := by
  have hplain : decodeHistoryMentions ['$', 'a'] = ⟨['$', 'a'], []⟩ := by decide +kernel
  have hplaced : Placed ['$', 'a'] [exampleMention] [.mention exampleMention] :=
    .mention (m := exampleMention) (t := []) (by decide +kernel) .nil
  refine ⟨hplain, hplaced, linkable_exampleMention, (decode_encode_iff hplain hplaced ?_).mpr ⟨?_, ?_⟩⟩
  · exact List.forall_mem_singleton.mpr linkable_exampleMention
  · exact List.forall_mem_singleton.mpr (by decide +kernel)
  · intro rest hrest
    rcases List.suffix_cons_iff.mp hrest with rfl | hrest
    · exact not_runsInto_mention _ _
    · rw [List.suffix_nil.mp hrest]
      exact not_runsInto_nil

/-- A mention of a skill below a directory with parentheses in its name. -/
def parenthesizedMention : LinkedMention := ⟨['a'], "/skills (old)/SKILL.md".toList⟩

/-- A mention whose path holds a parenthesis is not read back. -/
theorem parenthesized_path_lost :
    decodeHistoryMentions ['$', 'a'] = ⟨['$', 'a'], []⟩ ∧
      Placed ['$', 'a'] [parenthesizedMention] [.mention parenthesizedMention] ∧ Linkable parenthesizedMention ∧
      decodeHistoryMentions (encodeHistoryMentions ['$', 'a'] [parenthesizedMention]) ≠
        ⟨['$', 'a'], [parenthesizedMention]⟩ :=
  ⟨by decide +kernel, .mention (m := parenthesizedMention) (t := []) (by decide +kernel) .nil,
    ⟨List.forall_mem_singleton.mpr (by decide), by decide +kernel, by decide +kernel, by decide +kernel⟩,
    by decide +kernel⟩

/-- A link that the text leaves open takes the name of one mention with the path of another. -/
example : decodeHistoryMentions (encodeHistoryMentions "[$b]($a".toList [⟨['a'], "/SKILL.md".toList⟩]) =
    ⟨"$b".toList, [⟨['b'], "[$a](/SKILL.md".toList⟩]⟩ := by
  decide +kernel

end Supercodex.Mentions
