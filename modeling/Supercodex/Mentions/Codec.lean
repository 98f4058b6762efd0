import Supercodex.Library.Text

/-!
# Mentions in the prompt history (`tui/src/mention_codec.rs`)

A mention is written into the history as a link in the text, `[$name](path)`, and read back from it. The
functions that scan bytes stop at ASCII characters only, and are given here on characters.
-/

namespace Supercodex.Mentions

open Text

/-- `LinkedMention`. -/
structure LinkedMention where
  mention : Text
  path : Text
deriving DecidableEq

/-- `DecodedHistoryText`. -/
structure DecodedHistoryText where
  text : Text
  mentions : List LinkedMention
deriving DecidableEq

/-- `TOOL_MENTION_SIGIL`. -/
def toolMentionSigil : Char := '$'

/-- `PLUGIN_TEXT_MENTION_SIGIL`. -/
def pluginTextMentionSigil : Char := '@'

/-- `is_mention_name_char`. -/
def isMentionNameChar (c : Char) : Bool := c.isAlphanum || c == '_' || c == '-'

/-- `u8::is_ascii_whitespace`. -/
def isAsciiWhitespace (c : Char) : Bool := c == ' ' || c == '\t' || c == '\n' || c == '\x0C' || c == '\r'

/-- The names that `is_common_env_var` matches. -/
def commonEnvVars : List Text :=
  ["PATH", "HOME", "USER", "SHELL", "PWD", "TMPDIR", "TEMP", "TMP", "LANG", "TERM", "XDG_CONFIG_HOME"].map
    String.toList

/-- `is_common_env_var`. -/
def isCommonEnvVar (name : Text) : Bool := commonEnvVars.contains (name.map Char.toUpper)

/-- What a path may start with in `is_tool_path`. -/
def toolSchemes : List Text := ["app://", "mcp://", "plugin://", "skill://"].map String.toList

/-- What is left of a path after its last separator. -/
def lastSegment (path : Text) : Text := path.rtakeWhile fun c => c != '/' && c != '\\'

/-- `is_tool_path`. -/
def isToolPath (path : Text) : Bool :=
  toolSchemes.any (fun scheme => scheme.isPrefixOf path) ||
    (lastSegment path).map Char.toLower == "SKILL.md".toList.map Char.toLower

/-! ## Encoding -/

/-- The `mentions_by_name` of `encode_history_mentions`: the paths of each name, in their order. -/
def mentionsByName (mentions : List LinkedMention) : Text → List Text :=
  mentions.foldl (fun queues m => Function.update queues m.mention (queues m.mention ++ [m.path])) fun _ => []

/-- What is pushed for a mention. -/
def link (name path : Text) : Text :=
  '[' :: toolMentionSigil :: name ++ "](".toList ++ path ++ [')']

/-- The loop of `encode_history_mentions`, after some characters that `index` has skipped. -/
def encodeFrom (queues : Text → List Text) : ℕ → Text → Text
  | _, [] => []
  | skip + 1, _ :: t => encodeFrom queues skip t
  | 0, c :: t =>
    let name := t.takeWhile isMentionNameChar
    if c = toolMentionSigil ∧ name ≠ [] then
      match queues name with
      | path :: paths => link name path ++ encodeFrom (Function.update queues name paths) name.length t
      | [] => c :: encodeFrom queues 0 t
    else c :: encodeFrom queues 0 t

/-- `encode_history_mentions`. -/
def encodeHistoryMentions (text : Text) (mentions : List LinkedMention) : Text :=
  if mentions.isEmpty || text.isEmpty then text else encodeFrom (mentionsByName mentions) 0 text

/-! ## Decoding -/

/-- The part of `parse_linked_tool_mention` up to the opening parenthesis: the name, and what follows. -/
def linkOpener (sigil : Char) (t : Text) : Option (Text × Text) :=
  match t.tail with
  | [] => none
  | c :: named =>
    let name := named.takeWhile isMentionNameChar
    if c = sigil ∧ name ≠ [] then
      match named.dropWhile isMentionNameChar with
      | ']' :: gap =>
        match gap.dropWhile isAsciiWhitespace with
        | '(' :: inside => some (name, inside)
        | _ => none
      | _ => none
    else none

/-- `parse_linked_tool_mention` on the text from `start` on: the name, the path, and the text from the end
index on. -/
def parseLinkedToolMention (sigil : Char) (t : Text) : Option (Text × Text × Text) :=
  match linkOpener sigil t with
  | none => none
  | some (name, inside) =>
    match inside.dropWhile (· != ')') with
    | [] => none
    | _ :: rest =>
      let path := trim (inside.takeWhile (· != ')'))
      if path = [] then none else some (name, path, rest)

/-- Does `parse_history_linked_mention` take a link with a sigil for a mention? -/
def accepts (sigil : Char) (name path : Text) : Bool :=
  !isCommonEnvVar name &&
    if sigil = toolMentionSigil then isToolPath path else "plugin://".toList.isPrefixOf path

/-- `parse_history_linked_mention`. -/
def parseHistoryLinkedMention (t : Text) : Option (Text × Text × Text) :=
  let parsed := fun sigil =>
    (parseLinkedToolMention sigil t).filter fun (name, path, _) => accepts sigil name path
  (parsed toolMentionSigil).or (parsed pluginTextMentionSigil)

/-- The mention that `decode_history_mentions` finds at the start of a text. -/
def mentionAt (t : Text) : Option (Text × Text × Text) :=
  if t.head? = some '[' then parseHistoryLinkedMention t else none

/-- The name of a link is not empty and made of mention characters, and white space may follow it. -/
structure Opens (sigil : Char) (name gap : Text) : Prop where
  sigil : sigil = toolMentionSigil ∨ sigil = pluginTextMentionSigil
  nonempty : name ≠ []
  name : ∀ c ∈ name, isMentionNameChar c = true
  gap : ∀ c ∈ gap, isAsciiWhitespace c = true

/-- The text of a link up to its path. -/
def opener (sigil : Char) (name gap : Text) : Text := '[' :: sigil :: name ++ ']' :: gap ++ ['(']

lemma link_eq (name path : Text) : link name path = opener toolMentionSigil name [] ++ path ++ [')'] := by
  simp [link, opener]

lemma opener_append (sigil : Char) (name gap t : Text) :
    opener sigil name gap ++ t = '[' :: sigil :: (name ++ ']' :: (gap ++ '(' :: t)) := by
  simp [opener]

lemma eq_append_of_dropWhile {p : Char → Bool} {t rest : Text} (h : t.dropWhile p = rest) :
    t = t.takeWhile p ++ rest ∧ ∀ c ∈ t.takeWhile p, p c = true :=
  ⟨by rw [← h, List.takeWhile_append_dropWhile], fun _ => List.mem_takeWhile_imp⟩

lemma linkOpener_eq_some_iff {sigil : Char} {t name inside : Text}
    (hsigil : sigil = toolMentionSigil ∨ sigil = pluginTextMentionSigil) :
    linkOpener sigil ('[' :: t) = some (name, inside) ↔
      ∃ gap, Opens sigil name gap ∧ '[' :: t = opener sigil name gap ++ inside := by
  constructor
  · intro h
    rw [linkOpener] at h
    split at h
    · cases h
    rename_i c named hnamed
    dsimp only at h
    split_ifs at h with hc
    split at h
    · rename_i gap hgap
      split at h
      · rename_i inside' hinside
        cases h
        obtain ⟨hname, hchars⟩ := eq_append_of_dropWhile hgap
        obtain ⟨hspace, hspaces⟩ := eq_append_of_dropWhile hinside
        refine ⟨_, ⟨hsigil, hc.2, hchars, hspaces⟩, ?_⟩
        rw [opener_append, ← hspace, ← hname, ← hc.1, ← hnamed]
        rfl
      · cases h
    · cases h
  · rintro ⟨gap, hopens, h⟩
    rw [opener_append, List.cons.injEq] at h
    obtain ⟨hname, hrest⟩ := takeWhile_append_cons hopens.name (by decide : isMentionNameChar ']' = false)
      (gap ++ '(' :: inside)
    obtain ⟨-, hinside⟩ := takeWhile_append_cons hopens.gap (by decide : isAsciiWhitespace '(' = false) inside
    rw [linkOpener, List.tail_cons, h.2]
    show (if sigil = sigil ∧ (name ++ ']' :: (gap ++ '(' :: inside)).takeWhile isMentionNameChar ≠ [] then _
      else none) = _
    rw [hname, hrest, if_pos ⟨rfl, hopens.nonempty⟩]
    show (match (gap ++ '(' :: inside).dropWhile isAsciiWhitespace with
      | '(' :: inside => some (name, inside)
      | _ => none) = _
    rw [hinside]
    rfl

lemma path_ne_nil_of_accepts {sigil : Char} {name path : Text} (h : accepts sigil name path = true) :
    path ≠ [] := by
  rintro rfl
  rw [accepts, Bool.and_eq_true] at h
  split_ifs at h
  · exact absurd h.2 (by decide)
  · exact absurd h.2 (by decide)

variable {t name path rest : Text}

lemma parseLinkedToolMention_eq_some_iff {sigil : Char}
    (hsigil : sigil = toolMentionSigil ∨ sigil = pluginTextMentionSigil) :
    parseLinkedToolMention sigil ('[' :: t) = some (name, path, rest) ↔
      ∃ gap raw, Opens sigil name gap ∧ '[' :: t = opener sigil name gap ++ raw ++ ')' :: rest ∧
        ')' ∉ raw ∧ path = trim raw ∧ path ≠ [] := by
  rw [parseLinkedToolMention]
  constructor
  · intro h
    split at h
    · cases h
    rename_i name' inside hopener
    split at h
    · cases h
    rename_i close rest' hinside
    dsimp only at h
    split_ifs at h with hpath
    cases h
    obtain ⟨gap, hopens, ht⟩ := (linkOpener_eq_some_iff hsigil).mp hopener
    obtain ⟨hraw, hchars⟩ := eq_append_of_dropWhile hinside
    have hclose : close = ')' := by
      have hhead := List.head?_dropWhile_not (· != ')') inside
      rw [hinside] at hhead
      simpa using hhead
    subst hclose
    refine ⟨gap, _, hopens, ?_, fun hmem => ?_, rfl, hpath⟩
    · rw [ht, List.append_assoc, ← hraw]
    · exact absurd (hchars ')' hmem) (by decide)
  · rintro ⟨gap, raw, hopens, ht, hraw, rfl, hpath⟩
    have hopener : linkOpener sigil ('[' :: t) = some (name, raw ++ ')' :: rest) :=
      (linkOpener_eq_some_iff hsigil).mpr ⟨gap, hopens, by rw [ht, List.append_assoc]⟩
    have hkept : ∀ c ∈ raw, (c != ')') = true := fun c hc => bne_iff_ne.mpr (ne_of_mem_of_not_mem hc hraw)
    obtain ⟨htake, hdrop⟩ := takeWhile_append_cons hkept (by decide : (')' != ')') = false) rest
    rw [hopener]
    dsimp only
    rw [hdrop, htake]
    dsimp only
    rw [if_neg hpath]

/-- The links at the start of a text that are taken for a mention. -/
theorem mentionAt_eq_some_iff :
    mentionAt t = some (name, path, rest) ↔ ∃ sigil gap raw, Opens sigil name gap ∧
      t = opener sigil name gap ++ raw ++ ')' :: rest ∧ ')' ∉ raw ∧ path = trim raw ∧
      accepts sigil name path = true := by
  have hopener : ∀ {sigil gap raw}, t = opener sigil name gap ++ raw ++ ')' :: rest →
      ∃ t', t = '[' :: sigil :: t' := by
    intro sigil gap raw ht
    rw [List.append_assoc, opener_append] at ht
    exact ⟨_, ht⟩
  have hparsed : ∀ t' sigil, (sigil = toolMentionSigil ∨ sigil = pluginTextMentionSigil) →
      (((parseLinkedToolMention sigil ('[' :: t')).filter fun (name, path, _) => accepts sigil name path) =
          some (name, path, rest) ↔
        ∃ gap raw, Opens sigil name gap ∧ '[' :: t' = opener sigil name gap ++ raw ++ ')' :: rest ∧
          ')' ∉ raw ∧ path = trim raw ∧ accepts sigil name path = true) := by
    intro t' sigil hsigil
    rw [Option.filter_eq_some_iff, parseLinkedToolMention_eq_some_iff hsigil]
    constructor
    · rintro ⟨⟨gap, raw, hopens, ht, hraw, hpath, -⟩, haccepts⟩
      exact ⟨gap, raw, hopens, ht, hraw, hpath, haccepts⟩
    · rintro ⟨gap, raw, hopens, ht, hraw, hpath, haccepts⟩
      exact ⟨⟨gap, raw, hopens, ht, hraw, hpath, path_ne_nil_of_accepts haccepts⟩, haccepts⟩
  rw [mentionAt]
  constructor
  · intro h
    split_ifs at h with hhead
    obtain ⟨t', rfl⟩ := List.head?_eq_some_iff.mp hhead
    rw [parseHistoryLinkedMention] at h
    rcases Option.or_eq_some_iff.mp h with h | ⟨-, h⟩
    · exact ⟨_, (hparsed t' _ (.inl rfl)).mp h⟩
    · exact ⟨_, (hparsed t' _ (.inr rfl)).mp h⟩
  · rintro ⟨sigil, gap, raw, hopens, ht, hraw, hpath, haccepts⟩
    obtain ⟨t', rfl⟩ := hopener ht
    have hfound := (hparsed _ sigil hopens.sigil).mpr ⟨gap, raw, hopens, ht, hraw, hpath, haccepts⟩
    rw [List.head?_cons, if_pos rfl, parseHistoryLinkedMention]
    rcases hopens.sigil with rfl | rfl
    · exact Option.or_eq_some_iff.mpr (.inl hfound)
    · -- the sigil tells the two kinds of links apart
      refine Option.or_eq_some_iff.mpr (.inr ⟨?_, hfound⟩)
      rfl

lemma length_of_mentionAt (h : mentionAt t = some (name, path, rest)) :
    rest.length < t.length := by
  obtain ⟨sigil, gap, raw, -, rfl, -⟩ := mentionAt_eq_some_iff.mp h
  simp only [List.length_append, List.length_cons]
  omega

/-- `decode_history_mentions`. -/
def decodeHistoryMentions : Text → DecodedHistoryText
  | [] => ⟨[], []⟩
  | c :: t =>
    match h : mentionAt (c :: t) with
    | some (name, path, rest) =>
      have := length_of_mentionAt h
      let decoded := decodeHistoryMentions rest
      ⟨toolMentionSigil :: name ++ decoded.text, ⟨name, path⟩ :: decoded.mentions⟩
    | none =>
      let decoded := decodeHistoryMentions t
      ⟨c :: decoded.text, decoded.mentions⟩
termination_by t => t.length
decreasing_by
  · exact this
  · exact Nat.lt_succ_self t.length

lemma decodeHistoryMentions_of_none {c : Char} (h : mentionAt (c :: t) = none) :
    decodeHistoryMentions (c :: t) =
      ⟨c :: (decodeHistoryMentions t).text, (decodeHistoryMentions t).mentions⟩ := by
  rw [decodeHistoryMentions]
  split
  · rename_i hsome
    rw [h] at hsome
    cases hsome
  · rfl

lemma decodeHistoryMentions_of_some (h : mentionAt t = some (name, path, rest)) :
    decodeHistoryMentions t = ⟨toolMentionSigil :: name ++ (decodeHistoryMentions rest).text,
      ⟨name, path⟩ :: (decodeHistoryMentions rest).mentions⟩ := by
  cases t with
  | nil => cases h
  | cons c t =>
    rw [decodeHistoryMentions]
    split
    · rename_i hsome
      rw [h] at hsome
      cases hsome
      rfl
    · rename_i hnone
      rw [h] at hnone
      cases hnone

end Supercodex.Mentions
