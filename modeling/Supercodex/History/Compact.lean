import Supercodex.History.ResponseItem
import Supercodex.Library.Retention

/-!
# Initial context in a compacted history (`core/src/compact.rs`)

After a compaction the initial context is put back before the last message that the user wrote, or else
before the summary, which is encoded as a message of the user too.
-/

namespace Supercodex.History

/-- `matches!(item, ResponseItem::Compaction { .. })`. -/
def ResponseItem.isCompaction : ResponseItem → Bool
  | .compaction _ => true
  | _ => false

namespace Externals

variable (deps : Externals)

/-- The loop of `insert_initial_context_before_last_real_user_or_summary` over the items from the last one
on. It gives `last_user_or_summary_index` and `last_real_user_index`. -/
def lastUserIndices : List (ResponseItem × ℕ) → Option ℕ → Option ℕ × Option ℕ
  | [], lastUserOrSummaryIndex => (lastUserOrSummaryIndex, none)
  | (item, i) :: items, lastUserOrSummaryIndex =>
    match deps.parseTurnItem item with
    | some (.userMessage content) =>
      let lastUserOrSummaryIndex := lastUserOrSummaryIndex.or (some i)
      if !isSummaryMessage (userMessageText content) then (lastUserOrSummaryIndex, some i)
      else lastUserIndices items lastUserOrSummaryIndex
    | _ => lastUserIndices items lastUserOrSummaryIndex

/-- `insert_initial_context_before_last_real_user_or_summary`. -/
def insertInitialContextBeforeLastRealUserOrSummary (compactedHistory initialContext : List ResponseItem) :
    List ResponseItem :=
  let (lastUserOrSummaryIndex, lastRealUserIndex) := deps.lastUserIndices compactedHistory.zipIdx.reverse none
  let lastCompactionIndex :=
    (compactedHistory.zipIdx.reverse.find? fun (item, _) => item.isCompaction).map Prod.snd
  match (lastRealUserIndex.or lastUserOrSummaryIndex).or lastCompactionIndex with
  | some insertionIndex =>
    compactedHistory.take insertionIndex ++ initialContext ++ compactedHistory.drop insertionIndex
  | none => compactedHistory ++ initialContext

end Externals

end Supercodex.History

/-!
# The shape of a compacted history (`core/src/compact.rs`)

A compaction keeps the latest messages of the user, as many as the limit affords, and ends with the
summary. The initial context goes before the last of these messages.
-/

namespace Supercodex.History

open Retention

/-! ## The messages that are kept -/

/-- What some messages cost, in approximate tokens. -/
def tokensOf (messages : List Text) : ℕ := (messages.map approxTokenCount).sum

lemma tokensOf_append (messages messages' : List Text) :
    tokensOf (messages ++ messages') = tokensOf messages + tokensOf messages' := by
  rw [tokensOf, List.map_append, List.sum_append]
  rfl

lemma tokensOf_singleton (message : Text) : tokensOf [message] = approxTokenCount message := by
  rw [tokensOf, List.map_singleton, List.sum_singleton]

/-- The limit affords the messages, and something of it is left before the first of them. -/
def Affords (limit : ℕ) (messages : List Text) : Prop :=
  messages = [] ∨ tokensOf messages ≤ limit ∧ tokensOf messages.tail < limit

/-- What a compaction selects: the longest suffix that meets a condition, verbatim, and of the message
before it, if something of the limit is left, what fits. -/
structure Selects (p : List Text → Prop) (limit : ℕ) (messages selected verbatim : List Text) : Prop where
  longest : LongestSuffix p messages verbatim
  tokens_le : tokensOf verbatim ≤ limit
  selected : (selected = verbatim ∧ (verbatim = messages ∨ tokensOf verbatim = limit)) ∨
    ∃ older message, messages = older ++ message :: verbatim ∧
      limit < tokensOf verbatim + approxTokenCount message ∧ tokensOf verbatim < limit ∧
      selected = truncateText message (.tokens (limit - tokensOf verbatim)) :: verbatim

lemma affords_concat {limit : ℕ} {message : Text} (hpos : 0 < limit) (hfits : approxTokenCount message ≤ limit)
    (messages : List Text) : Affords limit (messages ++ [message]) ↔
      Affords (limit - approxTokenCount message) messages := by
  cases messages with
  | nil =>
    have hone : Affords limit ([] ++ [message]) := by
      refine .inr ⟨?_, hpos⟩
      rw [List.nil_append, tokensOf_singleton]
      exact hfits
    exact ⟨fun _ => .inl rfl, fun _ => hone⟩
  | cons first messages =>
    simp only [Affords, List.cons_append, List.cons_ne_nil, false_or, List.tail_cons]
    rw [← List.cons_append, tokensOf_append, tokensOf_append, tokensOf_singleton]
    omega

/-- The loop over the messages, newest first, selects what the limit affords. -/
lemma selectMessages_selects (limit : ℕ) (newest : List Text) : ∃ verbatim,
    Selects (Affords limit) limit newest.reverse (selectMessages limit newest).reverse verbatim := by
  induction newest generalizing limit with
  | nil => exact ⟨[], .of_holds (.inl rfl), Nat.zero_le _, .inl ⟨rfl, .inl rfl⟩⟩
  | cons message older ih =>
    rw [selectMessages, List.reverse_cons]
    split_ifs with hzero
    · -- nothing of the limit is left
      subst hzero
      refine ⟨[], ⟨List.nil_suffix, .inl rfl, fun t _ ht => ?_⟩, le_rfl, .inl ⟨rfl, .inr rfl⟩⟩
      rcases ht with rfl | ⟨-, hlt⟩
      · exact List.nil_suffix
      · exact absurd hlt (Nat.not_lt_zero _)
    · dsimp only
      split_ifs with hfits
      · obtain ⟨verbatim, hlongest, htokens, hselected⟩ := ih (limit - approxTokenCount message)
        rw [List.reverse_cons]
        have hcost : tokensOf (verbatim ++ [message]) = tokensOf verbatim + approxTokenCount message := by
          rw [tokensOf_append, tokensOf_singleton]
        refine ⟨verbatim ++ [message], hlongest.snoc (affords_concat (by omega) hfits), by omega, ?_⟩
        rcases hselected with ⟨hsame, hend⟩ | ⟨older', first, hmessages, hover, hleft, hsame⟩
        · refine .inl ⟨by rw [hsame], hend.imp (fun heq => by rw [heq]) fun heq => by omega⟩
        · refine .inr ⟨older', first, ?_, by omega, by omega, ?_⟩
          · rw [hmessages, List.append_assoc, List.cons_append]
          · rw [hsame, hcost, List.cons_append, Nat.sub_sub, Nat.add_comm (approxTokenCount message)]
      · -- the message does not fit, nor does any suffix that ends with it
        refine ⟨[], ⟨List.nil_suffix, .inl rfl, fun t ht hp => ?_⟩, Nat.zero_le _,
          .inr ⟨older.reverse, message, rfl, ?_, Nat.pos_of_ne_zero hzero, rfl⟩⟩
        · rcases List.suffix_concat_iff.mp ht with rfl | ⟨u, rfl, -⟩
          · exact List.nil_suffix
          rcases hp with hnil | ⟨hle, -⟩
          · exact absurd hnil (by simp)
          · rw [tokensOf_append, tokensOf_singleton] at hle
            omega
        · show limit < 0 + _
          omega

/-! ## Where the initial context goes -/

namespace Externals

variable {deps : Externals}

/-- A message of the user, or the summary of a compaction. -/
def IsUserMessage (deps : Externals) (item : ResponseItem) : Prop :=
  ∃ content, deps.parseTurnItem item = some (.userMessage content)

/-- A message that the user wrote. -/
def IsRealUserMessage (deps : Externals) (item : ResponseItem) : Prop :=
  ∃ content, deps.parseTurnItem item = some (.userMessage content) ∧
    isSummaryMessage (userMessageText content) = false

lemma lastUserIndices_append {passed : List (ResponseItem × ℕ)} (items : List (ResponseItem × ℕ))
    (hpassed : ∀ entry ∈ passed, ¬deps.IsRealUserMessage entry.1) (noted : Option ℕ) :
    ∃ noted', deps.lastUserIndices (passed ++ items) noted = deps.lastUserIndices items noted' ∧
      ((∀ entry ∈ passed, ¬deps.IsUserMessage entry.1) → noted' = noted) ∧
      ∀ i, noted = some i → noted' = some i := by
  induction passed generalizing noted with
  | nil => exact ⟨noted, rfl, fun _ => rfl, fun _ => id⟩
  | cons entry passed ih =>
    obtain ⟨item, i⟩ := entry
    rw [List.forall_mem_cons] at hpassed
    rw [List.cons_append, lastUserIndices]
    split
    · rename_i content hparse
      have hsummary : isSummaryMessage (userMessageText content) = true := by
        by_contra hnot
        exact hpassed.1 ⟨content, hparse, Bool.eq_false_iff.mpr hnot⟩
      rw [hsummary, Bool.not_true, if_neg Bool.false_ne_true]
      obtain ⟨noted', heq, -, hsome⟩ := ih hpassed.2 (noted.or (some i))
      refine ⟨noted', heq, fun hnone => ?_, fun j hj => hsome j ?_⟩
      · exact absurd ⟨content, hparse⟩ (hnone (item, i) List.mem_cons_self)
      · rw [hj]
        rfl
    · obtain ⟨noted', heq, hnone, hsome⟩ := ih hpassed.2 noted
      exact ⟨noted', heq, fun h => hnone fun entry hentry => h entry (List.mem_cons_of_mem _ hentry), hsome⟩

variable {item : ResponseItem}

lemma lastUserIndices_cons {content : List UserInput}
    (hparse : deps.parseTurnItem item = some (.userMessage content)) (i : ℕ) (items : List (ResponseItem × ℕ))
    (noted : Option ℕ) : deps.lastUserIndices ((item, i) :: items) noted =
      if !isSummaryMessage (userMessageText content) then (noted.or (some i), some i)
      else deps.lastUserIndices items (noted.or (some i)) := by
  rw [lastUserIndices, hparse]

lemma insert_at {items initialContext : List ResponseItem} {noted real : Option ℕ} {i : ℕ}
    (hindices : deps.lastUserIndices items.zipIdx.reverse none = (noted, real)) (hi : real.or noted = some i) :
    deps.insertInitialContextBeforeLastRealUserOrSummary items initialContext =
      items.take i ++ initialContext ++ items.drop i := by
  rw [insertInitialContextBeforeLastRealUserOrSummary, hindices]
  show (match (real.or noted).or _ with
    | some insertionIndex => _
    | none => _) = _
  rw [hi, Option.some_or]

lemma zipIdx_reverse_split (before after : List ResponseItem) (item : ResponseItem) :
    (before ++ item :: after).zipIdx.reverse =
      (after.zipIdx (before.length + 1)).reverse ++ (item, before.length) :: before.zipIdx.reverse := by
  rw [List.zipIdx_append, List.zipIdx_cons, List.reverse_append, List.reverse_cons, List.append_assoc, Nat.zero_add]
  rfl

lemma forall_mem_zipIdx_reverse {P : ResponseItem → Prop} {items : List ResponseItem} (h : ∀ item ∈ items, P item)
    (n : ℕ) : ∀ entry ∈ (items.zipIdx n).reverse, P entry.1 := by
  intro entry hentry
  exact h entry.1 (List.fst_mem_of_mem_zipIdx (List.mem_reverse.mp hentry))

/-- Context goes directly before the last message that the user wrote. -/
theorem insert_before_real_user {before after : List ResponseItem}
    (hitem : deps.IsRealUserMessage item) (hafter : ∀ item ∈ after, ¬deps.IsRealUserMessage item)
    (initialContext : List ResponseItem) :
    deps.insertInitialContextBeforeLastRealUserOrSummary (before ++ item :: after) initialContext =
      before ++ initialContext ++ item :: after := by
  obtain ⟨content, hparse, hnotSummary⟩ := hitem
  obtain ⟨noted, heq, -⟩ := lastUserIndices_append ((item, before.length) :: before.zipIdx.reverse)
    (forall_mem_zipIdx_reverse hafter (before.length + 1)) none
  have hindices : deps.lastUserIndices (before ++ item :: after).zipIdx.reverse none =
      (noted.or (some before.length), some before.length) := by
    rw [zipIdx_reverse_split, heq, lastUserIndices_cons hparse, hnotSummary, Bool.not_false, if_pos rfl]
  rw [insert_at hindices Option.some_or, List.take_left, List.drop_left]

/-- Without a message that the user wrote, context goes directly before the last summary. -/
theorem insert_before_summary {before after : List ResponseItem}
    (hitem : deps.IsUserMessage item) (hafter : ∀ item ∈ after, ¬deps.IsUserMessage item)
    (hnone : ∀ earlier ∈ before ++ item :: after, ¬deps.IsRealUserMessage earlier) (initialContext : List ResponseItem) :
    deps.insertInitialContextBeforeLastRealUserOrSummary (before ++ item :: after) initialContext =
      before ++ initialContext ++ item :: after := by
  obtain ⟨content, hparse⟩ := hitem
  obtain ⟨noted, heq, hnoted, -⟩ := lastUserIndices_append ((item, before.length) :: before.zipIdx.reverse)
    (forall_mem_zipIdx_reverse
      (fun earlier hearlier => hnone earlier (List.mem_append_right _ (List.mem_cons_of_mem _ hearlier))) (before.length + 1)) none
  have hsummary : isSummaryMessage (userMessageText content) = true := by
    by_contra hnot
    exact hnone item (List.mem_append_right _ List.mem_cons_self) ⟨content, hparse, Bool.eq_false_iff.mpr hnot⟩
  have hbefore := forall_mem_zipIdx_reverse
    (fun earlier hearlier => hnone earlier (List.mem_append_left _ hearlier) : ∀ earlier ∈ before, ¬deps.IsRealUserMessage earlier) 0
  obtain ⟨last, hlast, -, hkept⟩ := lastUserIndices_append [] hbefore (some before.length)
  rw [List.append_nil] at hlast
  have hindices : deps.lastUserIndices (before ++ item :: after).zipIdx.reverse none = (some before.length, none) := by
    rw [zipIdx_reverse_split, heq, hnoted (forall_mem_zipIdx_reverse hafter (before.length + 1)),
      lastUserIndices_cons hparse, hsummary, Bool.not_true, if_neg Bool.false_ne_true, Option.none_or, hlast,
      hkept _ rfl, lastUserIndices]
  rw [insert_at hindices Option.none_or, List.take_left, List.drop_left]

lemma exists_last_real_user (deps : Externals) (items : List ResponseItem) :
    (∀ item ∈ items, ¬deps.IsRealUserMessage item) ∨ ∃ before item after, items = before ++ item :: after ∧
      deps.IsRealUserMessage item ∧ ∀ earlier ∈ after, ¬deps.IsRealUserMessage earlier := by
  induction items with
  | nil => exact .inl fun _ h => nomatch h
  | cons first items ih =>
    rcases ih with hnone | ⟨before, item, after, rfl, hitem, hafter⟩
    · by_cases hfirst : deps.IsRealUserMessage first
      · exact .inr ⟨[], first, items, rfl, hfirst, hnone⟩
      · exact .inl (List.forall_mem_cons.mpr ⟨hfirst, hnone⟩)
    · exact .inr ⟨first :: before, item, after, rfl, hitem, hafter⟩

lemma matchesText_eq_false {c d : Char} {start stop : Text} (hc : Text.isWhitespace c = false)
    (hne : d.toLower ≠ c.toLower) (t : Text) : matchesText (d :: start) stop (c :: t) = false := by
  have htrim : Text.trimStart (c :: t) = c :: t := by
    rw [Text.trimStart, List.dropWhile_cons, hc, if_neg Bool.false_ne_true]
  have hstart : startsWithIgnoreAsciiCase (d :: start) (c :: t) = false := by
    rw [startsWithIgnoreAsciiCase, List.length_cons, List.take_succ_cons, List.map_cons, List.map_cons]
    exact decide_eq_false fun heq => hne (List.cons.inj heq).1.symm
  rw [matchesText, htrim]
  dsimp only
  rw [hstart, Bool.false_and, ite_self]

/-- The parser of hook prompts reads no text that starts with a letter. -/
def ReadsElements (deps : Externals) : Prop :=
  ∀ (c : Char) (t : Text), c.isAlpha = true → deps.hookPromptXml (c :: t) = none

/-- Text that begins as the summary does is what the user wrote, or a summary. -/
lemma parseTurnItem_user (hxml : deps.ReadsElements) (t : Text) :
    deps.parseTurnItem (.user ('A' :: t)) = some (.userMessage [.text ('A' :: t)]) := by
  have hhook : deps.parseHookPromptFragment ('A' :: t) = none := by
    have hnone : deps.hookPromptXml (Text.trim ('A' :: t)) = none := by
      obtain ⟨rest, hrest⟩ : ['A'] <+: Text.trim ('A' :: t) := Text.isInitial_trimEnd (by decide) ⟨_, rfl⟩
      rw [← hrest]
      exact hxml 'A' rest (by decide)
    rw [parseHookPromptFragment, hnone]
  have hstandard : isStandardContextualUserText ('A' :: t) = false := by
    rw [isStandardContextualUserText, List.any_eq_false]
    intro fragment hfragment
    have hheads : (contextualUserFragments.all fun fragment => match fragment.1 with
      | [] => false
      | d :: _ => !(d.toLower = 'A'.toLower)) = true := by rfl
    have hhead := List.all_eq_true.mp hheads fragment hfragment
    obtain ⟨_ | ⟨d, start⟩, stop⟩ := fragment
    · cases hhead
    show ¬matchesText (d :: start) stop ('A' :: t) = true
    rw [matchesText_eq_false (by decide) (by simpa using hhead) t]
    exact Bool.false_ne_true
  have hvisible : deps.parseVisibleHookPromptMessage [.inputText ('A' :: t)] = none := by
    rw [parseVisibleHookPromptMessage, hookPromptFragments, hhook]
    rw [hstandard]
    rfl
  have hcontext : deps.isContextualUserMessageContent [.inputText ('A' :: t)] = false := by
    rw [isContextualUserMessageContent, List.any_cons, isContextualUserFragment, hhook, hstandard]
    rfl
  rw [ResponseItem.user, parseTurnItem, if_pos rfl, hvisible]
  rw [parseUserMessage, hcontext, if_neg Bool.false_ne_true, Option.map_some, parseUserInputs]
  rfl

lemma exists_summaryMarker_eq : ∃ rest, summaryMarker = 'A' :: rest := by
  have hfirst : "Another language model started to solve this problem and produced a summary of its ".toList =
      'A' :: "nother language model started to solve this problem and produced a summary of its ".toList := by
    decide +kernel
  unfold summaryMarker
  simp only [-String.reduceAppend, String.toList_append, hfirst, List.cons_append]
  exact ⟨_, rfl⟩

lemma head?_of_isSummaryMessage {t : Text} (h : isSummaryMessage t = true) : ∃ rest, t = 'A' :: rest := by
  obtain ⟨marker, hmarker⟩ := exists_summaryMarker_eq
  obtain ⟨rest, hrest⟩ := List.isPrefixOf_iff_prefix.mp h
  rw [hmarker] at hrest
  exact ⟨_, hrest.symm⟩

lemma user_summary (hxml : deps.ReadsElements) {summaryText : Text} (hsummary : isSummaryMessage summaryText = true) :
    deps.IsUserMessage (.user summaryText) ∧ ¬deps.IsRealUserMessage (.user summaryText) := by
  obtain ⟨rest, hrest⟩ := head?_of_isSummaryMessage hsummary
  have hparse := parseTurnItem_user hxml rest
  rw [← hrest] at hparse
  refine ⟨⟨_, hparse⟩, ?_⟩
  rintro ⟨content, hcontent, hnot⟩
  rw [hparse, Option.some.injEq, TurnItem.userMessage.injEq] at hcontent
  have htext : userMessageText content = summaryText := by
    rw [← hcontent]
    exact List.append_nil summaryText
  rw [htext, hsummary] at hnot
  cases hnot

end Externals

/-- Context stands directly before the last message that the user wrote, or else at the end. -/
structure PlacedIn (deps : Externals) (items before after : List ResponseItem) : Prop where
  split : items = before ++ after
  placed : (after = [] ∧ ∀ item ∈ items, ¬deps.IsRealUserMessage item) ∨
    ∃ item rest, after = item :: rest ∧ deps.IsRealUserMessage item ∧ ∀ later ∈ rest, ¬deps.IsRealUserMessage later

/-- A compacted history keeps the initial items, the latest messages of the user that the limit affords, and
the summary as its last item; and initial context is placed before the last message that the user wrote, or
before the summary. -/
theorem compacted_history_shape (deps : Externals) (history : List ResponseItem) (userMessages : List Text)
    (summaryText : Text) (maxTokens : ℕ) :
    ∃ selected verbatim, Selects (Affords maxTokens) maxTokens userMessages selected verbatim ∧
      buildCompactedHistoryWithLimit history userMessages summaryText maxTokens =
        history ++ selected.map ResponseItem.user ++
          [.user (if summaryText = [] then "(no summary available)".toList else summaryText)] ∧
      (deps.ReadsElements → isSummaryMessage summaryText = true → ∀ initialContext, ∃ before after,
        PlacedIn deps (history ++ selected.map ResponseItem.user) before after ∧
          deps.insertInitialContextBeforeLastRealUserOrSummary
              (buildCompactedHistoryWithLimit history userMessages summaryText maxTokens) initialContext =
            before ++ initialContext ++ after ++ [.user summaryText]) := by
  obtain ⟨verbatim, hselects⟩ := selectMessages_selects maxTokens userMessages.reverse
  rw [List.reverse_reverse] at hselects
  refine ⟨_, verbatim, hselects, rfl, fun hxml hsummary initialContext => ?_⟩
  have hne : summaryText ≠ [] := by
    rintro rfl
    obtain ⟨rest, hrest⟩ := Externals.head?_of_isSummaryMessage hsummary
    cases hrest
  rw [buildCompactedHistoryWithLimit, if_neg hne]
  generalize history ++ (selectMessages maxTokens userMessages.reverse).reverse.map ResponseItem.user = items
  obtain ⟨huser, hnotReal⟩ := Externals.user_summary hxml hsummary
  rcases Externals.exists_last_real_user deps items with hnone | ⟨before, item, after, rfl, hitem, hafter⟩
  · refine ⟨items, [], ⟨(List.append_nil _).symm, .inl ⟨rfl, hnone⟩⟩, ?_⟩
    have hlast : ∀ item ∈ ([] : List ResponseItem), ¬deps.IsUserMessage item := fun _ h => nomatch h
    rw [Externals.insert_before_summary huser hlast, List.append_nil]
    intro item hitem
    rcases List.mem_append.mp hitem with hitem | hitem
    · exact hnone item hitem
    · rw [List.mem_singleton.mp hitem]
      exact hnotReal
  · refine ⟨before, item :: after, ⟨rfl, .inr ⟨item, after, rfl, hitem, hafter⟩⟩, ?_⟩
    rw [List.append_assoc, List.cons_append, Externals.insert_before_real_user hitem, List.append_assoc _ (item :: after)]
    · rfl
    · intro later hlater
      rcases List.mem_append.mp hlater with hlater | hlater
      · exact hafter later hlater
      · rw [List.mem_singleton.mp hlater]
        exact hnotReal

/-- Hook prompts that are never parsed. -/
def noHooks : Externals where
  hookPromptXml := fun _ => none
  interAgentCommunication := fun _ => false
  serializationBudget := id

/-- Of three messages the latest is kept, the one before is truncated, and the oldest is left out. -/
theorem compacted_history_shape_truncated :
    let messages := ["older".toList, "abcdefghijklmnopqrstuvwxyz0123456789".toList, "hi".toList]
    let kept := [ResponseItem.user "abcd…7 tokens truncated…6789".toList, .user "hi".toList]
    let summary := summaryMarker ++ "\nok".toList
    buildCompactedHistoryWithLimit [] messages summary 3 = kept ++ [.user summary] ∧
      ∃ before after, PlacedIn noHooks kept before after ∧
        noHooks.insertInitialContextBeforeLastRealUserOrSummary
            (buildCompactedHistoryWithLimit [] messages summary 3) [.user "context".toList] =
          before ++ [.user "context".toList] ++ after ++ [.user summary] := by
  intro messages kept summary
  have hsummary : isSummaryMessage summary = true := by
    rw [isSummaryMessage, List.isPrefixOf_iff_prefix]
    exact ⟨"ok".toList, List.append_assoc _ _ _⟩
  have hkept : buildCompactedHistoryWithLimit [] messages summary 3 = kept ++ [.user summary] := by
    have hmessages : selectMessages 3 messages.reverse =
        ["hi".toList, "abcd…7 tokens truncated…6789".toList] := by decide +kernel
    have hne : summary ≠ [] := by
      obtain ⟨rest, hrest⟩ := Externals.head?_of_isSummaryMessage hsummary
      exact hrest ▸ List.cons_ne_nil _ _
    rw [buildCompactedHistoryWithLimit, hmessages, if_neg hne]
    rfl
  obtain ⟨selected, verbatim, -, hbuild, hplaced⟩ := compacted_history_shape noHooks [] messages summary 3
  rw [hkept] at hbuild
  have hselected : kept = [] ++ selected.map ResponseItem.user :=
    List.append_inj_left' hbuild (by rw [List.length_singleton, List.length_singleton])
  rw [← hselected] at hplaced
  exact ⟨hkept, hplaced (fun _ _ _ => rfl) hsummary [.user "context".toList]⟩

/-- A limit that is used up keeps no empty message before, and a summary without its marker takes the context
for a message that the user wrote. -/
theorem compacted_history_not_longest :
    (¬∃ selected verbatim, Selects (fun messages => tokensOf messages ≤ 1) 1 [[], "abcd".toList] selected verbatim ∧
        buildCompactedHistoryWithLimit [] [[], "abcd".toList] "ok".toList 1 =
          selected.map ResponseItem.user ++ [.user "ok".toList]) ∧
      ¬∃ before after, PlacedIn noHooks [.user "hi".toList] before after ∧
        noHooks.insertInitialContextBeforeLastRealUserOrSummary
            (buildCompactedHistoryWithLimit [] ["hi".toList] "ok".toList 100) [.user "context".toList] =
          before ++ [.user "context".toList] ++ after ++ [.user "ok".toList] := by
  constructor
  · rintro ⟨selected, verbatim, ⟨hlongest, -, hselected⟩, hbuild⟩
    have hlength := congrArg List.length hbuild
    rw [List.length_append, List.length_map] at hlength
    have hone : selected.length = 1 := by
      have : (buildCompactedHistoryWithLimit [] [[], "abcd".toList] "ok".toList 1).length = 2 := by decide +kernel
      rw [this] at hlength
      exact (Nat.succ.inj hlength).symm
    have hwhole := (hlongest.longest _ List.suffix_rfl (by decide +kernel)).length_le
    rcases hselected with ⟨rfl, -⟩ | ⟨older, message, hmessages, -⟩
    · rw [hone] at hwhole
      exact absurd hwhole (by decide)
    · have := congrArg List.length hmessages
      rw [List.length_append, List.length_cons (a := message)] at this
      omega
  · rintro ⟨before, after, ⟨hsplit, hplaced⟩, hinsert⟩
    have hreal : ∀ {c : Char} {t : Text}, c ≠ 'A' → noHooks.parseTurnItem (.user (c :: t)) =
        some (.userMessage [.text (c :: t)]) → noHooks.IsRealUserMessage (.user (c :: t)) := by
      intro c t hc hparse
      refine ⟨_, hparse, Bool.eq_false_iff.mpr fun hsummary => ?_⟩
      obtain ⟨rest, hrest⟩ := Externals.head?_of_isSummaryMessage hsummary
      exact hc (List.cons.inj ((List.append_nil (c :: t)).symm.trans hrest)).1
    have hok : noHooks.IsRealUserMessage (.user "ok".toList) := hreal (by decide) (by decide +kernel)
    have hresult : noHooks.insertInitialContextBeforeLastRealUserOrSummary
        (buildCompactedHistoryWithLimit [] ["hi".toList] "ok".toList 100) [.user "context".toList] =
        [.user "hi".toList, .user "context".toList, .user "ok".toList] := by
      have hbuild : buildCompactedHistoryWithLimit [] ["hi".toList] "ok".toList 100 =
          [.user "hi".toList] ++ .user "ok".toList :: [] := by decide +kernel
      have hlast : ∀ item ∈ ([] : List ResponseItem), ¬noHooks.IsRealUserMessage item := fun _ h => nomatch h
      rw [hbuild, Externals.insert_before_real_user hok hlast]
      rfl
    rw [hresult] at hinsert
    rcases hplaced with ⟨-, hnone⟩ | ⟨item, rest, rfl, -⟩
    · exact hnone _ List.mem_cons_self (hreal (by decide) (by decide +kernel))
    cases before with
    | nil => exact absurd (List.cons.inj hinsert).1 (by decide)
    | cons first before =>
      have := congrArg List.length hsplit
      rw [List.length_append, List.length_cons, List.length_cons] at this
      have hlength : 1 = before.length + 1 + (rest.length + 1) := by simpa using this
      omega

end Supercodex.History
