import Supercodex.History.ResponseItem

/-!
# What truncation keeps of a tool output

The loop spends a budget on the texts of an output. It keeps them while they fit, cuts the first one that does
not and leaves out the others. Images cost nothing.
-/

namespace Supercodex.History

open OutputTruncation

/-- What a text costs under a policy. -/
def TruncationPolicy.cost (policy : TruncationPolicy) (text : Text) : ℕ :=
  match policy with
  | .bytes _ => byteLen text
  | .tokens _ => approxTokenCount text

/-- The budget of a policy in its own unit. -/
def TruncationPolicy.budget : TruncationPolicy → ℕ
  | .bytes n => n
  | .tokens n => n

/-- A policy of the same unit with another budget. -/
def TruncationPolicy.withBudget (policy : TruncationPolicy) (budget : ℕ) : TruncationPolicy :=
  match policy with
  | .bytes _ => .bytes budget
  | .tokens _ => .tokens budget

/-- The texts among content items. -/
def texts (items : List FunctionCallOutputContentItem) : List Text :=
  items.filterMap fun
    | .inputText text => some text
    | .inputImage .. => none

/-- The images among content items. -/
def images (items : List FunctionCallOutputContentItem) : List FunctionCallOutputContentItem :=
  items.filter fun
    | .inputText _ => false
    | .inputImage .. => true

/-- The note about texts that were left out, if there are any. -/
def omittedNote (omitted : ℕ) : List FunctionCallOutputContentItem :=
  if 0 < omitted then
    [.inputText ("[omitted ".toList ++ Nat.toDigits 10 omitted ++ " text items ...]".toList)]
  else []

/-- The loop after some items: it kept the first texts, cut at most the next one, and left out the rest. -/
structure Spent (policy : TruncationPolicy) (items : List FunctionCallOutputContentItem) (s : OutputTruncation)
    (kept cut : List Text) : Prop where
  images_eq : images s.out = images items
  texts_eq : texts s.out = kept ++ cut
  kept_initial : kept <+: texts items
  count : kept.length + cut.length + s.omittedTextItems = (texts items).length
  cut_next : ∀ snippet ∈ cut, ∃ text ∈ (texts items)[kept.length]?,
    snippet = truncateText text (policy.withBudget (policy.budget - (kept.map policy.cost).sum))
  cut_le : cut.length ≤ 1
  cost_le : (kept.map policy.cost).sum ≤ policy.budget
  unspent : 0 < s.remainingBudget →
    cut = [] ∧ s.omittedTextItems = 0 ∧ (kept.map policy.cost).sum + s.remainingBudget = policy.budget

section

variable {policy : TruncationPolicy} {items : List FunctionCallOutputContentItem} {s : OutputTruncation}
  {kept cut : List Text} {text : Text}

@[simp] lemma texts_append (as bs : List FunctionCallOutputContentItem) : texts (as ++ bs) = texts as ++ texts bs :=
  List.filterMap_append

@[simp] lemma images_append (as bs : List FunctionCallOutputContentItem) :
    images (as ++ bs) = images as ++ images bs :=
  List.filter_append _ _

/-- A text is omitted, kept or shortened by what is left of the budget. -/
lemma step_inputText (policy : TruncationPolicy) (s : OutputTruncation) (text : Text) :
    s.step policy (.inputText text) =
      if s.remainingBudget = 0 then { s with omittedTextItems := s.omittedTextItems + 1 }
      else if policy.cost text ≤ s.remainingBudget then
        { s with out := s.out ++ [.inputText text], remainingBudget := s.remainingBudget - policy.cost text }
      else if truncateText text (policy.withBudget s.remainingBudget) = [] then
        { s with omittedTextItems := s.omittedTextItems + 1, remainingBudget := 0 }
      else
        { s with
          out := s.out ++ [.inputText (truncateText text (policy.withBudget s.remainingBudget))]
          remainingBudget := 0 } := by
  cases policy <;> rfl

lemma spent_start (policy : TruncationPolicy) : Spent policy [] ⟨[], policy.budget, 0⟩ [] [] where
  images_eq := rfl
  texts_eq := rfl
  kept_initial := List.nil_prefix
  count := rfl
  cut_next := fun _ h => nomatch h
  cut_le := Nat.zero_le _
  cost_le := Nat.zero_le _
  unspent _ := ⟨rfl, rfl, Nat.zero_add _⟩

section

variable (h : Spent policy items s kept cut)
include h

lemma Spent.texts_concat (hbudget : 0 < s.remainingBudget) (text : Text) :
    texts (items ++ [.inputText text]) = kept ++ [text] := by
  obtain ⟨hcut, homitted, -⟩ := h.unspent hbudget
  have hcount := h.count
  rw [hcut, List.length_nil, homitted] at hcount
  rw [texts_append, ← h.kept_initial.eq_of_length (by omega)]
  rfl

lemma Spent.image (imageUrl : Text) (detail : Option ImageDetail) :
    Spent policy (items ++ [.inputImage imageUrl detail]) (s.step policy (.inputImage imageUrl detail)) kept cut := by
  have hnoText : texts [.inputImage imageUrl detail] = [] := rfl
  have htexts : texts (items ++ [.inputImage imageUrl detail]) = texts items := by
    rw [texts_append, hnoText, List.append_nil]
  constructor
  · show images (s.out ++ [.inputImage imageUrl detail]) = _
    rw [images_append, images_append, h.images_eq]
  · show texts (s.out ++ [.inputImage imageUrl detail]) = _
    rw [texts_append, hnoText, List.append_nil, h.texts_eq]
  · rw [htexts]
    exact h.kept_initial
  · rw [htexts]
    exact h.count
  · rw [htexts]
    exact h.cut_next
  · exact h.cut_le
  · exact h.cost_le
  · exact h.unspent

lemma Spent.omit (text : Text) :
    Spent policy (items ++ [.inputText text])
      { s with omittedTextItems := s.omittedTextItems + 1, remainingBudget := 0 } kept cut := by
  have htexts : texts (items ++ [.inputText text]) = texts items ++ [text] := texts_append items _
  refine ⟨?_, h.texts_eq, ?_, ?_, ?_, h.cut_le, h.cost_le, fun hpos => absurd hpos (Nat.lt_irrefl 0)⟩
  · show images s.out = _
    rw [images_append, h.images_eq]
    exact (List.append_nil _).symm
  · rw [htexts]
    exact h.kept_initial.trans (List.prefix_append _ _)
  · show kept.length + cut.length + (s.omittedTextItems + 1) = _
    rw [htexts, List.length_append, List.length_singleton, ← h.count]
    omega
  · intro snippet hsnippet
    obtain ⟨next, hnext, heq⟩ := h.cut_next snippet hsnippet
    refine ⟨next, ?_, heq⟩
    have hlt := (List.getElem?_eq_some_iff.mp hnext).1
    rw [htexts, List.getElem?_append_left hlt]
    exact hnext

/-- A text that the budget pays for is kept. -/
lemma Spent.keep (hbudget : 0 < s.remainingBudget)
    (hcost : policy.cost text ≤ s.remainingBudget) :
    Spent policy (items ++ [.inputText text])
      { s with out := s.out ++ [.inputText text], remainingBudget := s.remainingBudget - policy.cost text }
      (kept ++ [text]) [] := by
  obtain ⟨rfl, homitted, hspent⟩ := h.unspent hbudget
  have htexts := h.texts_concat hbudget text
  have hsum : ((kept ++ [text]).map policy.cost).sum = (kept.map policy.cost).sum + policy.cost text := by
    rw [List.map_append, List.sum_append, List.map_singleton, List.sum_singleton]
  constructor
  · show images (s.out ++ [.inputText text]) = _
    rw [images_append, images_append, h.images_eq]
  · show texts (s.out ++ [.inputText text]) = _
    rw [texts_append, h.texts_eq, List.append_nil, List.append_nil]
    rfl
  · exact ⟨[], by rw [htexts, List.append_nil]⟩
  · show _ + 0 + s.omittedTextItems = _
    rw [htexts, homitted]
    rfl
  · exact fun _ h => nomatch h
  · exact Nat.zero_le _
  · rw [hsum]
    omega
  · intro _
    refine ⟨rfl, homitted, ?_⟩
    show _ + (s.remainingBudget - policy.cost text) = _
    rw [hsum]
    omega

lemma Spent.shorten (hbudget : 0 < s.remainingBudget) (text : Text) :
    Spent policy (items ++ [.inputText text])
      { s with
        out := s.out ++ [.inputText (truncateText text (policy.withBudget s.remainingBudget))]
        remainingBudget := 0 }
      kept [truncateText text (policy.withBudget s.remainingBudget)] := by
  obtain ⟨rfl, homitted, hspent⟩ := h.unspent hbudget
  have htexts := h.texts_concat hbudget text
  refine ⟨?_, ?_, ?_, ?_, ?_, le_rfl, h.cost_le, fun hpos => absurd hpos (Nat.lt_irrefl 0)⟩
  · show images (s.out ++ [.inputText _]) = _
    rw [images_append, images_append, h.images_eq]
    rfl
  · show texts (s.out ++ [.inputText _]) = _
    rw [texts_append, h.texts_eq, List.append_nil]
    rfl
  · rw [htexts]
    exact List.prefix_append _ _
  · show _ + s.omittedTextItems = _
    rw [htexts, homitted, List.length_append, List.length_singleton, List.length_singleton]
  · intro snippet hsnippet
    have hleft : policy.budget - (kept.map policy.cost).sum = s.remainingBudget := by omega
    rw [htexts, hleft, List.mem_singleton.mp hsnippet]
    exact ⟨text, by rw [List.getElem?_append_right le_rfl, Nat.sub_self]; rfl, rfl⟩

lemma Spent.step (item : FunctionCallOutputContentItem) :
    ∃ kept' cut', Spent policy (items ++ [item]) (s.step policy item) kept' cut' := by
  cases item with
  | inputImage imageUrl detail => exact ⟨kept, cut, h.image imageUrl detail⟩
  | inputText text =>
    rw [step_inputText]
    by_cases hzero : s.remainingBudget = 0
    · have homit := h.omit text
      rw [← hzero] at homit
      rw [if_pos hzero]
      exact ⟨kept, cut, homit⟩
    have hbudget := Nat.pos_of_ne_zero hzero
    rw [if_neg hzero]
    split
    · rename_i hcost
      exact ⟨_, _, h.keep hbudget hcost⟩
    split
    · exact ⟨kept, cut, h.omit text⟩
    · exact ⟨kept, _, h.shorten hbudget text⟩

end

lemma spent_foldl (policy : TruncationPolicy) (items : List FunctionCallOutputContentItem) :
    ∃ kept cut, Spent policy items (items.foldl (step policy) ⟨[], policy.budget, 0⟩) kept cut := by
  induction items using List.reverseRecOn with
  | nil => exact ⟨[], [], spent_start policy⟩
  | append_singleton items item ih =>
    obtain ⟨kept, cut, h⟩ := ih
    rw [List.foldl_append]
    exact h.step item

end

/-- A truncated output has all images in their order. Its texts are the first ones of the input, as far as the
budget pays for them, and at most one more that is cut to what is left of the budget. A note at the end tells
how many texts were left out. -/
theorem truncated_output_keeps (items : List FunctionCallOutputContentItem) (policy : TruncationPolicy) :
    images (truncateFunctionOutputItemsWithPolicy items policy) = images items ∧
      ∃ body kept cut omitted,
        truncateFunctionOutputItemsWithPolicy items policy = body ++ omittedNote omitted ∧
        texts body = kept ++ cut ∧ kept <+: texts items ∧ cut.length ≤ 1 ∧
        (∀ snippet ∈ cut, ∃ text ∈ (texts items)[kept.length]?,
          snippet = truncateText text (policy.withBudget (policy.budget - (kept.map policy.cost).sum))) ∧
        omitted = (texts items).length - kept.length - cut.length ∧
        (kept.map policy.cost).sum ≤ policy.budget := by
  obtain ⟨kept, cut, h⟩ := spent_foldl policy items
  have hresult : truncateFunctionOutputItemsWithPolicy items policy =
      (items.foldl (step policy) ⟨[], policy.budget, 0⟩).out ++
        omittedNote (items.foldl (step policy) ⟨[], policy.budget, 0⟩).omittedTextItems := by
    have hnoted (s : OutputTruncation) :
        (if 0 < s.omittedTextItems then
          s.out ++ [.inputText ("[omitted ".toList ++ Nat.toDigits 10 s.omittedTextItems ++
            " text items ...]".toList)]
        else s.out) = s.out ++ omittedNote s.omittedTextItems := by
      rw [omittedNote]
      split
      · rfl
      · exact (List.append_nil _).symm
    cases policy <;> exact hnoted _
  have hnote (omitted : ℕ) : images (omittedNote omitted) = [] := by
    rw [omittedNote]
    split <;> rfl
  have hcount := h.count
  refine ⟨?_, _, kept, cut, _, hresult, h.texts_eq, h.kept_initial, h.cut_le, h.cut_next, by omega, h.cost_le⟩
  rw [hresult, images_append, hnote, List.append_nil, h.images_eq]

end Supercodex.History
