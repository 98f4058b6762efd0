import Supercodex.History.Normalize

/-!
# Pairing of calls and outputs: what the normalised history holds

A call and the outputs that answer it carry the same key: the kind of output and the call id.
-/

namespace Supercodex.History

open ResponseItem

/-- The kinds of tool output. A local shell call is answered by a function call output. -/
inductive OutputKind where
  | functionCall | toolSearch | customTool
deriving DecidableEq

/-- The key of a call that has a call id. -/
def ResponseItem.callKey : ResponseItem → Option (OutputKind × Text)
  | .functionCall _ _ _ _ callId => some (.functionCall, callId)
  | .localShellCall _ (some callId) _ _ => some (.functionCall, callId)
  | .toolSearchCall _ (some callId) _ _ _ => some (.toolSearch, callId)
  | .customToolCall _ _ callId _ _ => some (.customTool, callId)
  | _ => none

/-- The key of an output that has a call id. -/
def ResponseItem.outputKey : ResponseItem → Option (OutputKind × Text)
  | .functionCallOutput callId _ => some (.functionCall, callId)
  | .toolSearchOutput (some callId) _ _ _ => some (.toolSearch, callId)
  | .customToolCallOutput callId _ _ => some (.customTool, callId)
  | _ => none

/-- The kind of output that answers a call, with or without a call id. -/
def ResponseItem.callKind : ResponseItem → Option OutputKind
  | .functionCall .. | .localShellCall .. => some .functionCall
  | .toolSearchCall .. => some .toolSearch
  | .customToolCall .. => some .customTool
  | _ => none

/-- The kind of a tool output, with or without a call id. -/
def ResponseItem.outputKind : ResponseItem → Option OutputKind
  | .functionCallOutput .. => some .functionCall
  | .toolSearchOutput .. => some .toolSearch
  | .customToolCallOutput .. => some .customTool
  | _ => none

/-- Is the item the output of a search that the server ran? -/
def ResponseItem.isServerOutput : ResponseItem → Bool
  | .toolSearchOutput _ _ execution _ => execution = "server".toList
  | _ => false

/-- Is there a call with the key? -/
def HasCall (items : List ResponseItem) (key : OutputKind × Text) : Prop :=
  ∃ call ∈ items, call.callKey = some key

/-- Is there an output with the key? -/
def HasOutput (items : List ResponseItem) (key : OutputKind × Text) : Prop :=
  ∃ output ∈ items, output.outputKey = some key

/-- Every call has an output, and every output that the server did not produce has a call. -/
structure Paired (items : List ResponseItem) : Prop where
  output : ∀ call ∈ items, ∀ key, call.callKey = some key → HasOutput items key
  call : ∀ output ∈ items, output.isServerOutput = false →
    ∀ key, output.outputKey = some key → HasCall items key

/-- The output that is put after the item: the one of a call that has none. -/
def synthesised (items : List ResponseItem) (item : ResponseItem) : List ResponseItem :=
  ((missingOutput items item).map (·.output)).toList

/-- Is the item an output without a call? -/
def isOrphan (items : List ResponseItem) (item : ResponseItem) : Bool :=
  (orphanError items item).isSome

/-- The items that are not orphans, each call without output followed by a synthesised one. -/
def pairedItems (items : List ResponseItem) : List ResponseItem :=
  (items.filter fun item => !isOrphan items item).flatMap fun item => item :: synthesised items item

variable {items : List ResponseItem} {item : ResponseItem} {key : OutputKind × Text}

/-! ## The keys of calls and outputs -/

lemma outputKey_of_callKey (h : item.callKey = some key) : item.outputKey = none := by
  cases item <;> simp_all [callKey, outputKey]

lemma any_iff_hasOutput {test : ResponseItem → Bool}
    (h : ∀ output, test output = true ↔ output.outputKey = some key) :
    items.any test = true ↔ HasOutput items key := by
  rw [List.any_eq_true]
  exact exists_congr fun output => and_congr_right fun _ => h output

variable {callId : Text}

lemma hasFunctionCallOutput_iff :
    hasFunctionCallOutput items callId = true ↔ HasOutput items (.functionCall, callId) := by
  refine any_iff_hasOutput fun output => ?_
  cases output with
  | toolSearchOutput id => cases id <;> simp [outputKey]
  | _ => simp [outputKey]

lemma hasToolSearchOutput_iff :
    hasToolSearchOutput items callId = true ↔ HasOutput items (.toolSearch, callId) := by
  refine any_iff_hasOutput fun output => ?_
  cases output with
  | toolSearchOutput id => cases id <;> simp [outputKey]
  | _ => simp [outputKey]

lemma hasCustomToolCallOutput_iff :
    hasCustomToolCallOutput items callId = true ↔ HasOutput items (.customTool, callId) := by
  refine any_iff_hasOutput fun output => ?_
  cases output with
  | toolSearchOutput id => cases id <;> simp [outputKey]
  | _ => simp [outputKey]

lemma mem_functionCallIds_iff :
    callId ∈ functionCallIds items ∨ callId ∈ localShellCallIds items ↔
      HasCall items (.functionCall, callId) := by
  unfold functionCallIds localShellCallIds HasCall
  simp only [List.mem_filterMap, ← exists_or, ← and_or_left]
  refine exists_congr fun call => and_congr_right fun _ => ?_
  cases call with
  | localShellCall _ id | toolSearchCall _ id => cases id <;> simp [callKey]
  | _ => simp [callKey]

lemma mem_toolSearchCallIds_iff :
    callId ∈ toolSearchCallIds items ↔ HasCall items (.toolSearch, callId) := by
  unfold toolSearchCallIds HasCall
  rw [List.mem_filterMap]
  refine exists_congr fun call => and_congr_right fun _ => ?_
  cases call with
  | localShellCall _ id | toolSearchCall _ id => cases id <;> simp [callKey]
  | _ => simp [callKey]

lemma mem_customToolCallIds_iff :
    callId ∈ customToolCallIds items ↔ HasCall items (.customTool, callId) := by
  unfold customToolCallIds HasCall
  rw [List.mem_filterMap]
  refine exists_congr fun call => and_congr_right fun _ => ?_
  cases call with
  | localShellCall _ id | toolSearchCall _ id => cases id <;> simp [callKey]
  | _ => simp [callKey]

/-! ## What is missing, and what is an orphan -/

lemma ite_none_some_eq_none_iff {α : Type} {test : Bool} {value : α} :
    (if test then none else some value) = none ↔ test = true := by
  cases test <;> simp

lemma missingOutput_eq_none_iff :
    missingOutput items item = none ↔ ∀ key, item.callKey = some key → HasOutput items key := by
  cases item with
  | functionCall =>
    rw [missingOutput, ite_none_some_eq_none_iff, hasFunctionCallOutput_iff]
    simp [callKey]
  | customToolCall =>
    rw [missingOutput, ite_none_some_eq_none_iff, hasCustomToolCallOutput_iff]
    simp [callKey]
  | localShellCall _ id =>
    cases id with
    | none => simp [missingOutput, callKey]
    | some =>
      rw [missingOutput, ite_none_some_eq_none_iff, hasFunctionCallOutput_iff]
      simp [callKey]
  | toolSearchCall _ id =>
    cases id with
    | none => simp [missingOutput, callKey]
    | some =>
      rw [missingOutput, ite_none_some_eq_none_iff, hasToolSearchOutput_iff]
      simp [callKey]
  | _ => simp [missingOutput, callKey]

lemma eq_of_ite_none_some {α : Type} {test : Bool} {value result : α}
    (h : (if test then none else some value) = some result) : value = result := by
  cases test with
  | true => cases h
  | false => exact Option.some.inj h

lemma outputKey_of_missingOutput {missing : MissingOutput}
    (h : missingOutput items item = some missing) :
    (∃ key, item.callKey = some key ∧ missing.output.outputKey = some key) ∧
      missing.output.isServerOutput = false := by
  cases item with
  | functionCall _ _ _ _ callId | customToolCall _ _ callId =>
    rw [missingOutput] at h
    rw [← eq_of_ite_none_some h]
    exact ⟨⟨_, rfl, rfl⟩, rfl⟩
  | localShellCall _ id =>
    cases id with
    | none => cases h
    | some callId =>
      rw [missingOutput] at h
      rw [← eq_of_ite_none_some h]
      exact ⟨⟨_, rfl, rfl⟩, rfl⟩
  | toolSearchCall _ id =>
    cases id with
    | none => cases h
    | some callId =>
      rw [missingOutput] at h
      rw [← eq_of_ite_none_some h]
      have hclient : decide ("client".toList = "server".toList) = false := by decide +kernel
      exact ⟨⟨_, rfl, rfl⟩, hclient⟩
  | _ => cases h

lemma isOrphan_eq_false_iff :
    isOrphan items item = false ↔
      (item.isServerOutput = false → ∀ key, item.outputKey = some key → HasCall items key) := by
  unfold isOrphan
  rw [Option.isSome_eq_false_iff, Option.isNone_iff_eq_none]
  cases item with
  | functionCallOutput callId =>
    rw [orphanError, ite_none_some_eq_none_iff]
    simp [outputKey, isServerOutput, mem_functionCallIds_iff]
  | customToolCallOutput callId =>
    rw [orphanError, ite_none_some_eq_none_iff]
    simp [outputKey, isServerOutput, mem_customToolCallIds_iff]
  | toolSearchOutput id status execution =>
    unfold orphanError
    by_cases hserver : execution = "server".toList
    · simp only [if_pos hserver]
      simp [isServerOutput, hserver]
    simp only [if_neg hserver]
    cases id with
    | none => simp [outputKey]
    | some callId =>
      rw [ite_none_some_eq_none_iff]
      have hnot : decide (execution = "server".toList) = false := decide_eq_false hserver
      simp only [outputKey, isServerOutput, hnot]
      simp [mem_toolSearchCallIds_iff]
  | _ => simp [orphanError, outputKey]

/-! ## The passes -/

/-- The computation gives the value, unless it panics in a build with debug assertions. -/
def OkOrPanics {α : Type} (debugAssertions : Bool) (computation : Except Text α) (value : α) : Prop :=
  computation = .ok value ∨ debugAssertions = true ∧ ∃ message, computation = .error message

section
variable {α β : Type} {debugAssertions : Bool}

lemma OkOrPanics.bind {computation : Except Text α} {value : α} {next : α → Except Text β}
    {result : β} (h : OkOrPanics debugAssertions computation value)
    (hnext : OkOrPanics debugAssertions (next value) result) :
    OkOrPanics debugAssertions (computation >>= next) result := by
  rcases h with rfl | ⟨hdebug, message, rfl⟩
  · exact hnext
  · exact Or.inr ⟨hdebug, message, rfl⟩

lemma OkOrPanics.pure (value : α) : OkOrPanics debugAssertions (Pure.pure value) value :=
  Or.inl rfl

lemma errorOrPanic_ok (message : Text) :
    OkOrPanics debugAssertions (errorOrPanic debugAssertions message) () := by
  cases debugAssertions with
  | true => exact Or.inr ⟨rfl, message, rfl⟩
  | false => exact Or.inl rfl

lemma reportError_ok (error : Option Text) :
    OkOrPanics debugAssertions (reportError debugAssertions error) () := by
  cases error with
  | none => exact Or.inl rfl
  | some message => exact errorOrPanic_ok message

/-- The missing outputs with the positions of their calls. -/
def missingAt (items : List ResponseItem) (rest : List (ResponseItem × ℕ)) :
    List (ℕ × ResponseItem) :=
  rest.flatMap fun (item, idx) => (synthesised items item).map (idx, ·)

lemma missingOutputsToInsert_ok (rest : List (ResponseItem × ℕ)) :
    OkOrPanics debugAssertions (missingOutputsToInsert debugAssertions items rest)
      (missingAt items rest) := by
  induction rest with
  | nil => exact .pure _
  | cons entry rest ih =>
    obtain ⟨item, idx⟩ := entry
    rw [missingOutputsToInsert]
    cases hmissing : missingOutput items item with
    | none =>
      have heq : missingAt items ((item, idx) :: rest) = missingAt items rest := by
        simp [missingAt, synthesised, hmissing]
      rw [heq]
      exact ih
    | some missing =>
      have heq : missingAt items ((item, idx) :: rest) =
          (idx, missing.output) :: missingAt items rest := by
        simp [missingAt, synthesised, hmissing]
      rw [heq]
      exact (reportError_ok _).bind (ih.bind (.pure _))

lemma insertIdx_append_length (before after : List α) (a : α) :
    (before ++ after).insertIdx before.length a = before ++ a :: after := by
  induction before with
  | nil => rfl
  | cons b before ih => simp [ih]

lemma insertOutputs_missingAt (before rest : List ResponseItem) :
    insertOutputs (missingAt items (rest.zipIdx before.length)) (before ++ rest) =
      before ++ rest.flatMap fun item => item :: synthesised items item := by
  induction rest generalizing before with
  | nil => rfl
  | cons item rest ih =>
    -- the insertions for the later items come first
    have hrest := ih (before ++ [item])
    rw [List.append_assoc, List.append_assoc, List.length_append, List.length_singleton,
      List.singleton_append, List.singleton_append] at hrest
    cases hmissing : missingOutput items item with
    | none =>
      simpa [missingAt, synthesised, hmissing] using hrest
    | some missing =>
      have hhead : missingAt items ((item :: rest).zipIdx before.length) =
          (before.length, missing.output) :: missingAt items (rest.zipIdx (before.length + 1)) := by
        simp [missingAt, synthesised, hmissing]
      have hinsert := insertIdx_append_length (before ++ [item])
        (rest.flatMap fun item => item :: synthesised items item) missing.output
      rw [List.length_append, List.length_singleton, List.append_assoc, List.append_assoc,
        List.singleton_append, List.singleton_append] at hinsert
      rw [hhead]
      unfold insertOutputs at hrest ⊢
      rw [List.reverse_cons, List.foldl_append, hrest]
      simpa [synthesised, hmissing] using hinsert

lemma ensureCallOutputsPresent_ok :
    OkOrPanics debugAssertions (ensureCallOutputsPresent debugAssertions items)
      (items.flatMap fun item => item :: synthesised items item) := by
  refine (missingOutputsToInsert_ok _).bind ?_
  have hinsert : insertOutputs (missingAt items items.zipIdx) items =
      items.flatMap fun item => item :: synthesised items item := insertOutputs_missingAt [] items
  rw [hinsert]
  exact .pure _

lemma retainOutputs_ok (rest : List ResponseItem) :
    OkOrPanics debugAssertions (retainOutputs debugAssertions items rest)
      (rest.filter fun item => !isOrphan items item) := by
  induction rest with
  | nil => exact .pure _
  | cons item rest ih =>
    rw [retainOutputs]
    cases herror : orphanError items item with
    | none =>
      rw [List.filter_cons_of_pos (by simp [isOrphan, herror])]
      exact ih.bind (.pure _)
    | some message =>
      rw [List.filter_cons_of_neg (by simp [isOrphan, herror])]
      exact (errorOrPanic_ok message).bind ih

end

/-! ## The two passes together -/

lemma callKey_of_mem_synthesised {output : ResponseItem} (h : output ∈ synthesised items item) :
    output.callKey = none ∧ output.isServerOutput = false ∧
      ∃ key, item.callKey = some key ∧ output.outputKey = some key := by
  unfold synthesised at h
  rw [Option.mem_toList, Option.map_eq_some_iff] at h
  obtain ⟨missing, hmissing, rfl⟩ := h
  obtain ⟨⟨key, hcall, houtput⟩, hserver⟩ := outputKey_of_missingOutput hmissing
  refine ⟨?_, hserver, key, hcall, houtput⟩
  -- an item with an output key is not a call
  cases hkey : missing.output.callKey with
  | none => rfl
  | some => rw [outputKey_of_callKey hkey] at houtput; cases houtput

lemma hasCall_flatMap_synthesised :
    HasCall (items.flatMap fun item => item :: synthesised items item) key ↔ HasCall items key := by
  constructor
  · rintro ⟨call, hcall, hkey⟩
    obtain ⟨item, hitem, hmem⟩ := List.mem_flatMap.mp hcall
    rcases List.mem_cons.mp hmem with rfl | hsynthesised
    · exact ⟨call, hitem, hkey⟩
    · rw [(callKey_of_mem_synthesised hsynthesised).1] at hkey
      cases hkey
  · rintro ⟨call, hcall, hkey⟩
    exact ⟨call, List.mem_flatMap.mpr ⟨call, hcall, List.mem_cons_self⟩, hkey⟩

lemma isOrphan_congr {items' : List ResponseItem} (h : ∀ key, HasCall items' key ↔ HasCall items key)
    (item : ResponseItem) : isOrphan items' item = isOrphan items item := by
  have hiff : isOrphan items' item = false ↔ isOrphan items item = false := by
    rw [isOrphan_eq_false_iff, isOrphan_eq_false_iff]
    simp only [h]
  cases h' : isOrphan items' item <;> cases h'' : isOrphan items item <;> simp_all

lemma isOrphan_of_callKey (h : item.callKey = some key) : isOrphan items item = false := by
  rw [isOrphan_eq_false_iff, outputKey_of_callKey h]
  intro _ key hkey
  cases hkey

lemma isOrphan_of_mem_synthesised {output : ResponseItem} (hitem : item ∈ items)
    (h : output ∈ synthesised items item) : isOrphan items output = false := by
  obtain ⟨-, -, key, hcall, houtput⟩ := callKey_of_mem_synthesised h
  rw [isOrphan_eq_false_iff, houtput]
  rintro _ _ ⟨⟩
  exact ⟨item, hitem, hcall⟩

/-- Dropping the orphans drops no synthesised output, and no call that got one. -/
lemma filter_flatMap_synthesised (rest : List ResponseItem) (h : rest ⊆ items) :
    (rest.flatMap fun item => item :: synthesised items item).filter
        (fun item => !isOrphan items item) =
      (rest.filter fun item => !isOrphan items item).flatMap
        fun item => item :: synthesised items item := by
  induction rest with
  | nil => rfl
  | cons item rest ih =>
    have hitem : item ∈ items := h List.mem_cons_self
    have hkept : (synthesised items item).filter (fun item => !isOrphan items item) =
        synthesised items item := by
      rw [List.filter_eq_self]
      intro output houtput
      rw [isOrphan_of_mem_synthesised hitem houtput]
      rfl
    have hrest := ih fun _ hmem => h (List.mem_cons_of_mem _ hmem)
    rw [List.flatMap_cons, List.filter_append, hrest]
    cases horphan : isOrphan items item with
    | false =>
      rw [List.filter_cons_of_pos (by rw [horphan]; rfl), hkept,
        List.filter_cons_of_pos (by rw [horphan]; rfl), List.flatMap_cons]
    | true =>
      -- an orphan is no call, so nothing was put after it
      have hnone : synthesised items item = [] := by
        refine List.eq_nil_iff_forall_not_mem.mpr fun output houtput => ?_
        obtain ⟨-, -, key, hcall, -⟩ := callKey_of_mem_synthesised houtput
        rw [isOrphan_of_callKey hcall] at horphan
        cases horphan
      rw [hnone, List.filter_cons_of_neg (by rw [horphan]; simp),
        List.filter_cons_of_neg (by rw [horphan]; simp)]
      rfl

/-- The two passes give `pairedItems`, or panic in a build with debug assertions. -/
lemma pairCallOutputs_ok (debugAssertions : Bool) (items : List ResponseItem) :
    OkOrPanics debugAssertions (pairCallOutputs debugAssertions items) (pairedItems items) := by
  refine ensureCallOutputsPresent_ok.bind ?_
  have hkeep (item : ResponseItem) :
      isOrphan (items.flatMap fun item => item :: synthesised items item) item =
        isOrphan items item :=
    isOrphan_congr (fun _ => hasCall_flatMap_synthesised) item
  have hpaired : pairedItems items =
      (items.flatMap fun item => item :: synthesised items item).filter fun item =>
        !isOrphan (items.flatMap fun item => item :: synthesised items item) item := by
    simp only [hkeep]
    exact (filter_flatMap_synthesised items fun _ => id).symm
  rw [hpaired]
  exact retainOutputs_ok _

lemma pairCallOutputs_release (items : List ResponseItem) :
    pairCallOutputs false items = .ok (pairedItems items) := by
  rcases pairCallOutputs_ok false items with h | ⟨h, -⟩
  · exact h
  · cases h

lemma mem_pairedItems :
    item ∈ pairedItems items ↔
      (item ∈ items ∧ isOrphan items item = false) ∨
        ∃ call ∈ items, item ∈ synthesised items call := by
  unfold pairedItems
  simp only [List.mem_flatMap, List.mem_filter, List.mem_cons, Bool.not_eq_true']
  constructor
  · rintro ⟨call, ⟨hcall, horphan⟩, rfl | hmem⟩
    · exact Or.inl ⟨hcall, horphan⟩
    · exact Or.inr ⟨call, hcall, hmem⟩
  · rintro (⟨hmem, horphan⟩ | ⟨call, hcall, hmem⟩)
    · exact ⟨item, ⟨hmem, horphan⟩, Or.inl rfl⟩
    · obtain ⟨-, -, key, hkey, -⟩ := callKey_of_mem_synthesised hmem
      exact ⟨call, ⟨hcall, isOrphan_of_callKey hkey⟩, Or.inr hmem⟩

lemma hasCall_pairedItems (h : HasCall items key) : HasCall (pairedItems items) key := by
  obtain ⟨call, hcall, hkey⟩ := h
  exact ⟨call, mem_pairedItems.mpr (Or.inl ⟨hcall, isOrphan_of_callKey hkey⟩), hkey⟩

lemma paired_pairedItems (items : List ResponseItem) : Paired (pairedItems items) where
  output := by
    intro call hmem key hkey
    have hcall : call ∈ items := by
      rcases mem_pairedItems.mp hmem with ⟨hcall, -⟩ | ⟨_, -, hsynthesised⟩
      · exact hcall
      · rw [(callKey_of_mem_synthesised hsynthesised).1] at hkey
        cases hkey
    cases hmissing : missingOutput items call with
    | none =>
      -- the output that is there has this call, so it stays
      obtain ⟨output, houtput, hkey'⟩ := missingOutput_eq_none_iff.mp hmissing key hkey
      refine ⟨output, mem_pairedItems.mpr (Or.inl ⟨houtput, ?_⟩), hkey'⟩
      rw [isOrphan_eq_false_iff, hkey']
      rintro _ _ ⟨⟩
      exact ⟨call, hcall, hkey⟩
    | some missing =>
      have hmem' : missing.output ∈ synthesised items call := by simp [synthesised, hmissing]
      obtain ⟨-, -, key', hcall', houtput⟩ := callKey_of_mem_synthesised hmem'
      rw [hkey] at hcall'
      cases hcall'
      exact ⟨missing.output, mem_pairedItems.mpr (Or.inr ⟨call, hcall, hmem'⟩), houtput⟩
  call := by
    intro output hmem hserver key hkey
    apply hasCall_pairedItems
    rcases mem_pairedItems.mp hmem with ⟨-, horphan⟩ | ⟨call, hcall, hsynthesised⟩
    · exact isOrphan_eq_false_iff.mp horphan hserver key hkey
    obtain ⟨-, -, key', hcall', houtput⟩ := callKey_of_mem_synthesised hsynthesised
    rw [hkey] at houtput
    cases houtput
    exact ⟨call, hcall, hcall'⟩

/-! ## Idempotence -/

lemma missingOutputsToInsert_of_none {debugAssertions : Bool} (rest : List (ResponseItem × ℕ))
    (h : ∀ entry ∈ rest, missingOutput items entry.1 = none) :
    missingOutputsToInsert debugAssertions items rest = .ok [] := by
  induction rest with
  | nil => rfl
  | cons entry rest ih =>
    rw [missingOutputsToInsert, h entry List.mem_cons_self]
    exact ih fun entry' hmem => h entry' (List.mem_cons_of_mem _ hmem)

lemma retainOutputs_of_none {debugAssertions : Bool} (rest : List ResponseItem)
    (h : ∀ item ∈ rest, isOrphan items item = false) :
    retainOutputs debugAssertions items rest = .ok rest := by
  induction rest with
  | nil => rfl
  | cons item rest ih =>
    have hnone : orphanError items item = none := by
      simpa [isOrphan] using h item List.mem_cons_self
    rw [retainOutputs, hnone, ih fun item' hmem => h item' (List.mem_cons_of_mem _ hmem)]
    rfl

lemma pairCallOutputs_of_paired (h : Paired items) (debugAssertions : Bool) :
    pairCallOutputs debugAssertions items = .ok items := by
  have hmissing : missingOutputsToInsert debugAssertions items items.zipIdx = .ok [] := by
    refine missingOutputsToInsert_of_none _ fun entry hentry => ?_
    have hmem : entry.1 ∈ items := List.fst_mem_of_mem_zipIdx hentry
    exact missingOutput_eq_none_iff.mpr (h.output entry.1 hmem)
  have hretain : retainOutputs debugAssertions items items = .ok items :=
    retainOutputs_of_none _ fun item hitem => isOrphan_eq_false_iff.mpr (h.call item hitem)
  unfold pairCallOutputs ensureCallOutputsPresent removeOrphanOutputs
  rw [hmissing]
  exact hretain

/-! ## Stripping images keeps the pairing -/

@[simp] lemma callKey_stripImages : item.stripImages.callKey = item.callKey := by
  cases item <;> rfl

@[simp] lemma outputKey_stripImages : item.stripImages.outputKey = item.outputKey := by
  cases item <;> rfl

@[simp] lemma isServerOutput_stripImages :
    item.stripImages.isServerOutput = item.isServerOutput := by
  cases item <;> rfl

lemma Paired.stripImages (h : Paired items) (inputModalities : List InputModality) :
    Paired (stripImagesWhenUnsupported inputModalities items) := by
  unfold stripImagesWhenUnsupported
  split
  · exact h
  · constructor
    · simpa [HasOutput] using h.output
    · simpa [HasCall] using h.call

/-! ## Stripping images leaves none -/

/-- Does the tool output show an image? -/
def FunctionCallOutputPayload.showsImage (output : FunctionCallOutputPayload) : Bool :=
  match output.body with
  | .contentItems items => items.any fun
    | .inputImage _ _ => true
    | .inputText _ => false
  | .text _ => false

/-- Does the item show an image? -/
def ResponseItem.showsImage : ResponseItem → Bool
  | .message _ _ content _ _ => content.any fun
    | .inputImage _ _ => true
    | _ => false
  | .functionCallOutput _ output => output.showsImage
  | .customToolCallOutput _ _ output => output.showsImage
  | .imageGenerationCall _ _ _ result => result ≠ []
  | _ => false

lemma ContentItem.stripImage_stripImage (content : ContentItem) :
    content.stripImage.stripImage = content.stripImage := by
  cases content <;> rfl

lemma FunctionCallOutputPayload.stripImages_stripImages (output : FunctionCallOutputPayload) :
    output.stripImages.stripImages = output.stripImages := by
  obtain ⟨body, success⟩ := output
  cases body with
  | text content => rfl
  | contentItems items =>
    simp only [FunctionCallOutputPayload.stripImages, List.map_map]
    congr 2
    refine List.map_congr_left fun content _ => ?_
    cases content <;> rfl

lemma stripImages_stripImages : item.stripImages.stripImages = item.stripImages := by
  cases item with
  | message id role content endTurn phase =>
    simp only [stripImages, List.map_map]
    congr 1
    exact List.map_congr_left fun content _ => content.stripImage_stripImage
  | functionCallOutput callId output =>
    exact congrArg (functionCallOutput callId) output.stripImages_stripImages
  | customToolCallOutput callId name output =>
    exact congrArg (customToolCallOutput callId name) output.stripImages_stripImages
  | _ => rfl

lemma stripImagesWhenUnsupported_twice (inputModalities : List InputModality) :
    stripImagesWhenUnsupported inputModalities (stripImagesWhenUnsupported inputModalities items) =
      stripImagesWhenUnsupported inputModalities items := by
  unfold stripImagesWhenUnsupported
  split
  · rfl
  · rw [List.map_map]
    exact List.map_congr_left fun _ _ => stripImages_stripImages

lemma FunctionCallOutputPayload.showsImage_stripImages (output : FunctionCallOutputPayload) :
    output.stripImages.showsImage = false := by
  obtain ⟨body, success⟩ := output
  cases body with
  | text content => rfl
  | contentItems items =>
    simp only [FunctionCallOutputPayload.stripImages, showsImage, List.any_map, List.any_eq_false]
    intro content _
    cases content <;> exact Bool.false_ne_true

lemma showsImage_stripImages : item.stripImages.showsImage = false := by
  cases item with
  | message id role content endTurn phase =>
    simp only [stripImages, showsImage, List.any_map, List.any_eq_false]
    intro content _
    cases content <;> exact Bool.false_ne_true
  | functionCallOutput callId output => exact output.showsImage_stripImages
  | customToolCallOutput callId name output => exact output.showsImage_stripImages
  | _ => rfl

/-- What a release build sends to the model is a paired history, shows no image to a model that takes none, and
stays as it is when it is normalised again, in a debug build too. -/
theorem paired_normalizeHistory (inputModalities : List InputModality)
    (items : List ResponseItem) :
    ∃ out, normalizeHistory false inputModalities items = .ok out ∧ Paired out ∧
      (.image ∉ inputModalities → ∀ item ∈ out, item.showsImage = false) ∧
      ∀ debugAssertions, normalizeHistory debugAssertions inputModalities out = .ok out := by
  have hpaired := (paired_pairedItems items).stripImages inputModalities
  refine ⟨_, ?_, hpaired, ?_, ?_⟩
  · unfold normalizeHistory
    rw [pairCallOutputs_release]
    rfl
  · intro hmodalities item hitem
    rw [stripImagesWhenUnsupported, if_neg (by simpa using hmodalities)] at hitem
    obtain ⟨before, -, rfl⟩ := List.mem_map.mp hitem
    exact showsImage_stripImages
  · intro debugAssertions
    unfold normalizeHistory
    rw [pairCallOutputs_of_paired hpaired]
    exact congrArg Except.ok (stripImagesWhenUnsupported_twice inputModalities)

/-! ## The whole pairing -/

/-- The normalised history: every call that has a call id has an output, every output that has one
and that the server did not produce has a call, normalising again changes nothing, and the history is
the old one without its orphans, each synthesised output right after its call. -/
theorem pairCallOutputs_spec (items : List ResponseItem) :
    ∃ out, pairCallOutputs false items = .ok out ∧
      (∀ debugAssertions, OkOrPanics debugAssertions (pairCallOutputs debugAssertions items) out) ∧
      Paired out ∧
      (∀ debugAssertions, pairCallOutputs debugAssertions out = .ok out) ∧
      out = (items.filter fun item => !isOrphan items item).flatMap
        (fun item => item :: synthesised items item) ∧
      (∀ item output, output ∈ synthesised items item →
        ∃ key, item.callKey = some key ∧ output.outputKey = some key ∧ ¬ HasOutput items key) ∧
      ∀ item, isOrphan items item = true →
        item.isServerOutput = false ∧ ∃ key, item.outputKey = some key ∧ ¬ HasCall items key := by
  refine ⟨pairedItems items, pairCallOutputs_release items,
    fun debugAssertions => pairCallOutputs_ok debugAssertions items, paired_pairedItems items,
    pairCallOutputs_of_paired (paired_pairedItems items), rfl, ?_, ?_⟩
  · intro item output houtput
    obtain ⟨-, -, key, hcall, hkey⟩ := callKey_of_mem_synthesised houtput
    refine ⟨key, hcall, hkey, fun hthere => ?_⟩
    have hnone : missingOutput items item = none := by
      rw [missingOutput_eq_none_iff, hcall]
      rintro _ ⟨⟩
      exact hthere
    simp [synthesised, hnone] at houtput
  · intro item horphan
    have hnot := mt isOrphan_eq_false_iff.mpr (by rw [horphan]; simp)
    push Not at hnot
    obtain ⟨hserver, key, hkey, hcall⟩ := hnot
    exact ⟨hserver, key, hkey, hcall⟩

/-- Without call ids there is no pairing: the shell call gets no output, and the output of the client
stays without a call. -/
theorem unpaired_without_call_ids :
    let items : List ResponseItem :=
      [.localShellCall none none .completed [], .toolSearchOutput none [] "client".toList []]
    pairCallOutputs false items = .ok items ∧
      (∃ call ∈ items, ∃ kind, call.callKind = some kind ∧
        ∀ output ∈ items, output.outputKind ≠ some kind) ∧
      ∃ output ∈ items, output.isServerOutput = false ∧ ∃ kind, output.outputKind = some kind ∧
        ∀ call ∈ items, call.callKind ≠ some kind := by
  intro items
  have hpaired : Paired items := by
    constructor <;> simp [items, callKey, outputKey]
  refine ⟨pairCallOutputs_of_paired hpaired false, ⟨_, List.mem_cons_self, .functionCall, rfl, ?_⟩,
    ⟨_, List.mem_cons_of_mem _ List.mem_cons_self, ?_, .toolSearch, rfl, ?_⟩⟩
  · simp [items, outputKind]
  · simp [isServerOutput]
  · simp [items, callKind]

end Supercodex.History
