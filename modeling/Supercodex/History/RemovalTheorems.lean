import Mathlib.Data.List.Nodup
import Mathlib.Data.List.Perm.Basic
import Supercodex.History.ContextManager
import Supercodex.History.NormalizeTheorems

/-!
# Removing items at the ends of a history

An item is removed together with its counterpart: the item with the same key on the other side of the
pairing. Where every key has one call and one output, what is left is paired again.
-/

namespace Supercodex.History

open ResponseItem ContextManager

/-- A call has one output of its kind, an output that the server did not produce has a call, and no two calls
have the same id. -/
structure PairedOnce (items : List ResponseItem) : Prop where
  output : ∀ call ∈ items, ∀ key, call.callKey = some key →
    items.countP (fun output => output.outputKey = some key) = 1
  call : ∀ output ∈ items, output.isServerOutput = false →
    ∀ key, output.outputKey = some key → HasCall items key
  distinct : (items.filterMap fun item => item.callKey.map Prod.snd).Nodup

/-- The two items are a call and an output with the same key. -/
def Counterpart (item partner : ResponseItem) : Prop :=
  ∃ key, (item.callKey = some key ∧ partner.outputKey = some key) ∨
    (item.outputKey = some key ∧ partner.callKey = some key)

/-- What is left of the items beside `item` when its counterpart is removed: all of them if there is none. -/
def WithoutCounterpart (item : ResponseItem) (items left : List ResponseItem) : Prop :=
  (left = items ∧ ∀ partner ∈ items, ¬Counterpart item partner) ∨
    ∃ before partner after, items = before ++ partner :: after ∧ Counterpart item partner ∧ left = before ++ after

variable {items left : List ResponseItem} {item call output : ResponseItem} {key : OutputKind × Text}

/-! ## The search for the counterpart -/

lemma counterpart_of_callKey (h : item.callKey = some key) (partner : ResponseItem) :
    Counterpart item partner ↔ partner.outputKey = some key := by
  have hnone := outputKey_of_callKey h
  constructor
  · rintro ⟨key', ⟨hitem, hpartner⟩ | ⟨hitem, -⟩⟩
    · rw [h] at hitem
      rw [hpartner, hitem]
    · rw [hnone] at hitem
      cases hitem
  · exact fun hpartner => ⟨key, .inl ⟨h, hpartner⟩⟩

lemma counterpart_of_outputKey (h : item.outputKey = some key) (partner : ResponseItem) :
    Counterpart item partner ↔ partner.callKey = some key := by
  constructor
  · rintro ⟨key', ⟨hitem, -⟩ | ⟨hitem, hpartner⟩⟩
    · rw [outputKey_of_callKey hitem] at h
      cases h
    · rw [h] at hitem
      rw [hpartner, hitem]
  · exact fun hpartner => ⟨key, .inr ⟨h, hpartner⟩⟩

lemma withoutCounterpart_eraseP {predicate : ResponseItem → Bool}
    (h : ∀ partner ∈ items, predicate partner = true ↔ Counterpart item partner) :
    WithoutCounterpart item items (items.eraseP predicate) := by
  by_cases hany : ∃ partner ∈ items, predicate partner = true
  · obtain ⟨partner, hpartner, hmatch⟩ := hany
    obtain ⟨found, before, after, -, hfound, hitems, herased⟩ := List.exists_of_eraseP hpartner hmatch
    have hmem : found ∈ items := by
      rw [hitems]
      exact List.mem_append_right _ List.mem_cons_self
    exact .inr ⟨before, found, after, hitems, (h found hmem).mp hfound, herased⟩
  · push Not at hany
    refine .inl ⟨List.eraseP_of_forall_not hany, fun partner hpartner => ?_⟩
    exact mt (h partner hpartner).mpr (hany partner hpartner)

lemma outputTests_iff (callId : Text) (item : ResponseItem) :
    (isFunctionCallOutputOf callId item = true ↔ item.outputKey = some (.functionCall, callId)) ∧
      (isToolSearchOutputOf callId item = true ↔ item.outputKey = some (.toolSearch, callId)) ∧
      (isCustomToolCallOutputOf callId item = true ↔ item.outputKey = some (.customTool, callId)) := by
  cases item with
  | toolSearchOutput id =>
    cases id <;> simp [isFunctionCallOutputOf, isToolSearchOutputOf, isCustomToolCallOutputOf, outputKey]
  | _ => simp [isFunctionCallOutputOf, isToolSearchOutputOf, isCustomToolCallOutputOf, outputKey]

/-- The four tests of the source ask for a kind of call and its id. -/
lemma callTests_iff (callId : Text) (item : ResponseItem) :
    ((isFunctionCallOf callId item = true ∨ isLocalShellCallOf callId item = true) ↔
        item.callKey = some (.functionCall, callId)) ∧
      (isToolSearchCallOf callId item = true ↔ item.callKey = some (.toolSearch, callId)) ∧
      (isCustomToolCallOf callId item = true ↔ item.callKey = some (.customTool, callId)) := by
  cases item with
  | localShellCall _ id | toolSearchCall _ id =>
    cases id <;> simp [isFunctionCallOf, isLocalShellCallOf, isToolSearchCallOf, isCustomToolCallOf, callKey]
  | _ => simp [isFunctionCallOf, isLocalShellCallOf, isToolSearchCallOf, isCustomToolCallOf, callKey]

lemma withoutCounterpart_of_no_key (hcall : item.callKey = none) (houtput : item.outputKey = none) :
    WithoutCounterpart item items items := by
  refine .inl ⟨rfl, ?_⟩
  rintro partner - ⟨key, ⟨hkey, -⟩ | ⟨hkey, -⟩⟩
  · rw [hcall] at hkey
    cases hkey
  · rw [houtput] at hkey
    cases hkey

lemma withoutCounterpart_functionCallOutput (items : List ResponseItem) (callId : Text)
    (payload : FunctionCallOutputPayload) :
    WithoutCounterpart (.functionCallOutput callId payload) items
      (removeCorrespondingFor items (.functionCallOutput callId payload)) := by
  have hkey : (functionCallOutput callId payload).outputKey = some (.functionCall, callId) := rfl
  have hpartner (partner : ResponseItem) : Counterpart (.functionCallOutput callId payload) partner ↔
      isFunctionCallOf callId partner = true ∨ isLocalShellCallOf callId partner = true :=
    (counterpart_of_outputKey hkey partner).trans (callTests_iff callId partner).1.symm
  rw [removeCorrespondingFor]
  split
  · rename_i hany
    obtain ⟨partner, hmem, hmatch⟩ := List.any_eq_true.mp hany
    obtain ⟨found, before, after, -, hfound, hitems, herased⟩ := List.exists_of_eraseP hmem hmatch
    exact .inr ⟨before, found, after, hitems, (hpartner found).mpr (.inl hfound), herased⟩
  · rename_i hany
    refine withoutCounterpart_eraseP fun partner hmem => ?_
    have hnot : ¬isFunctionCallOf callId partner = true := fun h => hany (List.any_eq_true.mpr ⟨partner, hmem, h⟩)
    rw [hpartner, or_iff_right hnot]

/-- `remove_corresponding_for` removes the counterpart. -/
lemma withoutCounterpart_removeCorrespondingFor (items : List ResponseItem) (item : ResponseItem) :
    WithoutCounterpart item items (removeCorrespondingFor items item) := by
  cases item with
  | functionCall id name nameSpace arguments callId =>
    have hkey : (functionCall id name nameSpace arguments callId).callKey =
        some (.functionCall, callId) := rfl
    exact withoutCounterpart_eraseP fun partner _ =>
      (outputTests_iff callId partner).1.trans (counterpart_of_callKey hkey partner).symm
  | functionCallOutput callId payload => exact withoutCounterpart_functionCallOutput items callId payload
  | customToolCall id status callId name input =>
    have hkey : (customToolCall id status callId name input).callKey = some (.customTool, callId) := rfl
    exact withoutCounterpart_eraseP fun partner _ =>
      (outputTests_iff callId partner).2.2.trans (counterpart_of_callKey hkey partner).symm
  | customToolCallOutput callId name payload =>
    have hkey : (customToolCallOutput callId name payload).outputKey = some (.customTool, callId) := rfl
    exact withoutCounterpart_eraseP fun partner _ =>
      (callTests_iff callId partner).2.2.trans (counterpart_of_outputKey hkey partner).symm
  | localShellCall id callId status action =>
    cases callId with
    | none => exact withoutCounterpart_of_no_key rfl rfl
    | some callId =>
      have hkey : (localShellCall id (some callId) status action).callKey =
          some (.functionCall, callId) := rfl
      exact withoutCounterpart_eraseP fun partner _ =>
        (outputTests_iff callId partner).1.trans (counterpart_of_callKey hkey partner).symm
  | toolSearchCall id callId status execution arguments =>
    cases callId with
    | none => exact withoutCounterpart_of_no_key rfl rfl
    | some callId =>
      have hkey : (toolSearchCall id (some callId) status execution arguments).callKey =
          some (.toolSearch, callId) := rfl
      exact withoutCounterpart_eraseP fun partner _ =>
        (outputTests_iff callId partner).2.1.trans (counterpart_of_callKey hkey partner).symm
  | toolSearchOutput callId status execution tools =>
    cases callId with
    | none => exact withoutCounterpart_of_no_key rfl rfl
    | some callId =>
      have hkey : (toolSearchOutput (some callId) status execution tools).outputKey =
          some (.toolSearch, callId) := rfl
      exact withoutCounterpart_eraseP fun partner _ =>
        (callTests_iff callId partner).2.1.trans (counterpart_of_outputKey hkey partner).symm
  | _ => exact withoutCounterpart_of_no_key rfl rfl

/-! ## What is left -/

lemma PairedOnce.perm {items' : List ResponseItem} (h : PairedOnce items) (hperm : items.Perm items') :
    PairedOnce items' where
  output call hcall key hkey := by
    rw [← hperm.countP_eq]
    exact h.output call (hperm.mem_iff.mpr hcall) key hkey
  call output houtput hserver key hkey := by
    obtain ⟨call, hcall, hcallKey⟩ := h.call output (hperm.mem_iff.mpr houtput) hserver key hkey
    exact ⟨call, hperm.mem_iff.mp hcall, hcallKey⟩
  distinct := (hperm.filterMap _).nodup_iff.mp h.distinct

/-- A call and its output may go together. -/
lemma PairedOnce.of_pair (h : PairedOnce (call :: output :: items)) (hcall : call.callKey = some key)
    (houtput : output.outputKey = some key) : PairedOnce items := by
  have hnoCall : output.callKey = none := by
    cases hkey : output.callKey with
    | none => rfl
    | some key' =>
      rw [outputKey_of_callKey hkey] at houtput
      cases houtput
  have hone := h.output call List.mem_cons_self key hcall
  have hnone : items.countP (fun output => output.outputKey = some key) = 0 := by
    rw [List.countP_cons_of_neg (by simp [outputKey_of_callKey hcall]),
      List.countP_cons_of_pos (by simp [houtput])] at hone
    omega
  have hdistinct := h.distinct
  rw [List.filterMap_cons_some (by rw [hcall]; rfl), List.filterMap_cons_none (by rw [hnoCall]; rfl),
    List.nodup_cons] at hdistinct
  refine ⟨?_, ?_, hdistinct.2⟩
  · intro call' hmem key' hkey'
    have hne : key' ≠ key := by
      rintro rfl
      exact hdistinct.1 (List.mem_filterMap.mpr ⟨call', hmem, by rw [hkey']; rfl⟩)
    have hcount := h.output call' (List.mem_cons_of_mem _ (List.mem_cons_of_mem _ hmem)) key' hkey'
    rwa [List.countP_cons_of_neg (by simp [outputKey_of_callKey hcall]),
      List.countP_cons_of_neg (by simp [houtput, hne.symm])] at hcount
  · intro output' hmem hserver key' hkey'
    have hne : key' ≠ key := by
      rintro rfl
      exact (List.countP_eq_zero.mp hnone) output' hmem (by simp [hkey'])
    obtain ⟨call', hmem', hcall'⟩ :=
      h.call output' (List.mem_cons_of_mem _ (List.mem_cons_of_mem _ hmem)) hserver key' hkey'
    rcases List.mem_cons.mp hmem' with rfl | hmem'
    · rw [hcall] at hcall'
      exact absurd (Option.some.inj hcall').symm hne
    rcases List.mem_cons.mp hmem' with rfl | hmem'
    · rw [hnoCall] at hcall'
      cases hcall'
    exact ⟨call', hmem', hcall'⟩

lemma PairedOnce.of_single (h : PairedOnce (item :: items)) (hpartner : ∀ partner ∈ items, ¬Counterpart item partner) :
    PairedOnce items := by
  refine ⟨?_, ?_, (h.distinct.sublist ((List.sublist_cons_self item items).filterMap _))⟩
  · intro call hmem key hkey
    have hcount := h.output call (List.mem_cons_of_mem _ hmem) key hkey
    rwa [List.countP_cons_of_neg] at hcount
    intro houtput
    exact hpartner call hmem ⟨key, .inr ⟨by simpa using houtput, hkey⟩⟩
  · intro output hmem hserver key hkey
    obtain ⟨call, hmem', hcall⟩ := h.call output (List.mem_cons_of_mem _ hmem) hserver key hkey
    rcases List.mem_cons.mp hmem' with rfl | hmem'
    · exact absurd ⟨key, .inl ⟨hcall, hkey⟩⟩ (hpartner output hmem)
    · exact ⟨call, hmem', hcall⟩

lemma PairedOnce.without (h : PairedOnce (item :: items)) (hleft : WithoutCounterpart item items left) :
    PairedOnce left := by
  obtain ⟨rfl, hpartner⟩ | ⟨before, partner, after, rfl, ⟨key, hkeys⟩, rfl⟩ := hleft
  · exact h.of_single hpartner
  have hperm : (item :: (before ++ partner :: after)).Perm (item :: partner :: (before ++ after)) :=
    List.perm_middle.cons item
  rcases hkeys with ⟨hcall, houtput⟩ | ⟨houtput, hcall⟩
  · exact (h.perm hperm).of_pair hcall houtput
  · exact (h.perm (hperm.trans (List.Perm.swap _ _ _))).of_pair hcall houtput

/-- Removing the item at either end of a paired history removes it and its counterpart, and what is left is
paired again. -/
theorem remove_end_paired (cm : ContextManager) (h : PairedOnce cm.items) :
    PairedOnce cm.removeFirstItem.items ∧ PairedOnce cm.removeLastItem.1.items ∧
      (∀ first rest, cm.items = first :: rest → WithoutCounterpart first rest cm.removeFirstItem.items) ∧
      ∀ rest last, cm.items = rest ++ [last] → WithoutCounterpart last rest cm.removeLastItem.1.items := by
  have hfirst : ∀ first rest, cm.items = first :: rest → WithoutCounterpart first rest cm.removeFirstItem.items := by
    intro first rest hitems
    rw [removeFirstItem, hitems]
    exact withoutCounterpart_removeCorrespondingFor rest first
  have hlast : ∀ rest last, cm.items = rest ++ [last] → WithoutCounterpart last rest cm.removeLastItem.1.items := by
    intro rest last hitems
    rw [removeLastItem, hitems, List.getLast?_concat, List.dropLast_concat]
    exact withoutCounterpart_removeCorrespondingFor rest last
  refine ⟨?_, ?_, hfirst, hlast⟩
  · cases hitems : cm.items with
    | nil =>
      rw [removeFirstItem, hitems]
      exact h
    | cons first rest =>
      rw [hitems] at h
      exact h.without (hfirst first rest hitems)
  · obtain hitems | ⟨rest, last, hitems⟩ := List.eq_nil_or_concat cm.items
    · rw [removeLastItem, hitems]
      exact h
    · rw [List.concat_eq_append] at hitems
      rw [hitems] at h
      exact (h.perm (List.perm_append_singleton last rest)).without (hlast rest last hitems)

/-- A shell call goes with its output. -/
theorem remove_end_paired_shell :
    let call : ResponseItem := .localShellCall none (some "1".toList) .completed []
    let output : ResponseItem := .functionCallOutput "1".toList ⟨.text "ok".toList, none⟩
    let cm : ContextManager := { new with items := [call, .user "go".toList, output] }
    PairedOnce cm.items ∧ PairedOnce cm.removeFirstItem.items ∧
      cm.removeFirstItem.items = [.user "go".toList] ∧ cm.removeLastItem.1.items = [.user "go".toList] := by
  intro call output cm
  have hpaired : PairedOnce cm.items := by
    refine ⟨?_, ?_, by decide⟩
    · simp only [cm, call, output, List.mem_cons, List.not_mem_nil, or_false]
      rintro item (rfl | rfl | rfl) key hkey <;> cases hkey
      decide
    · simp only [cm, call, output, List.mem_cons, List.not_mem_nil, or_false]
      rintro item (rfl | rfl | rfl) - key hkey <;> cases hkey
      exact ⟨call, List.mem_cons_self, rfl⟩
  exact ⟨hpaired, (remove_end_paired cm hpaired).1, by decide, by decide⟩

end Supercodex.History
