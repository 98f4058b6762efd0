import Supercodex.History.ContextManager
import Supercodex.Library.MarkedBlocks

/-!
# Rolling back turns

The instruction turns of a history are its blocks, and the injected context right before a turn leads up to
it. A rollback drops the last blocks.
-/

namespace Supercodex.History

open MarkedBlocks

variable {deps : Externals}

lemma isUserTurnBoundary_of_update {item : ResponseItem}
    (h : ContextManager.isPreTurnContextUpdate deps item = true) : deps.isUserTurnBoundary item = false := by
  cases item with
  | message id role content endTurn phase =>
    have huser : "developer".toList ≠ "user".toList := by decide
    have hassistant : "developer".toList ≠ "assistant".toList := by decide
    have hboth : "user".toList ≠ "assistant".toList := by decide
    simp only [ContextManager.isPreTurnContextUpdate, Bool.or_eq_true, Bool.and_eq_true, decide_eq_true_eq] at h
    simp only [Externals.isUserTurnBoundary]
    rcases h with ⟨hrole, -⟩ | ⟨hrole, hcontext⟩
    · rw [hrole, decide_eq_false huser, decide_eq_false hassistant]
      rfl
    · rw [hrole, hcontext, decide_eq_false hboth]
      simp
  | _ => cases h

namespace ContextManager

section

variable (cm : ContextManager)

@[simp] lemma items_replace (items : List ResponseItem) :
    (cm.replace items).items = items := rfl

/-! ## The loop that takes context back -/

lemma trimPreTurnContextUpdates_first (snapshot : List ResponseItem) (first : ℕ) :
    (cm.trimPreTurnContextUpdates deps snapshot first first).2 = first := by
  cases first with
  | zero => rfl
  | succ first => rw [trimPreTurnContextUpdates, if_neg (Nat.lt_irrefl _)]

/-- The loop drops the context updates that stand right before the cut. -/
lemma take_trimPreTurnContextUpdates {snapshot : List ResponseItem} {first cutIdx : ℕ}
    (hfirst : first < cutIdx) (hcut : cutIdx ≤ snapshot.length)
    (hturn : ∀ item ∈ snapshot[first]?, isPreTurnContextUpdate deps item = false) :
    snapshot.take (cm.trimPreTurnContextUpdates deps snapshot first cutIdx).2 =
      (snapshot.take cutIdx).rdropWhile (isPreTurnContextUpdate deps) := by
  induction cutIdx generalizing cm with
  | zero => omega
  | succ cutIdx ih =>
    have hitem : snapshot[cutIdx]? = some snapshot[cutIdx] := List.getElem?_eq_getElem hcut
    rw [trimPreTurnContextUpdates, if_pos hfirst, hitem, List.take_succ_eq_append_getElem hcut]
    dsimp only
    cases hupdate : isPreTurnContextUpdate deps snapshot[cutIdx] with
    | true =>
      have hne : first ≠ cutIdx := by
        rintro rfl
        rw [hturn _ hitem] at hupdate
        cases hupdate
      rw [if_pos rfl, List.rdropWhile_concat_pos _ _ _ hupdate]
      exact ih _ (by omega) (by omega)
    | false =>
      rw [if_neg Bool.false_ne_true, List.take_succ_eq_append_getElem hcut,
        List.rdropWhile_concat_neg _ _ _ (by rw [hupdate]; exact Bool.false_ne_true)]

/-! ## A rollback -/

/-- A rollback drops the last turns with the context before them. -/
lemma items_dropLastNUserTurns (numTurns : ℕ) :
    (cm.dropLastNUserTurns deps numTurns).items =
      dropBlocks deps.isUserTurnBoundary (isPreTurnContextUpdate deps) numTurns cm.items := by
  have hposition (j : ℕ) : (deps.userMessagePositions cm.items)[j]? =
      if j < cm.items.countP deps.isUserTurnBoundary then
        some (beforeMark deps.isUserTurnBoundary j cm.items).length
      else none := by
    have h := getElem?_positions deps.isUserTurnBoundary 0 j cm.items
    simp only [Nat.zero_add] at h
    exact h
  have hlength : (deps.userMessagePositions cm.items).length = cm.items.countP deps.isUserTurnBoundary :=
    length_positions deps.isUserTurnBoundary 0 cm.items
  rw [dropLastNUserTurns]
  by_cases hzero : numTurns = 0
  · rw [if_pos hzero, hzero, dropBlocks_zero]
  rw [if_neg hzero]
  dsimp only
  cases hpositions : deps.userMessagePositions cm.items with
  | nil =>
    rw [hpositions, List.length_nil] at hlength
    rw [items_replace, dropBlocks_of_no_mark hlength.symm]
  | cons first rest =>
    rw [hpositions] at hlength hposition
    have hpos : 0 < cm.items.countP deps.isUserTurnBoundary := by
      rw [← hlength]
      exact Nat.succ_pos _
    have hfirst : first = (beforeMark deps.isUserTurnBoundary 0 cm.items).length := by
      have h := hposition 0
      rw [List.getElem?_cons_zero, if_pos hpos] at h
      exact Option.some.inj h
    rw [items_replace, hlength]
    split
    · rename_i hall
      rw [trimPreTurnContextUpdates_first, hfirst, dropBlocks_of_le (Nat.pos_of_ne_zero hzero) hall,
        ← List.prefix_iff_eq_take.mp (beforeMark_initial 0 cm.items)]
    · rename_i hsome
      have hcut : (first :: rest).getD
          (cm.items.countP deps.isUserTurnBoundary - numTurns) first =
            (beforeMark deps.isUserTurnBoundary (cm.items.countP deps.isUserTurnBoundary - numTurns)
              cm.items).length := by
        rw [List.getD_eq_getElem?_getD, hposition, if_pos (by omega), Option.getD_some]
      have hinitial : beforeMark deps.isUserTurnBoundary (cm.items.countP deps.isUserTurnBoundary - numTurns)
          cm.items <+: cm.items := beforeMark_initial _ _
      rw [hcut, take_trimPreTurnContextUpdates, ← List.prefix_iff_eq_take.mp hinitial,
        dropBlocks_of_lt (Nat.pos_of_ne_zero hzero) (by omega)]
      · rw [hfirst]
        exact length_beforeMark_lt (by omega) (by omega)
      · exact hinitial.length_le
      · intro item hitem
        obtain ⟨turn, hturn, hmark⟩ := getElem?_length_beforeMark hpos
        rw [hfirst, hturn, Option.mem_some_iff] at hitem
        rw [← hitem, ← Bool.not_eq_true]
        intro hupdate
        rw [isUserTurnBoundary_of_update hupdate] at hmark
        cases hmark

end

/-- Two rollbacks leave what one of both numbers of turns leaves. It is the beginning of the history, with
everything before the first turn and as many turns as are not dropped. -/
theorem dropLastNUserTurns_add (deps : Externals) (cm : ContextManager) (m n : ℕ) :
    ((cm.dropLastNUserTurns deps m).dropLastNUserTurns deps n).items =
        (cm.dropLastNUserTurns deps (m + n)).items ∧
      (cm.dropLastNUserTurns deps (m + n)).items <+: cm.items ∧
      cm.items.takeWhile (fun item => !deps.isUserTurnBoundary item) <+:
        (cm.dropLastNUserTurns deps (m + n)).items ∧
      (deps.userMessagePositions ((cm.dropLastNUserTurns deps m).dropLastNUserTurns deps n).items).length =
        (deps.userMessagePositions cm.items).length - m - n := by
  have hcontext : ∀ item, isPreTurnContextUpdate deps item = true → deps.isUserTurnBoundary item = false :=
    fun _ => isUserTurnBoundary_of_update
  have hcomposed : ((cm.dropLastNUserTurns deps m).dropLastNUserTurns deps n).items =
      (cm.dropLastNUserTurns deps (m + n)).items := by
    rw [items_dropLastNUserTurns, items_dropLastNUserTurns, items_dropLastNUserTurns,
      dropBlocks_dropBlocks hcontext]
  refine ⟨hcomposed, ?_, ?_, ?_⟩
  · rw [items_dropLastNUserTurns]
    exact dropBlocks_initial _ _
  · rw [items_dropLastNUserTurns]
    exact takeWhile_dropBlocks hcontext _ _
  · have hturns (items : List ResponseItem) :
        (deps.userMessagePositions items).length = items.countP deps.isUserTurnBoundary :=
      length_positions deps.isUserTurnBoundary 0 items
    rw [hcomposed, hturns, hturns, items_dropLastNUserTurns, countP_dropBlocks hcontext, Nat.sub_sub]

end ContextManager

end Supercodex.History
