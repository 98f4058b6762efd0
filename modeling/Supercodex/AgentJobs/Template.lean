import Mathlib.Data.List.Permutation
import Supercodex.Library.Expansion

/-!
# Instruction templates (`core/src/tools/handlers/agent_jobs.rs`)

The instruction of a job is rendered for each row by replacing the placeholders of one column after the
other, with sentinels in place of doubled braces meanwhile.
-/

namespace Supercodex.AgentJobs

open Text

/-- A value of a row: a string, or another JSON value as its text. -/
inductive RowValue where
  | string (value : Text)
  | other (json : Text)
deriving DecidableEq

/-- The text that takes the place of a placeholder. -/
def RowValue.replacement : RowValue → Text
  | .string value => value
  | .other json => json

/-- The columns of a row, in the order of its JSON object. -/
abbrev RowObject := List (Text × RowValue)

/-- `OPEN_BRACE_SENTINEL`. -/
def openBraceSentinel : Text := "__CODEX_OPEN_BRACE__".toList

/-- `CLOSE_BRACE_SENTINEL`. -/
def closeBraceSentinel : Text := "__CODEX_CLOSE_BRACE__".toList

/-- The `placeholder` of a column. -/
def placeholder (key : Text) : Text := '\x7b' :: key ++ ['\x7d']

/-- Sentinels take the place of doubled braces. -/
def escapeBraces (instruction : Text) : Text :=
  replace ['\x7d', '\x7d'] closeBraceSentinel (replace ['\x7b', '\x7b'] openBraceSentinel instruction)

/-- Single braces take the place of the sentinels. -/
def unescapeBraces (rendered : Text) : Text :=
  replace closeBraceSentinel ['\x7d'] (replace openBraceSentinel ['\x7b'] rendered)

/-- The loop of `render_instruction_template` over some columns. -/
def replaceColumns (columns : RowObject) (rendered : Text) : Text :=
  columns.foldl (fun rendered (key, value) => replace (placeholder key) value.replacement rendered) rendered

/-- `render_instruction_template`, on a row object or on another JSON value. -/
def renderInstructionTemplate (instruction : Text) (rowJson : Option RowObject) : Text :=
  let rendered := escapeBraces instruction
  match rowJson with
  | none => unescapeBraces rendered
  | some row => unescapeBraces (replaceColumns row rendered)

end Supercodex.AgentJobs

/-!
# Rendering a template column by column

The instruction is a document whose atoms are the placeholders of the columns. A pass for a column puts in
its value as long as the search for its placeholder finds the atoms only, and then the passes together are
the substitution of all columns at once, in whatever order they come.
-/

namespace Supercodex.AgentJobs

open Text Document

/-! ## Templates -/

/-- The document of an instruction, after some characters that belong to a placeholder. -/
def templateFrom (columns : List Text) : ℕ → Text → List (Piece Text)
  | _, [] => []
  | skip + 1, _ :: t => templateFrom columns skip t
  | 0, c :: t =>
    match columns.find? fun column => (placeholder column).isPrefixOf (c :: t) with
    | some column => .atom column (placeholder column) :: templateFrom columns (column.length + 1) t
    | none => .char c :: templateFrom columns 0 t

/-- The document of an instruction, with the placeholders of the columns as its atoms. -/
def template (row : RowObject) (instruction : Text) : List (Piece Text) :=
  templateFrom (row.map Prod.fst) 0 instruction

/-- The placeholders of some columns with their values. -/
def entriesOf (columns : RowObject) : List (Text × Text) :=
  columns.map fun (key, value) => (placeholder key, value.replacement)

/-- The document with the values of some columns in the places of their placeholders. -/
def filled (columns : RowObject) (d : List (Piece Text)) : List (Piece Text) :=
  expand (fun t => (entriesOf columns).lookup t) d

/-- What the loop makes of an instruction in an order of the columns, and how: each placeholder of the
instruction gives way to the value of its column and the rest is kept, and each pass finds the placeholder of
its column at its places in the instruction and nowhere else. -/
structure RendersVerbatim (row : RowObject) (instruction : Text) (order : RowObject) : Prop where
  result : renderInstructionTemplate instruction (some order) = textOf (filled row (template row instruction))
  inPlace : ∀ before column value after, order = before ++ (column, value) :: after →
    replaceColumns before (escapeBraces instruction) = textOf (filled before (template row instruction)) ∧
      FoundOnly (placeholder column) (filled before (template row instruction))

/-- With the values of any columns put in, the placeholder of another column is found at its places in the
instruction and nowhere else, and with all values put in there is no sentinel. -/
structure Separable (row : RowObject) (instruction : Text) : Prop where
  inPlace : ∀ before column value after, (before ++ (column, value) :: after).Perm row →
    FoundOnly (placeholder column) (filled before (template row instruction))
  openBrace : contains openBraceSentinel (textOf (filled row (template row instruction))) = false
  closeBrace : contains closeBraceSentinel (textOf (filled row (template row instruction))) = false

section

variable {row columns order : RowObject} {instruction t : Text} {d : List (Piece Text)}

lemma placeholder_ne_nil (key : Text) : placeholder key ≠ [] := List.cons_ne_nil _ _

lemma placeholder_injective : Function.Injective placeholder := by
  intro key key' h
  exact List.append_cancel_right (List.cons.inj h).2

lemma templateFrom_skip (names : List Text) (skipped t : Text) :
    templateFrom names skipped.length (skipped ++ t) = templateFrom names 0 t := by
  induction skipped with
  | nil => rfl
  | cons c skipped ih => exact ih

/-- A template is an instruction with its placeholders marked. -/
lemma textOf_template (row : RowObject) (instruction : Text) : textOf (template row instruction) = instruction := by
  have htemplate : ∀ (names : List Text) (n : ℕ) (t : Text), t.length ≤ n → textOf (templateFrom names 0 t) = t := by
    intro names n
    induction n with
    | zero =>
      intro t ht
      rw [List.eq_nil_of_length_eq_zero (Nat.le_zero.mp ht)]
      rfl
    | succ n ih =>
      intro t ht
      cases t with
      | nil => rfl
      | cons c t =>
        rw [List.length_cons] at ht
        rw [templateFrom]
        cases hfound : names.find? fun column => (placeholder column).isPrefixOf (c :: t) with
        | none => exact congrArg (c :: ·) (ih t (by omega))
        | some column =>
          have hprefixed : (placeholder column).isPrefixOf (c :: t) = true := by
            simpa using List.find?_some hfound
          obtain ⟨rest, hrest⟩ := List.isPrefixOf_iff_prefix.mp hprefixed
          obtain ⟨rfl, rfl⟩ := List.cons.inj hrest
          have hskip := templateFrom_skip names (column ++ ['\x7d']) rest
          rw [List.length_append, List.length_singleton] at hskip
          have hrestLength : rest.length ≤ n := by
            change (column ++ ['\x7d'] ++ rest).length + 1 ≤ n + 1 at ht
            rw [List.length_append] at ht
            omega
          show placeholder column ++ textOf (templateFrom names (column.length + 1) (column ++ ['\x7d'] ++ rest)) =
            placeholder column ++ rest
          rw [hskip, ih rest hrestLength]
  exact htemplate _ _ _ le_rfl

/-! ## Orders of columns -/

lemma lookup_perm {l l' : List (Text × Text)} (h : l.Perm l') (hnodup : (l.map Prod.fst).Nodup) (t : Text) :
    l.lookup t = l'.lookup t := by
  induction h with
  | nil => rfl
  | cons entry _ ih => rw [List.lookup_cons, List.lookup_cons, ih (List.nodup_cons.mp hnodup).2]
  | swap entry entry' l =>
    have hne : entry'.1 ≠ entry.1 := fun heq => (List.nodup_cons.mp hnodup).1 (by simp [heq])
    rw [List.lookup_cons, List.lookup_cons, List.lookup_cons, List.lookup_cons]
    by_cases h : t = entry.1
    · rw [h, beq_false_of_ne hne.symm, beq_self_eq_true]
    · rw [beq_false_of_ne h]
  | trans hfirst _ ih ih' =>
    rw [ih hnodup, ih' (((hfirst.map Prod.fst).nodup_iff).mp hnodup)]

lemma filled_perm (h : order.Perm row) (hnodup : (row.map Prod.fst).Nodup) : filled order d = filled row d := by
  have hentries : (entriesOf order).Perm (entriesOf row) := h.map _
  have hkeys : (entriesOf order).map Prod.fst = (order.map Prod.fst).map placeholder := by
    simp [entriesOf]
  have hdistinct : ((entriesOf order).map Prod.fst).Nodup := by
    rw [hkeys]
    exact List.Nodup.map placeholder_injective ((h.map Prod.fst).nodup_iff.mpr hnodup)
  exact expand_congr fun a _ => lookup_perm hentries hdistinct a.2

lemma filled_concat (columns : RowObject) (column : Text) (value : RowValue) :
    filled (columns ++ [(column, value)]) d =
      expandLabel (placeholder column) value.replacement (filled columns d) := by
  rw [filled, filled, ← foldl_expandLabel, ← foldl_expandLabel, entriesOf, List.map_append, List.foldl_append]
  rfl

lemma replaceColumns_eq (columns : RowObject)
    (h : ∀ before column value after, columns = before ++ (column, value) :: after →
      FoundOnly (placeholder column) (filled before d)) :
    replaceColumns columns (textOf d) = textOf (filled columns d) := by
  induction columns using List.reverseRecOn with
  | nil =>
    rw [filled, expand_eq_self fun a _ => rfl]
    rfl
  | append_singleton columns entry ih =>
    obtain ⟨column, value⟩ := entry
    have hbefore := ih fun before column' value' after hparts =>
      h before column' value' (after ++ [(column, value)]) (by rw [hparts]; simp)
    rw [replaceColumns, List.foldl_append]
    show replace (placeholder column) value.replacement (replaceColumns columns (textOf d)) = _
    rw [hbefore, filled_concat]
    exact replace_textOf (placeholder_ne_nil column) (h columns column value [] rfl)

/-! ## Braces -/

lemma escapeBraces_eq (hopen : contains ['\x7b', '\x7b'] instruction = false)
    (hclose : contains ['\x7d', '\x7d'] instruction = false) : escapeBraces instruction = instruction := by
  rw [escapeBraces, replace_of_not_contains hopen, replace_of_not_contains hclose]

lemma unescapeBraces_eq_self_iff : unescapeBraces t = t ↔
    contains openBraceSentinel t = false ∧ contains closeBraceSentinel t = false := by
  have hopenLength : ['\x7b'].length < openBraceSentinel.length := by decide
  have hcloseLength : ['\x7d'].length < closeBraceSentinel.length := by decide
  constructor
  · intro h
    have hlength := congrArg List.length h
    have hle := length_replace_le hcloseLength (replace openBraceSentinel ['\x7b'] t)
    have hopen : contains openBraceSentinel t = false := by
      by_contra hcontains
      have hlt := length_replace_lt hopenLength (Bool.not_eq_false _ ▸ hcontains)
      rw [unescapeBraces] at hlength
      omega
    refine ⟨hopen, ?_⟩
    by_contra hcontains
    have hlt := length_replace_lt hcloseLength (Bool.not_eq_false _ ▸ hcontains)
    rw [unescapeBraces, replace_of_not_contains hopen] at hlength
    omega
  · rintro ⟨hopen, hclose⟩
    rw [unescapeBraces, replace_of_not_contains hopen, replace_of_not_contains hclose]

end

/-- Every order of the columns puts the values in verbatim exactly if no text with values put in has another
placeholder or a sentinel beside those of the instruction. -/
theorem render_verbatim_iff (row : RowObject) (instruction : Text) (hcolumns : (row.map Prod.fst).Nodup)
    (hopen : contains ['\x7b', '\x7b'] instruction = false) (hclose : contains ['\x7d', '\x7d'] instruction = false) :
    (∀ order : RowObject, order.Perm row → RendersVerbatim row instruction order) ↔ Separable row instruction := by
  have hescape := escapeBraces_eq hopen hclose
  have htext := textOf_template row instruction
  -- the passes over the columns of an order, as far as each finds only its own places
  have hpasses : ∀ columns : RowObject, (∀ before column value after, columns = before ++ (column, value) :: after →
      FoundOnly (placeholder column) (filled before (template row instruction))) →
      replaceColumns columns instruction = textOf (filled columns (template row instruction)) := by
    intro columns hfound
    have h := replaceColumns_eq (d := template row instruction) columns hfound
    rwa [htext] at h
  constructor
  · intro h
    have hinPlace : ∀ before column value after, (before ++ (column, value) :: after).Perm row →
        FoundOnly (placeholder column) (filled before (template row instruction)) :=
      fun before column value after horder => ((h _ horder).inPlace before column value after rfl).2
    have hfinal : unescapeBraces (textOf (filled row (template row instruction))) =
        textOf (filled row (template row instruction)) := by
      have hresult := (h row (List.Perm.refl row)).result
      rwa [renderInstructionTemplate, hescape, hpasses row fun before column value after hparts =>
        hinPlace before column value after (hparts ▸ List.Perm.refl _)] at hresult
    obtain ⟨hopenBrace, hcloseBrace⟩ := unescapeBraces_eq_self_iff.mp hfinal
    exact { inPlace := hinPlace, openBrace := hopenBrace, closeBrace := hcloseBrace }
  · intro h order horder
    have hinPlace : ∀ before column value after, order = before ++ (column, value) :: after →
        FoundOnly (placeholder column) (filled before (template row instruction)) :=
      fun before column value after hparts => h.inPlace before column value after (hparts ▸ horder)
    have hfilled : filled order (template row instruction) = filled row (template row instruction) :=
      filled_perm horder hcolumns
    constructor
    · rw [renderInstructionTemplate, hescape, hpasses order hinPlace, hfilled]
      exact unescapeBraces_eq_self_iff.mpr ⟨h.openBrace, h.closeBrace⟩
    · intro before column value after hparts
      rw [hescape]
      refine ⟨hpasses before fun before' column' value' after' hbefore => ?_, hinPlace before column value after hparts⟩
      apply hinPlace before' column' value' (after' ++ (column, value) :: after)
      rw [hparts, hbefore, List.append_assoc, List.cons_append]

/-- Every column of every order is looked at. -/
lemma separable_iff {row : RowObject} {instruction : Text} : Separable row instruction ↔
    (∀ order ∈ row.permutations', ∀ i : Fin order.length,
      FoundOnly (placeholder order[i].1) (filled (order.take i) (template row instruction))) ∧
      contains openBraceSentinel (textOf (filled row (template row instruction))) = false ∧
      contains closeBraceSentinel (textOf (filled row (template row instruction))) = false := by
  constructor
  · rintro ⟨hinPlace, hopen, hclose⟩
    refine ⟨fun order horder i => ?_, hopen, hclose⟩
    apply hinPlace _ _ order[i].2 (order.drop (i + 1))
    have hsplit : order.take i ++ order[i] :: order.drop (i + 1) = order := by
      rw [Fin.getElem_fin, List.getElem_cons_drop, List.take_append_drop]
    rw [Prod.mk.eta, hsplit]
    exact List.mem_permutations'.mp horder
  · rintro ⟨horders, hopen, hclose⟩
    refine ⟨fun before column value after horder => ?_, hopen, hclose⟩
    simpa using horders _ (List.mem_permutations'.mpr horder) ⟨before.length, by simp⟩

instance (row : RowObject) (instruction : Text) : Decidable (Separable row instruction) :=
  decidable_of_iff _ separable_iff.symm

/-- Two columns, one of them named twice. -/
theorem render_verbatim_iff_two :
    let row : RowObject := [("path".toList, .string "a.rs".toList), ("line".toList, .other "7".toList)]
    let instruction := "Review \x7bpath\x7d:\x7bline\x7d of \x7bpath\x7d.".toList
    (∀ order : RowObject, order.Perm row → RendersVerbatim row instruction order) ∧
      renderInstructionTemplate instruction (some row) = "Review a.rs:7 of a.rs.".toList := by
  intro row instruction
  exact ⟨(render_verbatim_iff row instruction (by decide +kernel) (by decide +kernel) (by decide +kernel)).mpr
    (by decide +kernel), by decide +kernel⟩

/-- The value of a column is itself expanded when it has the placeholder of a later one, so that the result
depends on the order of the columns. -/
theorem value_expanded :
    let first : RowObject := [("a".toList, .string "\x7bb\x7d".toList), ("b".toList, .string "x".toList)]
    let second : RowObject := [("b".toList, .string "x".toList), ("a".toList, .string "\x7bb\x7d".toList)]
    let instruction := "Review \x7ba\x7d".toList
    contains ['\x7b', '\x7b'] instruction = false ∧ contains ['\x7d', '\x7d'] instruction = false ∧
      (first.map Prod.fst).Nodup ∧ second.Perm first ∧ ¬RendersVerbatim first instruction first ∧
      textOf (filled first (template first instruction)) = "Review \x7bb\x7d".toList ∧
      renderInstructionTemplate instruction (some first) = "Review x".toList ∧
      renderInstructionTemplate instruction (some second) = "Review \x7bb\x7d".toList := by
  intro first second instruction
  have hdiffers : renderInstructionTemplate instruction (some first) ≠
      textOf (filled first (template first instruction)) := by
    decide +kernel
  refine ⟨by decide +kernel, by decide +kernel, by decide +kernel, List.Perm.swap _ _ _, ?_, ?_⟩
  · exact fun h => hdiffers h.result
  · decide +kernel

end Supercodex.AgentJobs
