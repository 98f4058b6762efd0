import Supercodex.Library.Utf8
import Supercodex.Library.Runs
import Mathlib.Algebra.BigOperators.Group.List.Basic

/-!
# The message history (`core/src/message_history.rs`)

All sessions append to one file, a JSON object a line, and read entries back by their position. The
file is named by its inode (its creation time on Windows), which an append or a trim does not change.
An append and the trim after it are made under the file's lock, so they are one step here; whether the
lock was acquired is part of the call. `serde_json::from_str` is the parameter `fromJson`.
-/

namespace Supercodex.MessageHistory

open Text Utf8 Pieces

/-- `HistoryEntry`. -/
structure HistoryEntry where
  sessionId : Text
  ts : ℕ
  text : Text
deriving DecidableEq

/-! ## Lines -/

/-- A hexadecimal digit, as `serde_json` writes it. -/
def hexDigit (n : ℕ) : Char := Char.ofNat (if n < 10 then 48 + n else 87 + n)

/-- How `serde_json` writes one character of a string. -/
def escapeChar (c : Char) : Text :=
  if c = '"' then ['\\', '"']
  else if c = '\\' then ['\\', '\\']
  else if c.toNat = 8 then ['\\', 'b']
  else if c.toNat = 9 then ['\\', 't']
  else if c.toNat = 10 then ['\\', 'n']
  else if c.toNat = 12 then ['\\', 'f']
  else if c.toNat = 13 then ['\\', 'r']
  else if c.toNat < 32 then
    ['\\', 'u', '0', '0', hexDigit (c.toNat / 16), hexDigit (c.toNat % 16)]
  else [c]

/-- A JSON string. -/
def jsonString (t : Text) : Text := '"' :: (t.flatMap escapeChar ++ ['"'])

/-- `serde_json::to_string` of an entry. -/
def HistoryEntry.toJson (entry : HistoryEntry) : Text :=
  "\x7b\"session_id\":".toList ++ jsonString entry.sessionId ++ ",\"ts\":".toList ++
    Nat.toDigits 10 entry.ts ++ ",\"text\":".toList ++ jsonString entry.text ++ "\x7d".toList

/-- The line that an entry is written as. -/
def HistoryEntry.line (entry : HistoryEntry) : Bytes := encode (entry.toJson ++ ['\n'])

/-- The end of a line that `BufRead::lines` takes off. -/
def stripLineEnd (t : Text) : Text :=
  if t.getLast? = some '\n' then stripCr t.dropLast else t

/-! ## The file -/

/-- The history file: its identity and what it holds. -/
structure HistoryFile where
  logId : ℕ
  contents : Bytes
deriving DecidableEq

/-- `HistoryPersistence`. -/
inductive HistoryPersistence where
  | saveAll
  | none
deriving DecidableEq

/-- The settings of `config.history`. -/
structure HistoryConfig where
  persistence : HistoryPersistence
  maxBytes : Option ℕ
deriving DecidableEq

/-! ## Trimming -/

/-- The `f64` nearest to a natural number, ties to even. -/
def roundDouble (n : ℕ) : ℕ :=
  let unit := 2 ^ (n.log2 - 52)
  let rest := n % unit
  if unit < 2 * rest ∨ (2 * rest = unit ∧ n / unit % 2 = 1) then (n / unit + 1) * unit
  else n / unit * unit

/-- `trim_target_bytes`. `HISTORY_SOFT_CAP_RATIO` is the `f64` nearest to 0.8, which is
`3602879701896397 / 2 ^ 52`. -/
def trimTargetBytes (maxBytes newestEntryLen : ℕ) : ℕ :=
  let maxDouble := roundDouble maxBytes
  let scaled := roundDouble (maxDouble * 3602879701896397) / 2 ^ 52
  let softCapBytes := max 1 (min scaled maxDouble)
  max softCapBytes newestEntryLen

/-- The loop of `enforce_history_limit` over the lengths of the lines that may be dropped, with the
bytes dropped so far. -/
def dropBytes (trimTarget : ℕ) : List ℕ → ℕ → ℕ → ℕ
  | [], _, dropped => dropped
  | length :: lengths, currentLen, dropped =>
    if trimTarget < currentLen then
      dropBytes trimTarget lengths (currentLen - length) (dropped + length)
    else dropped

/-- Why an append fails. -/
inductive HistoryError where
  | clockBeforeEpoch
  | lockNotAcquired
  | invalidUtf8
deriving DecidableEq

/-- `enforce_history_limit`: what the file holds afterwards, and the error of reading its lines. -/
def enforceHistoryLimit (contents : Bytes) (maxBytes : Option ℕ) :
    Bytes × Except HistoryError Unit :=
  match maxBytes with
  | none => (contents, .ok ())
  | some maxBytes =>
    if maxBytes = 0 then (contents, .ok ())
    else if contents.length ≤ maxBytes then (contents, .ok ())
    else
      let lines := pieces newline contents
      if lines.all (decode · |>.isSome) then
        match lines.getLast? with
        | none => (contents, .ok ())
        | some newest =>
          let trimTarget := trimTargetBytes maxBytes newest.length
          let dropped := dropBytes trimTarget (lines.dropLast.map List.length) contents.length 0
          if dropped = 0 then (contents, .ok ()) else (contents.drop dropped, .ok ())
      else (contents, .error .invalidUtf8)

/-! ## Appending -/

/-- A call of `append_entry`, with what it finds: the time since the epoch, whether the lock is
acquired, and the identity that the file gets if the call creates it. -/
structure Append where
  config : HistoryConfig
  text : Text
  conversationId : Text
  now : Option ℕ
  acquired : Bool
  freshId : ℕ
deriving DecidableEq

/-- The entry of a call made at a time. -/
def Append.entry (call : Append) (now : ℕ) : HistoryEntry := ⟨call.conversationId, now, call.text⟩

/-- `append_entry`, on the history file if there is one. -/
def appendEntry (call : Append) (file : Option HistoryFile) :
    Option HistoryFile × Except HistoryError Unit :=
  match call.config.persistence with
  | .none => (file, .ok ())
  | .saveAll =>
    match call.now with
    | none => (file, .error .clockBeforeEpoch)
    | some now =>
      let opened := file.getD ⟨call.freshId, []⟩
      if call.acquired then
        let written := opened.contents ++ (call.entry now).line
        let (contents, result) := enforceHistoryLimit written call.config.maxBytes
        (some { opened with contents }, result)
      else (some opened, .error .lockNotAcquired)

/-! ## Reading -/

/-- `history_metadata`: the identity of the file and the number of its newlines. -/
def historyMetadata : Option HistoryFile → ℕ × ℕ
  | none => (0, 0)
  | some file => (file.logId, file.contents.count newline)

/-- The entry that a line of the file holds. -/
def entryOfLine (fromJson : Text → Option HistoryEntry) (line : Bytes) : Option HistoryEntry :=
  (decode line).bind fun t => fromJson (stripLineEnd t)

/-- The loop of `lookup_history_entry` over the lines of the file. -/
def lookupLines (fromJson : Text → Option HistoryEntry) : List Bytes → ℕ → Option HistoryEntry
  | [], _ => none
  | line :: lines, offset =>
    match decode line with
    | none => none
    | some t =>
      match offset with
      | 0 => fromJson (stripLineEnd t)
      | offset + 1 => lookupLines fromJson lines offset

/-- `lookup_history_entry`. -/
def lookupHistoryEntry (fromJson : Text → Option HistoryEntry) (acquired : Bool)
    (file : Option HistoryFile) (logId offset : ℕ) : Option HistoryEntry :=
  match file with
  | none => none
  | some file =>
    if logId ≠ 0 ∧ file.logId ≠ logId then none
    else if acquired then lookupLines fromJson (pieces newline file.contents) offset
    else none

end Supercodex.MessageHistory

/-!
# Offsets into the message history

An append leaves complete lines, the last of them its own. A position that was read before stays
valid as long as the appends after it drop no line: the trim rewrites the file in place, under the
same identity, and every line that is kept moves to the front.
-/

namespace Supercodex.MessageHistory

open Text Utf8 Pieces Runs

/-! ## The line of an entry -/

lemma newline_not_mem_escapeChar (c : Char) : '\n' ∉ escapeChar c := by
  have hhex : ∀ n < 16, '\n' ≠ hexDigit n := by decide
  unfold escapeChar
  split_ifs with h1 h2 h3 h4 h5 h6 h7 h8
  iterate 7 decide
  · have h16 : c.toNat / 16 < 16 := by omega
    have hmod : c.toNat % 16 < 16 := Nat.mod_lt _ (by decide)
    simp only [List.mem_cons, List.not_mem_nil, or_false, not_or]
    exact ⟨by decide, by decide, by decide, by decide, hhex _ h16, hhex _ hmod⟩
  · rw [List.mem_singleton]
    rintro rfl
    exact h5 rfl

lemma newline_not_mem_jsonString (t : Text) : '\n' ∉ jsonString t := by
  intro hmem
  rw [jsonString, List.mem_cons, List.mem_append, List.mem_flatMap, List.mem_singleton] at hmem
  rcases hmem with h | ⟨c, -, hc⟩ | h
  · cases h
  · exact newline_not_mem_escapeChar c hc
  · cases h

lemma newline_not_mem_toDigits (n : ℕ) : '\n' ∉ Nat.toDigits 10 n := by
  intro hmem
  have := Nat.isDigit_of_mem_toDigits (by decide) (by decide) hmem
  cases this

lemma HistoryEntry.newline_not_mem_toJson (entry : HistoryEntry) : '\n' ∉ entry.toJson := by
  unfold HistoryEntry.toJson
  simp only [List.mem_append, not_or]
  exact ⟨⟨⟨⟨⟨⟨by decide, newline_not_mem_jsonString _⟩, by decide⟩, newline_not_mem_toDigits _⟩,
    by decide⟩, newline_not_mem_jsonString _⟩, by decide⟩

lemma HistoryEntry.isPiece_line (entry : HistoryEntry) : IsPiece newline entry.line := by
  refine ⟨encode entry.toJson, newline_not_mem_encode entry.newline_not_mem_toJson, ?_⟩
  rw [HistoryEntry.line, encode_append]
  rfl

/-! ## Trimming -/

lemma exists_dropBytes_eq (trimTarget : ℕ) (lengths : List ℕ) (currentLen dropped : ℕ) :
    ∃ j ≤ lengths.length,
      dropBytes trimTarget lengths currentLen dropped = dropped + (lengths.take j).sum := by
  induction lengths generalizing currentLen dropped with
  | nil => exact ⟨0, Nat.le_refl 0, rfl⟩
  | cons length lengths ih =>
    rw [dropBytes]
    split
    · obtain ⟨j, hj, heq⟩ := ih (currentLen - length) (dropped + length)
      refine ⟨j + 1, Nat.succ_le_succ hj, ?_⟩
      rw [heq, List.take_succ_cons, List.sum_cons]
      omega
    · exact ⟨0, Nat.zero_le _, by simp⟩

lemma drop_sum_pieces (contents : Bytes) (j : ℕ) :
    contents.drop (((pieces newline contents).map List.length).take j).sum =
      ((pieces newline contents).drop j).flatten := by
  rw [← List.drop_sum_flatten, flatten_pieces]

lemma exists_enforceHistoryLimit_eq {contents : Bytes} (hne : contents ≠ [])
    (maxBytes : Option ℕ) :
    ∃ j < (pieces newline contents).length, (enforceHistoryLimit contents maxBytes).1 =
      ((pieces newline contents).drop j).flatten := by
  have hpos : 0 < (pieces newline contents).length :=
    List.length_pos_iff.mpr (mt pieces_eq_nil_iff.mp hne)
  have hkept : ∃ j < (pieces newline contents).length, contents =
      ((pieces newline contents).drop j).flatten :=
    ⟨0, hpos, by rw [List.drop_zero, flatten_pieces]⟩
  unfold enforceHistoryLimit
  cases maxBytes with
  | none => exact hkept
  | some maxBytes =>
    dsimp only
    split_ifs
    · exact hkept
    · exact hkept
    · split
      · exact hkept
      rename_i newest _
      split_ifs
      · exact hkept
      obtain ⟨j, hj, heq⟩ := exists_dropBytes_eq (trimTargetBytes maxBytes newest.length)
        ((pieces newline contents).dropLast.map List.length) contents.length 0
      rw [List.length_map, List.length_dropLast] at hj
      refine ⟨j, by omega, ?_⟩
      rw [heq, Nat.zero_add, List.map_dropLast, List.dropLast_eq_take, List.take_take,
        List.length_map, Nat.min_eq_left hj, drop_sum_pieces]
    · exact hkept

/-! ## Appending -/

/-- The lines of the history. -/
def historyLines (file : Option HistoryFile) : List Bytes :=
  pieces newline ((file.map (·.contents)).getD [])

/-- The history holds complete lines only. -/
def InLines (file : Option HistoryFile) : Prop :=
  Complete newline ((file.map (·.contents)).getD [])

/-- The line that a call writes, if it gets to write. -/
def Append.newLine (call : Append) : Option Bytes :=
  if call.config.persistence = .saveAll ∧ call.acquired = true then
    call.now.map fun now => (call.entry now).line
  else none

/-- An append writes no line, or one at the end, after which the limit is enforced. -/
lemma appendEntry_cases (call : Append) (file : Option HistoryFile) :
    (call.newLine = none ∧ historyLines (appendEntry call file).1 = historyLines file ∧
      ((appendEntry call file).1 = file ∨
        file = none ∧ (appendEntry call file).1 = some ⟨call.freshId, []⟩)) ∨
    ∃ line opened, call.newLine = some line ∧ IsPiece newline line ∧
      opened = file.getD ⟨call.freshId, []⟩ ∧ (appendEntry call file).1 = some { opened with
        contents := (enforceHistoryLimit (opened.contents ++ line) call.config.maxBytes).1 } := by
  unfold appendEntry Append.newLine
  cases hp : call.config.persistence with
  | none => exact .inl ⟨by simp, rfl, .inl rfl⟩
  | saveAll =>
    cases hn : call.now with
    | none => exact .inl ⟨by simp, rfl, .inl rfl⟩
    | some now =>
      cases ha : call.acquired with
      | true =>
        exact .inr ⟨(call.entry now).line, _, by simp, HistoryEntry.isPiece_line _, rfl, by simp⟩
      | false =>
        left
        cases file with
        | none => exact ⟨by simp, rfl, .inr ⟨rfl, rfl⟩⟩
        | some file => exact ⟨by simp, rfl, .inl rfl⟩

lemma contents_getD (file : Option HistoryFile) (freshId : ℕ) :
    (file.getD ⟨freshId, []⟩).contents = (file.map (·.contents)).getD [] := by
  cases file <;> rfl

/-- What a call leaves behind: the lines before it without some of the oldest, and its own. -/
def Appended (before : Option HistoryFile) (call : Append) (after : Option HistoryFile) : Prop :=
  InLines after ∧
    match call.newLine with
    | none => historyLines after = historyLines before
    | some line => ∃ kept, kept <:+ historyLines before ∧ historyLines after = kept ++ [line]

/-- Every append leaves complete lines, its own at the end. -/
lemma appended_appendEntry (call : Append) {file : Option HistoryFile} (h : InLines file) :
    Appended file call (appendEntry call file).1 := by
  obtain ⟨hnone, hlines, hfile⟩ | ⟨line, opened, hsome, hline, hopened, hafter⟩ :=
    appendEntry_cases call file
  · refine ⟨?_, by rw [hnone]; exact hlines⟩
    rcases hfile with hfile | ⟨rfl, hfile⟩
    · rw [hfile]
      exact h
    · rw [hfile]
      exact h
  · have hcontents : opened.contents = (file.map (·.contents)).getD [] := by
      rw [hopened, contents_getD]
    have hcomplete : Complete newline (opened.contents ++ line) := by
      rw [hcontents]
      exact Complete.append h hline.complete
    have hne : opened.contents ++ line ≠ [] := by
      obtain ⟨init, -, rfl⟩ := hline
      simp
    obtain ⟨j, hj, heq⟩ := exists_enforceHistoryLimit_eq hne call.config.maxBytes
    have hpieces : pieces newline (opened.contents ++ line) = historyLines file ++ [line] := by
      rw [hcontents, pieces_append h, hline.pieces]
      rfl
    have hkept : ∀ p ∈ (pieces newline (opened.contents ++ line)).drop j, IsPiece newline p :=
      fun p hp => isPiece_of_mem_pieces hcomplete (List.mem_of_mem_drop hp)
    have hj' : j ≤ (historyLines file).length := by
      rw [hpieces, List.length_append, List.length_singleton] at hj
      omega
    constructor
    · rw [hafter]
      show Complete newline (enforceHistoryLimit (opened.contents ++ line) call.config.maxBytes).1
      rw [heq]
      exact complete_flatten hkept
    · rw [hsome]
      refine ⟨(historyLines file).drop j, List.drop_suffix j _, ?_⟩
      rw [hafter]
      show pieces newline (enforceHistoryLimit (opened.contents ++ line) call.config.maxBytes).1 = _
      rw [heq, pieces_flatten hkept, hpieces, List.drop_append_of_le_length hj']

/-! ## Appends that keep all lines -/

/-- Does the call find room for its line? There is no limit, the history is empty, or the limit is
not passed. -/
def Append.Keeps (call : Append) (file : Option HistoryFile) : Prop :=
  ∀ line ∈ call.newLine, ∀ maxBytes ∈ call.config.maxBytes,
    maxBytes = 0 ∨ historyLines file = [] ∨
      (historyLines file).flatten.length + line.length ≤ maxBytes

lemma enforceHistoryLimit_of_length_le {contents : Bytes} {maxBytes : Option ℕ}
    (h : ∀ max ∈ maxBytes, max = 0 ∨ contents.length ≤ max) :
    (enforceHistoryLimit contents maxBytes).1 = contents := by
  unfold enforceHistoryLimit
  cases maxBytes with
  | none => rfl
  | some max =>
    dsimp only
    rcases h max rfl with rfl | hle
    · rfl
    · rw [if_pos hle]
      split <;> rfl

lemma enforceHistoryLimit_isPiece {line : Bytes} (h : IsPiece newline line)
    (maxBytes : Option ℕ) : (enforceHistoryLimit line maxBytes).1 = line := by
  have hne : line ≠ [] := by
    obtain ⟨init, -, rfl⟩ := h
    simp
  obtain ⟨j, hj, heq⟩ := exists_enforceHistoryLimit_eq hne maxBytes
  rw [h.pieces, List.length_singleton] at hj
  have hzero : j = 0 := by omega
  rw [heq, hzero, List.drop_zero, flatten_pieces]

/-- A call that finds room only adds to the file. -/
lemma appendEntry_of_keeps {call : Append} {file : HistoryFile}
    (h : call.Keeps (some file)) :
    ∃ file', (appendEntry call (some file)).1 = some file' ∧ file'.logId = file.logId ∧
      file.contents <+: file'.contents := by
  obtain ⟨-, -, hfile⟩ | ⟨line, opened, hsome, hline, hopened, hafter⟩ :=
    appendEntry_cases call (some file)
  · rcases hfile with hfile | ⟨hfile, -⟩
    · exact ⟨file, hfile, rfl, List.prefix_refl _⟩
    · cases hfile
  · rw [Option.getD_some] at hopened
    subst hopened
    have hkept : (enforceHistoryLimit (opened.contents ++ line) call.config.maxBytes).1 =
        opened.contents ++ line := by
      have hflatten : (historyLines (some opened)).flatten = opened.contents := flatten_pieces _
      by_cases hempty : opened.contents = []
      · rw [hempty, List.nil_append]
        exact enforceHistoryLimit_isPiece hline _
      apply enforceHistoryLimit_of_length_le
      intro max hmax
      have hkeeps := h line hsome max hmax
      rw [hflatten] at hkeeps
      rcases hkeeps with h0 | hnil | hle
      · exact .inl h0
      · exact absurd (pieces_eq_nil_iff.mp hnil) hempty
      · right
        rw [List.length_append]
        exact hle
    refine ⟨_, hafter, rfl, ?_⟩
    show opened.contents <+: (enforceHistoryLimit (opened.contents ++ line) _).1
    rw [hkept]
    exact List.prefix_append _ _

/-! ## Positions -/

/-- The entry at a position of the history. -/
def entryAt (fromJson : Text → Option HistoryEntry) (file : Option HistoryFile) (k : ℕ) :
    Option HistoryEntry :=
  (historyLines file)[k]?.bind (entryOfLine fromJson)

section

variable (fromJson : Text → Option HistoryEntry)

lemma lookupLines_eq (lines : List Bytes) (k : ℕ) :
    lookupLines fromJson lines k = none ∨
      lookupLines fromJson lines k = lines[k]?.bind (entryOfLine fromJson) := by
  induction lines generalizing k with
  | nil => exact .inl rfl
  | cons line lines ih =>
    rw [lookupLines]
    cases hd : decode line with
    | none => exact .inl rfl
    | some t =>
      cases k with
      | zero =>
        right
        show fromJson (stripLineEnd t) = entryOfLine fromJson line
        rw [entryOfLine, hd]
        rfl
      | succ k => exact ih k

lemma lookupHistoryEntry_eq (acquired : Bool)
    (file : Option HistoryFile) (logId k : ℕ) :
    lookupHistoryEntry fromJson acquired file logId k = none ∨
      lookupHistoryEntry fromJson acquired file logId k = entryAt fromJson file k := by
  cases file with
  | none => exact .inl rfl
  | some file =>
    unfold lookupHistoryEntry
    dsimp only
    split_ifs
    · exact .inl rfl
    · exact lookupLines_eq fromJson _ k
    · exact .inl rfl

lemma entryAt_of_isInitial {file file' : HistoryFile}
    (h : file.contents <+: file'.contents) {k : ℕ} (hk : k < file.contents.count newline) :
    entryAt fromJson (some file') k = entryAt fromJson (some file) k := by
  obtain ⟨more, hmore⟩ := h
  unfold entryAt historyLines
  rw [Option.map_some, Option.map_some, Option.getD_some, Option.getD_some, ← hmore,
    getElem?_pieces_append _ _ hk]

end

/-! ## Runs -/

/-- One call of `append_entry`, of any process. -/
def Step (file : Option HistoryFile) (call : Append) (file' : Option HistoryFile) : Prop :=
  (appendEntry call file).1 = file'

/-- The entry that a lookup returns after a later run is the one that was at the position when the
metadata was taken. -/
def OffsetsValid (fromJson : Text → Option HistoryEntry) (taken later : Option HistoryFile) :
    Prop :=
  ∀ logId n, historyMetadata taken = (logId, n) → logId ≠ 0 → ∀ k < n, ∀ acquired,
    lookupHistoryEntry fromJson acquired later logId k = none ∨
      lookupHistoryEntry fromJson acquired later logId k = entryAt fromJson taken k

variable {init taken later : Option HistoryFile}
  {ts us : List (Transition (Option HistoryFile) Append)}

lemma appended_of_run (hinit : InLines init) (run : Run Step init ts taken) :
    InLines taken ∧ ∀ t ∈ ts, Appended t.before t.label t.after := by
  have hstep : ∀ s call s', InLines s → True → Step s call s' → InLines s' := by
    rintro s call s' hs - rfl
    exact (appended_appendEntry call hs).1
  obtain ⟨htaken, hsteps⟩ := run.invariant (fun _ _ => True) (fun _ _ => trivial) hinit hstep
  refine ⟨htaken, fun t ht => ?_⟩
  obtain ⟨hbefore, hafter⟩ := hsteps t ht
  rw [← show (appendEntry t.label t.before).1 = t.after from hafter]
  exact appended_appendEntry t.label hbefore

lemma offsetsValid_of_run (fromJson : Text → Option HistoryEntry) (run : Run Step taken us later)
    (hkeeps : ∀ u ∈ us, u.label.Keeps u.before) : OffsetsValid fromJson taken later := by
  intro logId n hmeta hid k hk acquired
  cases taken with
  | none =>
    cases hmeta
    exact absurd rfl hid
  | some file =>
    cases hmeta
    let Inv (s : Option HistoryFile) : Prop :=
      ∃ file', s = some file' ∧ file'.logId = file.logId ∧ file.contents <+: file'.contents
    have hstep : ∀ s call s', Inv s → call.Keeps s → Step s call s' → Inv s' := by
      rintro s call s' ⟨file', rfl, hid', hgrows⟩ hkeeps rfl
      obtain ⟨file'', hafter, hid'', hgrows'⟩ := appendEntry_of_keeps hkeeps
      exact ⟨file'', hafter, hid''.trans hid', hgrows.trans hgrows'⟩
    obtain ⟨⟨file', rfl, -, hgrows⟩, -⟩ := run.invariant (fun s call => call.Keeps s) hkeeps
      (⟨file, rfl, rfl, List.prefix_refl _⟩ : Inv (some file)) hstep
    rw [← entryAt_of_isInitial fromJson hgrows hk]
    exact lookupHistoryEntry_eq fromJson acquired _ _ k

/-- Every append leaves complete lines that are the newest of those before it and its own, and
positions stay valid while the appends after the count find room for their lines. -/
theorem history_kept (fromJson : Text → Option HistoryEntry) (hinit : InLines init)
    (run : Run Step init ts taken) (rest : Run Step taken us later) :
    (∀ t ∈ ts ++ us, Appended t.before t.label t.after) ∧
      ((∀ u ∈ us, u.label.Keeps u.before) → OffsetsValid fromJson taken later) := by
  obtain ⟨htaken, hbefore⟩ := appended_of_run hinit run
  refine ⟨?_, offsetsValid_of_run fromJson rest⟩
  intro t ht
  rcases List.mem_append.mp ht with ht | ht
  · exact hbefore t ht
  · exact (appended_of_run htaken rest).2 t ht

/-! ## Two sessions -/

/-- The prompt of one session. -/
def firstEntry : HistoryEntry := ⟨"s".toList, 1, "a".toList⟩

/-- The prompt of another session. -/
def secondEntry : HistoryEntry := ⟨"t".toList, 2, "b".toList⟩

/-- The parser, on the lines of the two prompts. -/
def fromTwoLines (t : Text) : Option HistoryEntry :=
  if t = firstEntry.toJson then some firstEntry
  else if t = secondEntry.toJson then some secondEntry else none

/-- The call that writes an entry under a limit. -/
def appendOf (entry : HistoryEntry) (maxBytes : Option ℕ) : Append :=
  ⟨⟨.saveAll, maxBytes⟩, entry.text, entry.sessionId, some entry.ts, true, 7⟩

lemma appendEntry_appendOf (entry : HistoryEntry) (maxBytes : Option ℕ) (file : HistoryFile) :
    (appendEntry (appendOf entry maxBytes) (some file)).1 = some { file with
      contents := (enforceHistoryLimit (file.contents ++ entry.line) maxBytes).1 } := rfl

lemma run_firstEntry : Run Step none
    [⟨none, appendOf firstEntry none, some ⟨7, firstEntry.line⟩⟩] (some ⟨7, firstEntry.line⟩) :=
  Run.nil.snoc rfl

lemma entryOfLine_line {entry : HistoryEntry} (hcr : entry.toJson.getLast? ≠ some '\r') :
    entryOfLine fromTwoLines entry.line = fromTwoLines entry.toJson := by
  rw [entryOfLine, HistoryEntry.line, decode_encode, Option.bind_some, stripLineEnd,
    List.getLast?_concat, if_pos rfl, List.dropLast_concat, (stripCr_eq_self_iff _).mpr hcr]

/-- There is room for the second prompt, and the first one is still found at its position. -/
theorem history_kept_with_room :
    let taken : Option HistoryFile := some ⟨7, firstEntry.line⟩
    let later : Option HistoryFile := some ⟨7, firstEntry.line ++ secondEntry.line⟩
    let call := appendOf secondEntry (some 100)
    historyMetadata taken = (7, 1) ∧ Step taken call later ∧ call.Keeps taken ∧
      OffsetsValid fromTwoLines taken later := by
  intro taken later call
  have hlength : (firstEntry.line ++ secondEntry.line).length ≤ 100 := by decide +kernel
  have hroom : call.Keeps taken := by
    intro line hline maxBytes hmax
    have hbytes : 100 = maxBytes := Option.some.inj hmax
    have hsecond : secondEntry.line = line := Option.some.inj hline
    rw [← hbytes, ← hsecond, ← List.length_append]
    right
    right
    rw [show (historyLines taken).flatten = firstEntry.line from flatten_pieces _]
    exact hlength
  have hlimit : (enforceHistoryLimit (firstEntry.line ++ secondEntry.line) (some 100)).1 =
      firstEntry.line ++ secondEntry.line := by
    apply enforceHistoryLimit_of_length_le
    intro max hmax
    rw [← Option.some.inj hmax]
    exact .inr hlength
  have hstep : Step taken call later := by
    show (appendEntry (appendOf secondEntry (some 100)) (some ⟨7, firstEntry.line⟩)).1 = later
    rw [appendEntry_appendOf, hlimit]
  have hkept := history_kept fromTwoLines (by simp [InLines, Complete]) run_firstEntry
    (Run.nil.snoc hstep)
  refine ⟨by decide +kernel, hstep, hroom, hkept.2 ?_⟩
  intro u hu
  rw [List.nil_append, List.mem_singleton] at hu
  rw [hu]
  exact hroom

/-- The second prompt passes a limit of forty bytes: the first one is dropped, and a lookup of its
position under the identity that was read with it returns the second. -/
theorem history_offset_moved :
    let taken : Option HistoryFile := some ⟨7, firstEntry.line⟩
    let later : Option HistoryFile := some ⟨7, secondEntry.line⟩
    Run Step none [⟨none, appendOf firstEntry none, taken⟩] taken ∧
      Run Step taken [⟨taken, appendOf secondEntry (some 40), later⟩] later ∧
      historyMetadata taken = (7, 1) ∧ entryAt fromTwoLines taken 0 = some firstEntry ∧
      lookupHistoryEntry fromTwoLines true later 7 0 = some secondEntry ∧
      ¬ OffsetsValid fromTwoLines taken later := by
  intro taken later
  have hpieces : pieces newline (firstEntry.line ++ secondEntry.line) =
      [firstEntry.line, secondEntry.line] := by
    rw [pieces_append firstEntry.isPiece_line.complete, firstEntry.isPiece_line.pieces,
      secondEntry.isPiece_line.pieces]
    rfl
  have hdecode : ∀ entry : HistoryEntry, (decode entry.line).isSome = true := by
    intro entry
    rw [HistoryEntry.line, decode_encode]
    rfl
  have hlimit : (enforceHistoryLimit (firstEntry.line ++ secondEntry.line) (some 40)).1 =
      secondEntry.line := by
    have hlong : ¬ (firstEntry.line ++ secondEntry.line).length ≤ 40 := by decide +kernel
    have hdropped : dropBytes (trimTargetBytes 40 secondEntry.line.length)
        ([firstEntry.line, secondEntry.line].dropLast.map List.length)
        (firstEntry.line ++ secondEntry.line).length 0 = firstEntry.line.length := by
      decide +kernel
    have hlast : [firstEntry.line, secondEntry.line].getLast? = some secondEntry.line := rfl
    have hpos : firstEntry.line.length ≠ 0 := by decide +kernel
    have hall : ([firstEntry.line, secondEntry.line].all (decode · |>.isSome)) = true := by
      simp [hdecode]
    unfold enforceHistoryLimit
    dsimp only
    rw [if_neg (by decide), if_neg hlong, hpieces, if_pos hall, hlast]
    dsimp only
    rw [hdropped, if_neg hpos]
    exact List.drop_left
  have hstep : Step taken (appendOf secondEntry (some 40)) later := by
    show (appendEntry (appendOf secondEntry (some 40)) (some ⟨7, firstEntry.line⟩)).1 = later
    rw [appendEntry_appendOf, hlimit]
  have hentry : entryAt fromTwoLines taken 0 = some firstEntry := by
    show ((pieces newline firstEntry.line)[0]?).bind _ = _
    rw [firstEntry.isPiece_line.pieces, List.getElem?_cons_zero, Option.bind_some,
      entryOfLine_line (by decide)]
    decide
  have hlookup : lookupHistoryEntry fromTwoLines true later 7 0 = some secondEntry := by
    show lookupLines fromTwoLines (pieces newline secondEntry.line) 0 = _
    rw [secondEntry.isPiece_line.pieces, lookupLines, HistoryEntry.line, decode_encode]
    decide +kernel
  have hmeta : historyMetadata taken = (7, 1) := by decide +kernel
  refine ⟨run_firstEntry, Run.nil.snoc hstep, hmeta, hentry, hlookup, ?_⟩
  intro hvalid
  have hfound := hvalid 7 1 hmeta (by decide) 0 (by decide) true
  rw [hentry, hlookup] at hfound
  exact absurd hfound (by decide)

end Supercodex.MessageHistory
