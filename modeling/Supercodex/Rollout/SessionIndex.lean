import Supercodex.Library.Utf8Decoding
import Supercodex.MessageHistory.History
import Mathlib.Data.Finset.Basic

/-!
# The session index (`rollout/src/session_index.rs`)

Thread names are appended to a file, one JSON object a line, and the latest entry of a thread counts. One
name is found by reading the file from its end in chunks of bytes, a batch of names by reading it line by
line. Reading does not fail; `serde_json::from_str` is the parameter `fromStr`.
-/

namespace Supercodex.Rollout

open Text Utf8 Pieces MessageHistory

/-- `SessionIndexEntry`, with the number of the UUID for the id. -/
structure SessionIndexEntry where
  id : ℕ
  threadName : Text
  updatedAt : Text
deriving DecidableEq

/-- `READ_CHUNK_SIZE`. -/
def readChunkSize : ℕ := 8192

/-! ## From the end -/

section

variable {m : Type → Type} [Monad m] (fromStr : Text → Option SessionIndexEntry)
  (visitEntry : SessionIndexEntry → m (Option SessionIndexEntry))

/-- `parse_line_from_rev`, after which `line_rev` is empty. -/
def parseLineFromRev (lineRev : Bytes) : m (Option SessionIndexEntry) :=
  if lineRev = [] then pure none
  else
    match fromUtf8 lineRev.reverse with
    | .error _ => pure none
    | .ok line =>
      let trimmed := trim (stripCr line)
      if trimmed = [] then pure none
      else
        match fromStr trimmed with
        | none => pure none
        | some entry => visitEntry entry

/-- The loop over the bytes of a chunk, given from its end: the entry that ends the scan, or `line_rev`. -/
def scanChunk : Bytes → Bytes → m (SessionIndexEntry ⊕ Bytes)
  | [], lineRev => pure (.inr lineRev)
  | byte :: bytes, lineRev =>
    if byte = newline then do
      match ← parseLineFromRev fromStr visitEntry lineRev with
      | some entry => pure (.inl entry)
      | none => scanChunk bytes []
    else scanChunk bytes (lineRev ++ [byte])

/-- The loop over the chunks, with the number of bytes that remain. -/
def scanRemaining (file : Bytes) (remaining : ℕ) (lineRev : Bytes) : m (Option SessionIndexEntry) :=
  if remaining = 0 then parseLineFromRev fromStr visitEntry lineRev
  else do
    let readSize := min remaining readChunkSize
    let buf := (file.drop (remaining - readSize)).take readSize
    match ← scanChunk fromStr visitEntry buf.reverse lineRev with
    | .inl entry => pure (some entry)
    | .inr lineRev => scanRemaining file (remaining - readSize) lineRev
termination_by remaining
decreasing_by
  have hsize : 0 < readChunkSize := by decide
  omega

/-- `scan_index_from_end_for_each`. -/
def scanIndexFromEndForEach (file : Bytes) : m (Option SessionIndexEntry) :=
  scanRemaining fromStr visitEntry file file.length []

end

/-- `scan_index_from_end_by_id`. -/
def scanIndexFromEndById (fromStr : Text → Option SessionIndexEntry) (file : Bytes) (threadId : ℕ) :
    Option SessionIndexEntry :=
  Id.run (scanIndexFromEndForEach fromStr
    (fun entry => pure (if entry.id = threadId then some entry else none)) file)

/-- `find_thread_name_by_id`. -/
def findThreadNameById (fromStr : Text → Option SessionIndexEntry) (file : Option Bytes) (threadId : ℕ) :
    Option Text :=
  match file with
  | none => none
  | some file => (scanIndexFromEndById fromStr file threadId).map (·.threadName)

/-! ## Line by line -/

/-- What a line adds to the names. -/
def insertName (fromStr : Text → Option SessionIndexEntry) (threadIds : Finset ℕ) (names : ℕ → Option Text)
    (line : Text) : ℕ → Option Text :=
  let trimmed := trim line
  if trimmed = [] then names
  else
    match fromStr trimmed with
    | none => names
    | some entry =>
      let name := trim entry.threadName
      if name ≠ [] ∧ entry.id ∈ threadIds then Function.update names entry.id (some name) else names

/-- `find_thread_names_by_ids`. A line that is no UTF-8 ends it with an error. -/
def findThreadNamesByIds (fromStr : Text → Option SessionIndexEntry) (file : Option Bytes)
    (threadIds : Finset ℕ) : Except Utf8Error (ℕ → Option Text) :=
  match file with
  | none => pure fun _ => none
  | some file =>
    if threadIds = ∅ then pure fun _ => none
    else
      (pieces newline file).foldlM (fun names piece => do
        let line ← fromUtf8 piece
        pure (insertName fromStr threadIds names (stripLineEnd line))) fun _ => none

end Supercodex.Rollout

/-!
# Thread names one by one and in a batch

Both ways to look up names parse the same entries of the session index, one of them from the newest entry
back. The batch trims the names and leaves out the blank ones; the name of a single thread is taken as it
stands.
-/

namespace Supercodex.Rollout

open Text Utf8 Pieces MessageHistory

variable {fromStr : Text → Option SessionIndexEntry} {contents : Text} {threadIds : Finset ℕ}

/-! ## The entries of the file -/

/-- The entry on a line. -/
def parseLine (fromStr : Text → Option SessionIndexEntry) (line : Text) : Option SessionIndexEntry :=
  if trim line = [] then none else fromStr (trim line)

/-- The entry on a line that is given as bytes. -/
def parseBytes (fromStr : Text → Option SessionIndexEntry) (line : Bytes) : Option SessionIndexEntry :=
  (fromUtf8 line).toOption.bind (parseLine fromStr)

/-- The parsed entries of the index, oldest first. -/
def parsedEntries (fromStr : Text → Option SessionIndexEntry) (contents : Text) : List SessionIndexEntry :=
  (contents.splitOn '\n').filterMap (parseLine fromStr)

/-- The newest entry of a thread. -/
def newestEntry (fromStr : Text → Option SessionIndexEntry) (contents : Text) (threadId : ℕ) :
    Option SessionIndexEntry :=
  (parsedEntries fromStr contents).reverse.find? (·.id = threadId)

lemma parseLine_congr {line line' : Text} (h : trim line = trim line') :
    parseLine fromStr line = parseLine fromStr line' := by
  unfold parseLine
  rw [h]

@[simp] lemma parseBytes_encode (line : Text) : parseBytes fromStr (encode line) = parseLine fromStr line := by
  rw [parseBytes, fromUtf8_encode]
  rfl

/-! ## The scan from the end -/

/-- The entries of lines that are given from the end. -/
def entriesFromEnd (fromStr : Text → Option SessionIndexEntry) (rev : Bytes) : List SessionIndexEntry :=
  (rev.splitOn newline).filterMap fun line => parseBytes fromStr line.reverse

lemma entriesFromEnd_reverse :
    entriesFromEnd fromStr (encode contents).reverse = (parsedEntries fromStr contents).reverse := by
  have hparse : ((parseBytes fromStr ∘ List.reverse) ∘ List.reverse) ∘ encode = parseLine fromStr := by
    funext line
    show parseBytes fromStr (encode line).reverse.reverse = parseLine fromStr line
    rw [List.reverse_reverse, parseBytes_encode]
  show ((encode contents).reverse.splitOn newline).filterMap (parseBytes fromStr ∘ List.reverse) = _
  rw [splitOn_reverse, splitOn_encode, List.filterMap_reverse, List.filterMap_map, List.filterMap_map,
    hparse]
  rfl

section

variable {m : Type → Type} [Monad m] {visitEntry : SessionIndexEntry → m (Option SessionIndexEntry)}

lemma parseLineFromRev_eq (lineRev : Bytes) :
    parseLineFromRev fromStr visitEntry lineRev =
      (parseBytes fromStr lineRev.reverse).elim (pure none) visitEntry := by
  unfold parseLineFromRev parseBytes parseLine
  split
  · rename_i hnil
    rw [hnil]
    rfl
  · cases fromUtf8 lineRev.reverse with
    | error err => rfl
    | ok line =>
      show (if trim (stripCr line) = [] then _ else _) =
        (if trim line = [] then none else fromStr (trim line)).elim (pure none) visitEntry
      rw [trim_stripCr]
      split
      · rfl
      · cases fromStr (trim line) <;> rfl

variable [LawfulMonad m] {lineRev : Bytes}

lemma parseLineFromRev_last (h : newline ∉ lineRev) :
    parseLineFromRev fromStr visitEntry lineRev =
      (entriesFromEnd fromStr lineRev).findSomeM? visitEntry := by
  rw [parseLineFromRev_eq, entriesFromEnd, List.splitOn_eq_singleton h, List.filterMap_cons]
  cases parseBytes fromStr lineRev.reverse with
  | none => rfl
  | some entry =>
    show visitEntry entry = [entry].findSomeM? visitEntry
    rw [List.findSomeM?_cons]
    conv_lhs => rw [← bind_pure (visitEntry entry)]
    apply bind_congr
    intro found
    cases found <;> rfl

/-- Scanning a chunk visits the lines that end in it; a line that the chunk leaves open is visited with
the bytes before the chunk. -/
lemma scanChunk_bind {next : Bytes → m (Option SessionIndexEntry)} {before : Bytes}
    (hnext : ∀ lineRev, newline ∉ lineRev →
      next lineRev = (entriesFromEnd fromStr (lineRev ++ before)).findSomeM? visitEntry)
    (bytes : Bytes) (h : newline ∉ lineRev) :
    (scanChunk fromStr visitEntry bytes lineRev >>= fun
      | .inl entry => pure (some entry)
      | .inr lineRev => next lineRev) =
      (entriesFromEnd fromStr (lineRev ++ (bytes ++ before))).findSomeM? visitEntry := by
  induction bytes generalizing lineRev with
  | nil =>
    rw [scanChunk, pure_bind]
    exact hnext lineRev h
  | cons byte bytes ih =>
    rw [scanChunk, List.cons_append]
    split
    · rename_i hbyte
      -- the newline ends the line so far
      rw [hbyte, entriesFromEnd, List.splitOn_append_cons_self_of_not_mem h, List.filterMap_cons,
        parseLineFromRev_eq]
      have ih := ih List.not_mem_nil
      cases parseBytes fromStr lineRev.reverse with
      | none =>
        show (pure none >>= _) >>= _ = _
        rw [pure_bind]
        exact ih
      | some entry =>
        show (visitEntry entry >>= _) >>= _ = (entry :: entriesFromEnd fromStr _).findSomeM? visitEntry
        rw [List.findSomeM?_cons, bind_assoc]
        apply bind_congr
        intro found
        cases found with
        | none => exact ih
        | some found => exact pure_bind _ _
    · rename_i hbyte
      rw [List.append_cons lineRev byte (bytes ++ before)]
      apply ih
      rw [List.mem_append, List.mem_singleton, not_or]
      exact ⟨h, Ne.symm hbyte⟩

lemma scanRemaining_eq (file : Bytes) (remaining : ℕ) (h : newline ∉ lineRev) :
    scanRemaining fromStr visitEntry file remaining lineRev =
      (entriesFromEnd fromStr (lineRev ++ (file.take remaining).reverse)).findSomeM? visitEntry := by
  induction remaining using Nat.strong_induction_on generalizing lineRev with
  | _ remaining ih =>
    rw [scanRemaining]
    split
    · rename_i hzero
      rw [hzero, List.take_zero, List.reverse_nil, List.append_nil]
      exact parseLineFromRev_last h
    · rename_i hpos
      have hsize : 0 < readChunkSize := by decide
      have hlt : remaining - min remaining readChunkSize < remaining := by omega
      have hchunk : file.take remaining =
          file.take (remaining - min remaining readChunkSize) ++
            (file.drop (remaining - min remaining readChunkSize)).take (min remaining readChunkSize) := by
        rw [← List.take_add]
        congr 1
        omega
      rw [hchunk, List.reverse_append]
      exact scanChunk_bind (fun lineRev hline => ih _ hlt hline) _ h

/-- The scan visits the parsed entries, newest first, until one is returned. -/
theorem scanIndexFromEndForEach_eq :
    scanIndexFromEndForEach fromStr visitEntry (encode contents) =
      (parsedEntries fromStr contents).reverse.findSomeM? visitEntry := by
  rw [scanIndexFromEndForEach, scanRemaining_eq _ _ List.not_mem_nil, List.take_length, List.nil_append,
    entriesFromEnd_reverse]

end

lemma scanIndexFromEndById_eq (threadId : ℕ) :
    scanIndexFromEndById fromStr (encode contents) threadId = newestEntry fromStr contents threadId := by
  have hguard : (Option.guard fun entry : SessionIndexEntry => decide (entry.id = threadId)) =
      fun entry => if entry.id = threadId then some entry else none := by
    funext entry
    rw [Option.guard]
    simp
  rw [scanIndexFromEndById, scanIndexFromEndForEach_eq, List.findSomeM?_pure, newestEntry,
    List.find?_eq_findSome?_guard, hguard]
  rfl

lemma findThreadNameById_eq (threadId : ℕ) :
    findThreadNameById fromStr (some (encode contents)) threadId =
      (newestEntry fromStr contents threadId).map (·.threadName) := by
  rw [findThreadNameById, scanIndexFromEndById_eq]

/-! ## The batch -/

/-- What an entry adds to the names. -/
def recordName (threadIds : Finset ℕ) (names : ℕ → Option Text) (entry : SessionIndexEntry) :
    ℕ → Option Text :=
  if trim entry.threadName ≠ [] ∧ entry.id ∈ threadIds then
    Function.update names entry.id (some (trim entry.threadName))
  else names

lemma insertName_eq (names : ℕ → Option Text) (line : Text) :
    insertName fromStr threadIds names line =
      (parseLine fromStr line).elim names (recordName threadIds names) := by
  show (if trim line = [] then _ else _) =
    (if trim line = [] then none else fromStr (trim line)).elim names (recordName threadIds names)
  split
  · rfl
  · cases fromStr (trim line) <;> rfl

lemma trim_stripLineEnd (t : Text) : trim (stripLineEnd t) = trim t := by
  unfold stripLineEnd
  split
  · rename_i h
    obtain ⟨init, rfl⟩ := List.getLast?_eq_some_iff.mp h
    rw [List.dropLast_concat, trim_stripCr, trim_concat (by decide)]
  · rfl

lemma filterMap_pieces :
    (pieces '\n' contents).filterMap (parseLine fromStr) = parsedEntries fromStr contents := by
  unfold parsedEntries
  induction contents using split_induction (c := '\n') with
  | last contents h =>
    rw [List.splitOn_eq_singleton h]
    by_cases hnil : contents = []
    · rw [hnil]
      rfl
    · rw [pieces_of_not_mem hnil h]
  | separated first rest h ih =>
    have hfirst : parseLine fromStr (first ++ ['\n']) = parseLine fromStr first :=
      parseLine_congr (trim_concat (by decide) first)
    rw [pieces_append_cons h, List.splitOn_append_cons_self_of_not_mem h, List.filterMap_cons,
      List.filterMap_cons, hfirst, ih]

lemma foldlM_lines (lines : List Text) (names : ℕ → Option Text) :
    ((lines.map encode).foldlM (fun names piece => do
      let line ← fromUtf8 piece
      pure (insertName fromStr threadIds names (stripLineEnd line))) names :
        Except Utf8Error (ℕ → Option Text)) =
      pure ((lines.filterMap (parseLine fromStr)).foldl (recordName threadIds) names) := by
  induction lines generalizing names with
  | nil => rfl
  | cons line lines ih =>
    rw [List.map_cons, List.foldlM_cons, fromUtf8_encode]
    have hline : parseLine fromStr (stripLineEnd line) = parseLine fromStr line :=
      parseLine_congr (trim_stripLineEnd line)
    show List.foldlM _ (insertName fromStr threadIds names (stripLineEnd line)) _ = _
    rw [ih, insertName_eq, hline, List.filterMap_cons]
    cases parseLine fromStr line <;> rfl

/-- The names that the entries of a file give. -/
def namesOf (threadIds : Finset ℕ) (entries : List SessionIndexEntry) : ℕ → Option Text :=
  entries.foldl (recordName threadIds) fun _ => none

lemma namesOf_concat (entries : List SessionIndexEntry) (entry : SessionIndexEntry) :
    namesOf threadIds (entries ++ [entry]) = recordName threadIds (namesOf threadIds entries) entry := by
  rw [namesOf, List.foldl_append]
  rfl

lemma namesOf_empty (entries : List SessionIndexEntry) : namesOf ∅ entries = fun _ => none := by
  induction entries using List.reverseRecOn with
  | nil => rfl
  | append_singleton entries entry ih =>
    rw [namesOf_concat, recordName, if_neg fun h => Finset.notMem_empty _ h.2, ih]

lemma findThreadNamesByIds_eq :
    findThreadNamesByIds fromStr (some (encode contents)) threadIds =
      pure (namesOf threadIds (parsedEntries fromStr contents)) := by
  rw [findThreadNamesByIds]
  split
  · rename_i hempty
    rw [hempty, namesOf_empty]
  · rw [pieces_encode, foldlM_lines, filterMap_pieces]
    rfl

/-! ## Agreement -/

variable {threadId : ℕ}

lemma namesOf_clean (entries : List SessionIndexEntry) {name : Text}
    (h : namesOf threadIds entries threadId = some name) : name ≠ [] ∧ trim name = name := by
  induction entries using List.reverseRecOn with
  | nil => cases h
  | append_singleton entries entry ih =>
    rw [namesOf_concat, recordName] at h
    split at h
    · rename_i hrecord
      by_cases hid : threadId = entry.id
      · rw [hid, Function.update_self, Option.some.injEq] at h
        rw [← h]
        exact ⟨hrecord.1, trim_trim _⟩
      · rw [Function.update_of_ne hid] at h
        exact ih h
    · exact ih h

lemma namesOf_eq_newest (entries : List SessionIndexEntry) (hmem : threadId ∈ threadIds)
    (hclean : ∀ entry, entries.reverse.find? (·.id = threadId) = some entry →
      entry.threadName ≠ [] ∧ trim entry.threadName = entry.threadName) :
    namesOf threadIds entries threadId =
      (entries.reverse.find? (·.id = threadId)).map (·.threadName) := by
  induction entries using List.reverseRecOn with
  | nil => rfl
  | append_singleton entries entry ih =>
    rw [List.reverse_append, List.reverse_singleton, List.singleton_append] at hclean ⊢
    rw [namesOf_concat, recordName]
    by_cases hid : entry.id = threadId
    · rw [List.find?_cons_of_pos (by simpa using hid)] at hclean ⊢
      obtain ⟨hne, htrim⟩ := hclean entry rfl
      rw [htrim, if_pos ⟨hne, hid ▸ hmem⟩, ← hid, Function.update_self]
      rfl
    · rw [List.find?_cons_of_neg (by simpa using hid)] at hclean ⊢
      rw [← ih hclean]
      split
      · exact Function.update_of_ne (Ne.symm hid) _ _
      · rfl

/-- What holds of the lookups if they agree for some thread ids. -/
structure LookupsAgree (fromStr : Text → Option SessionIndexEntry) (contents : Text)
    (threadIds : Finset ℕ) : Prop where
  /-- The batch maps an id to a name exactly if the single lookup returns the name. -/
  names : ∃ names, findThreadNamesByIds fromStr (some (encode contents)) threadIds = .ok names ∧
    ∀ threadId ∈ threadIds, ∀ name, names threadId = some name ↔
      findThreadNameById fromStr (some (encode contents)) threadId = some name
  /-- The scan visits the parsed entries, newest first. -/
  visits : ∀ (m : Type → Type) [Monad m] [LawfulMonad m]
    (visitEntry : SessionIndexEntry → m (Option SessionIndexEntry)),
    scanIndexFromEndForEach fromStr visitEntry (encode contents) =
      (parsedEntries fromStr contents).reverse.findSomeM? visitEntry
  /-- It finds the newest entry of a thread. -/
  newest : ∀ threadId, scanIndexFromEndById fromStr (encode contents) threadId =
    newestEntry fromStr contents threadId

lemma LookupsAgree.clean (h : LookupsAgree fromStr contents threadIds)
    (hmem : threadId ∈ threadIds) {entry : SessionIndexEntry}
    (hnewest : newestEntry fromStr contents threadId = some entry) :
    entry.threadName ≠ [] ∧ trim entry.threadName = entry.threadName := by
  obtain ⟨names, hnames, hagree⟩ := h.names
  rw [findThreadNamesByIds_eq] at hnames
  cases hnames
  have hsingle : findThreadNameById fromStr (some (encode contents)) threadId = some entry.threadName := by
    rw [findThreadNameById_eq, hnewest]
    rfl
  exact namesOf_clean _ ((hagree threadId hmem entry.threadName).mpr hsingle)

/-- The lookups agree for some thread ids if and only if the newest entry of each of them has a name that is
not empty and neither starts nor ends with white space. -/
theorem lookupsAgree_iff (fromStr : Text → Option SessionIndexEntry) (contents : Text)
    (threadIds : Finset ℕ) :
    LookupsAgree fromStr contents threadIds ↔
      ∀ threadId ∈ threadIds, ∀ entry, newestEntry fromStr contents threadId = some entry →
        entry.threadName ≠ [] ∧ trim entry.threadName = entry.threadName := by
  constructor
  · intro h threadId hmem entry hnewest
    exact h.clean hmem hnewest
  · intro h
    refine ⟨⟨_, findThreadNamesByIds_eq, ?_⟩, ?_, scanIndexFromEndById_eq⟩
    · intro threadId hmem name
      rw [findThreadNameById_eq, namesOf_eq_newest _ hmem (h threadId hmem)]
      rfl
    · intro m _ _ visitEntry
      exact scanIndexFromEndForEach_eq

/-- A line of the index, with a name that starts with a blank. -/
def paddedLine : Text :=
  "\x7b\"id\":\"00000000-0000-0000-0000-000000000001\",\"thread_name\":\" a\",\"updated_at\":\"\"\x7d".toList

/-- What the line is read as. -/
def paddedEntry : SessionIndexEntry := ⟨1, " a".toList, []⟩

/-- The batch finds the name without the blank, the single lookup the name with it. -/
theorem padded_name_disagrees :
    ¬LookupsAgree (fun line => if line = paddedLine then some paddedEntry else none) paddedLine {1} := by
  intro h
  have hnewest : newestEntry (fun line => if line = paddedLine then some paddedEntry else none)
      paddedLine 1 = some paddedEntry := by
    have hline : '\n' ∉ paddedLine := by decide +kernel
    have htrim : trim paddedLine = paddedLine := by decide +kernel
    rw [newestEntry, parsedEntries, List.splitOn_eq_singleton hline, List.filterMap_cons, parseLine, htrim,
      if_neg (by decide), if_pos rfl]
    rfl
  have hclean := h.clean (Finset.mem_singleton_self 1) hnewest
  exact absurd hclean.2 (by decide)

end Supercodex.Rollout
