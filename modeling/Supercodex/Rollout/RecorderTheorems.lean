import Supercodex.Rollout.Recorder
import Supercodex.Library.Runs
import Mathlib.Data.List.Forall2

/-!
# What an acknowledged rollout holds

While every failed write leaves none of its line behind, the file holds exactly the lines of the items
that have left the queue: items leave it in order and only when they are written. A write that fails
after some of its bytes have reached the file is repeated as a whole, behind those bytes.
-/

namespace Supercodex.Rollout

open Text Utf8 Runs RolloutCmd

variable {Meta Git Payload : Type} {serde : Serde Meta Git Payload}

/-! ## Serialised lines -/

/-- What the recorder relies on: an item is written as one JSON object on one line, which is read
back as the item. -/
structure Serde.Lawful (serde : Serde Meta Git Payload) : Prop where
  read_back : ∀ timestamp item line, serde.toLine timestamp item = some line →
    serde.fromLine line = some item
  one_line : ∀ timestamp item line, serde.toLine timestamp item = some line → '\n' ∉ line
  object : ∀ timestamp item line, serde.toLine timestamp item = some line →
    ∃ fields, line = '\x7b' :: (fields ++ ['\x7d'])

/-- A line that some item was written as. -/
def IsLineOf (serde : Serde Meta Git Payload) (line : Text)
    (item : RolloutItem Meta Git Payload) : Prop :=
  ∃ timestamp, serde.toLine timestamp item = some line

/-- The file holds lines that were there before, and then the lines of some items. -/
def Holds (serde : Serde Meta Git Payload) (base : List Text) (file : Bytes)
    (items : List (RolloutItem Meta Git Payload)) : Prop :=
  ∃ written, List.Forall₂ (IsLineOf serde) written items ∧ file = encode (endLines (base ++ written))

lemma endLines_append (ls ms : List Text) : endLines (ls ++ ms) = endLines ls ++ endLines ms :=
  List.flatMap_append

variable {base : List Text} {item : RolloutItem Meta Git Payload} {line : Text}

lemma Holds.append {file : Bytes} {items : List (RolloutItem Meta Git Payload)}
    (h : Holds serde base file items)
    (hline : IsLineOf serde line item) :
    Holds serde base (file ++ encode (line ++ ['\n'])) (items ++ [item]) := by
  obtain ⟨written, hwritten, rfl⟩ := h
  refine ⟨written ++ [line], List.rel_append hwritten (.cons hline .nil), ?_⟩
  rw [← List.append_assoc, endLines_append (base ++ written), encode_append (endLines _),
    endLines_cons, endLines_nil]

/-! ## Writes that leave nothing behind -/

/-- A failed write leaves none of its line. -/
def LineWrite.Clean (write : LineWrite) : Prop := ∀ left, write.outcome = .failed left → left = 0

/-- Every failed write of the attempt leaves none of its line. -/
structure Attempt.Clean (attempt : Attempt Git) : Prop where
  metaWrite : attempt.metaWrite.Clean
  itemWrites : ∀ k, (attempt.itemWrites k).Clean

/-- Every failed write for the command leaves none of its line. -/
structure Handled.Clean (h : Handled Meta Git Payload) : Prop where
  first : h.first.Clean
  second : h.second.Clean

lemma writeRolloutItem_of_clean (serde : Serde Meta Git Payload) {write : LineWrite}
    (h : write.Clean) (item : RolloutItem Meta Git Payload) (file : Bytes) :
    (∃ line, IsLineOf serde line item ∧
      writeRolloutItem serde write item file = (file ++ encode (line ++ ['\n']), true)) ∨
    writeRolloutItem serde write item file = (file, false) := by
  unfold writeRolloutItem
  cases hjson : write.timestamp.bind (serde.toLine · item) with
  | none => exact .inr rfl
  | some line =>
    obtain ⟨timestamp, -, hline⟩ := Option.bind_eq_some_iff.mp hjson
    cases houtcome : write.outcome with
    | written => exact .inl ⟨line, ⟨timestamp, hline⟩, rfl⟩
    | failed left =>
      right
      rw [h left houtcome]
      simp

/-- Pending items are written as a prefix, and the rest stays pending. -/
lemma writeItems_of_clean {writes : ℕ → LineWrite} (h : ∀ k, (writes k).Clean)
    {file : Bytes} {items : List (RolloutItem Meta Git Payload)} (hholds : Holds serde base file items)
    (k : ℕ) (pending : List (RolloutItem Meta Git Payload)) :
    ∃ n file' result, writeItems serde writes k pending file = (n, file', result) ∧
      Holds serde base file' (items ++ pending.take n) ∧
      (result = true → pending.drop n = []) := by
  induction pending generalizing k file items with
  | nil => exact ⟨0, file, true, rfl, by simpa using hholds, fun _ => rfl⟩
  | cons item pending ih =>
    rw [writeItems]
    obtain ⟨line, hline, hwrite⟩ | hwrite := writeRolloutItem_of_clean serde (h k) item file
    · obtain ⟨n, file', result, heq, hholds', hresult⟩ := ih (hholds.append hline) (k + 1)
      rw [hwrite]
      dsimp only
      rw [heq]
      refine ⟨n + 1, file', result, rfl, ?_, hresult⟩
      rw [List.append_assoc, List.singleton_append] at hholds'
      exact hholds'
    · rw [hwrite]
      exact ⟨0, file, false, rfl, by simpa using hholds, fun hfalse => by cases hfalse⟩

/-! ## What the recorder keeps -/

/-- The first item of a new session. -/
def opening (sessionMeta : Option Meta) (git : Option Git) :
    List (RolloutItem Meta Git Payload) :=
  (sessionMeta.map fun m => RolloutItem.sessionMeta ⟨m, git⟩).toList

/-- The items that were recorded are in the file or in the queue: the file holds the metadata and
the items that have left the queue, or nothing yet while the metadata is still to be written. -/
structure Keeps (serde : Serde Meta Git Payload) (base : List Text) (sessionMeta : Option Meta)
    (git : Option Git) (written : List (RolloutItem Meta Git Payload))
    (r : Recorder Meta Git Payload) (recorded : List (RolloutItem Meta Git Payload)) : Prop where
  recorded_eq : recorded = written ++ r.state.pendingItems
  holds : Holds serde base (r.file.getD [])
    (if r.state.sessionMeta = none then opening sessionMeta git ++ written else [])
  sessionMeta_eq : r.state.sessionMeta ≠ none → r.state.sessionMeta = sessionMeta ∧ written = []
  deferred : r.state.deferredLogFileInfo = true → written = []
  writer : r.state.writer = true → r.state.deferredLogFileInfo = false ∧ r.file ≠ none
  file : written ≠ [] → r.file ≠ none

/-- The recorder keeps what was recorded, with some items written. -/
def Kept (serde : Serde Meta Git Payload) (base : List Text) (sessionMeta : Option Meta)
    (r : Recorder Meta Git Payload) (recorded : List (RolloutItem Meta Git Payload)) : Prop :=
  ∃ git written, Keeps serde base sessionMeta git written r recorded

section

variable {base : List Text} {sessionMeta : Option Meta} {r r' : Recorder Meta Git Payload}
  {recorded : List (RolloutItem Meta Git Payload)} {attempt : Attempt Git} {result : Bool}

lemma Kept.enterRecoveryMode (h : Kept serde base sessionMeta r recorded) :
    Kept serde base sessionMeta (enterRecoveryMode r) recorded := by
  obtain ⟨git, written, h⟩ := h
  exact ⟨git, written, h.recorded_eq, h.holds, h.sessionMeta_eq, h.deferred,
    (fun hwriter => by cases hwriter), h.file⟩

lemma Kept.addItems (h : Kept serde base sessionMeta r recorded)
    (items : List (RolloutItem Meta Git Payload)) :
    Kept serde base sessionMeta (addItems items r) (recorded ++ items) := by
  obtain ⟨git, written, h⟩ := h
  refine ⟨git, written, ?_, h.holds, h.sessionMeta_eq, h.deferred, h.writer, h.file⟩
  show recorded ++ items = written ++ (r.state.pendingItems ++ items)
  rw [h.recorded_eq, List.append_assoc]

lemma Kept.ensureWriterOpen (h : Kept serde base sessionMeta r recorded)
    (heq : ensureWriterOpen attempt r = (r', result)) :
    Kept serde base sessionMeta r' recorded ∧ (result = true → r'.state.writer = true) := by
  unfold Rollout.ensureWriterOpen at heq
  split_ifs at heq with hwriter hopens
  · cases heq
    exact ⟨h, fun _ => hwriter⟩
  · cases heq
    obtain ⟨git, written, h⟩ := h
    refine ⟨⟨git, written, h.recorded_eq, ?_, h.sessionMeta_eq, fun hfalse => ?_, fun _ => ?_,
      fun _ => Option.some_ne_none _⟩, fun _ => rfl⟩
    · exact h.holds
    · cases hfalse
    · exact ⟨rfl, Option.some_ne_none _⟩
  · cases heq
    exact ⟨h, fun hfalse => by cases hfalse⟩

/-- The metadata is written once, before every item. -/
lemma Kept.writeSessionMetaIfNeeded (h : Kept serde base sessionMeta r recorded)
    (hwriter : r.state.writer = true) (hclean : attempt.Clean)
    (heq : writeSessionMetaIfNeeded serde attempt r = (r', result)) :
    Kept serde base sessionMeta r' recorded ∧ r'.state.writer = true ∧
      (result = true → r'.state.sessionMeta = none) := by
  obtain ⟨git, written, h⟩ := h
  unfold Rollout.writeSessionMetaIfNeeded at heq
  cases hmeta : r.state.sessionMeta with
  | none =>
    rw [hmeta] at heq
    cases heq
    exact ⟨⟨git, written, h⟩, hwriter, fun _ => hmeta⟩
  | some m =>
    rw [hmeta] at heq
    dsimp only at heq
    have hne : r.state.sessionMeta ≠ none := by
      rw [hmeta]
      exact Option.some_ne_none m
    obtain ⟨hsame, hnil⟩ := h.sessionMeta_eq hne
    have hholds := h.holds
    rw [if_neg hne] at hholds
    obtain ⟨hdeferred, -⟩ := h.writer hwriter
    obtain ⟨line, hline, hwrite⟩ | hwrite := writeRolloutItem_of_clean serde
      hclean.metaWrite (.sessionMeta ⟨m, attempt.git⟩) (r.file.getD [])
    · rw [hwrite] at heq
      cases heq
      refine ⟨⟨attempt.git, written, h.recorded_eq, ?_, fun hfalse => absurd rfl hfalse,
        h.deferred, fun _ => ⟨hdeferred, Option.some_ne_none _⟩, fun _ => Option.some_ne_none _⟩,
        hwriter, fun _ => rfl⟩
      have hopening : opening sessionMeta attempt.git ++ written =
          [RolloutItem.sessionMeta ⟨m, attempt.git⟩] := by
        rw [← hsame, hmeta, hnil]
        rfl
      rw [if_pos rfl, hopening]
      exact hholds.append hline
    · rw [hwrite] at heq
      cases heq
      refine ⟨⟨git, written, h.recorded_eq, ?_, h.sessionMeta_eq, h.deferred,
        fun _ => ⟨hdeferred, Option.some_ne_none _⟩, fun _ => Option.some_ne_none _⟩, hwriter,
        fun hfalse => by cases hfalse⟩
      rw [if_neg hne]
      exact hholds

lemma Kept.writePendingItemsOnce (h : Kept serde base sessionMeta r recorded)
    (hwriter : r.state.writer = true) (hmeta : r.state.sessionMeta = none)
    (hclean : attempt.Clean) (heq : writePendingItemsOnce serde attempt r = (r', result)) :
    Kept serde base sessionMeta r' recorded ∧ r'.state.writer = true ∧
      r'.state.sessionMeta = none ∧ (result = true → r'.state.pendingItems = []) := by
  obtain ⟨git, written, h⟩ := h
  have hholds := h.holds
  rw [if_pos hmeta] at hholds
  obtain ⟨hdeferred, -⟩ := h.writer hwriter
  obtain ⟨n, file', result', hwrite, hholds', hdrop⟩ :=
    writeItems_of_clean hclean.itemWrites hholds 0 r.state.pendingItems
  unfold Rollout.writePendingItemsOnce at heq
  rw [hwrite] at heq
  cases heq
  refine ⟨⟨git, written ++ r.state.pendingItems.take n, ?_, ?_, fun hne => absurd hmeta hne, ?_,
    fun _ => ⟨hdeferred, Option.some_ne_none _⟩, fun _ => Option.some_ne_none _⟩, hwriter, hmeta,
    hdrop⟩
  · show recorded = written ++ r.state.pendingItems.take n ++ r.state.pendingItems.drop n
    rw [List.append_assoc, List.take_append_drop, h.recorded_eq]
  · rw [if_pos hmeta, ← List.append_assoc]
    exact hholds'
  · intro htrue
    rw [show r.state.deferredLogFileInfo = false from hdeferred] at htrue
    cases htrue

/-- After a successful attempt everything is in the file. -/
structure Settled (r : Recorder Meta Git Payload) : Prop where
  sessionMeta : r.state.sessionMeta = none
  pendingItems : r.state.pendingItems = []
  file : r.file ≠ none

lemma Kept.writePendingOnce (h : Kept serde base sessionMeta r recorded) (hclean : attempt.Clean)
    (heq : writePendingOnce serde attempt r = (r', result)) :
    Kept serde base sessionMeta r' recorded ∧ (result = true → Settled r') := by
  unfold Rollout.writePendingOnce at heq
  cases hopen : Rollout.ensureWriterOpen attempt r with
  | mk r₁ opened =>
    obtain ⟨h₁, hwriter⟩ := h.ensureWriterOpen hopen
    rw [hopen] at heq
    cases opened with
    | false =>
      cases heq
      exact ⟨h₁, fun hfalse => by cases hfalse⟩
    | true =>
      dsimp only at heq
      cases hmeta : Rollout.writeSessionMetaIfNeeded serde attempt r₁ with
      | mk r₂ metaWritten =>
        obtain ⟨h₂, hwriter₂, hnone⟩ := h₁.writeSessionMetaIfNeeded (hwriter rfl) hclean hmeta
        rw [hmeta] at heq
        cases metaWritten with
        | false =>
          cases heq
          exact ⟨h₂, fun hfalse => by cases hfalse⟩
        | true =>
          dsimp only at heq
          cases hitems : Rollout.writePendingItemsOnce serde attempt r₂ with
          | mk r₃ itemsWritten =>
            obtain ⟨h₃, hwriter₃, hnone₃, hempty⟩ :=
              h₂.writePendingItemsOnce hwriter₂ (hnone rfl) hclean hitems
            rw [hitems] at heq
            cases itemsWritten with
            | false =>
              cases heq
              exact ⟨h₃, fun hfalse => by cases hfalse⟩
            | true =>
              cases heq
              refine ⟨h₃, fun _ => ⟨hnone₃, hempty rfl, ?_⟩⟩
              obtain ⟨git, written, hkeeps⟩ := h₃
              exact (hkeeps.writer hwriter₃).2

variable {first second : Attempt Git}

lemma Kept.writePendingWithRecovery (h : Kept serde base sessionMeta r recorded)
    (hfirst : first.Clean) (hsecond : second.Clean)
    (heq : writePendingWithRecovery serde first second r = (r', result)) :
    Kept serde base sessionMeta r' recorded ∧ (result = true → Settled r') := by
  unfold Rollout.writePendingWithRecovery at heq
  cases hone : Rollout.writePendingOnce serde first r with
  | mk r₁ written =>
    obtain ⟨h₁, hsettled₁⟩ := h.writePendingOnce hfirst hone
    rw [hone] at heq
    cases written with
    | true =>
      cases heq
      exact ⟨h₁, hsettled₁⟩
    | false =>
      dsimp only at heq
      cases htwo : Rollout.writePendingOnce serde second (Rollout.enterRecoveryMode r₁) with
      | mk r₂ written =>
        obtain ⟨h₂, hsettled₂⟩ := h₁.enterRecoveryMode.writePendingOnce hsecond htwo
        rw [htwo] at heq
        cases written with
        | true =>
          cases heq
          exact ⟨h₂, hsettled₂⟩
        | false =>
          cases heq
          exact ⟨h₂.enterRecoveryMode, fun hfalse => by cases hfalse⟩

lemma Kept.flush (h : Kept serde base sessionMeta r recorded) (hfirst : first.Clean)
    (hsecond : second.Clean) (heq : flush serde first second r = (r', result)) :
    Kept serde base sessionMeta r' recorded ∧ (result = true → Settled r' ∨ recorded = []) := by
  unfold Rollout.flush at heq
  split at heq
  · rename_i hidle
    cases heq
    refine ⟨h, fun _ => .inr ?_⟩
    obtain ⟨git, written, h⟩ := h
    have hdeferred := hidle.1
    unfold RolloutWriterState.isDeferred at hdeferred
    rw [Bool.and_eq_true] at hdeferred
    rw [h.recorded_eq, h.deferred hdeferred.2, hidle.2]
    rfl
  · obtain ⟨h', hsettled⟩ := h.writePendingWithRecovery hfirst hsecond heq
    exact ⟨h', fun htrue => .inl (hsettled htrue)⟩

lemma Kept.flushIfMaterialized (h : Kept serde base sessionMeta r recorded)
    (hfirst : first.Clean) (hsecond : second.Clean) :
    Kept serde base sessionMeta (flushIfMaterialized serde first second r) recorded := by
  unfold Rollout.flushIfMaterialized
  split
  · exact h
  cases hflush : Rollout.flush serde first second r with
  | mk r₁ flushed =>
    obtain ⟨h₁, -⟩ := h.flush hfirst hsecond hflush
    cases flushed with
    | true => exact h₁
    | false => exact h₁.enterRecoveryMode

end

/-! ## Commands -/

/-- The items that a command records. -/
def RolloutCmd.items : RolloutCmd Meta Git Payload → List (RolloutItem Meta Git Payload)
  | .addItems items => items
  | .persist | .flush | .shutdown => []

variable {sessionMeta : Option Meta}

lemma Kept.handle {r : Recorder Meta Git Payload}
    {recorded : List (RolloutItem Meta Git Payload)} {h : Handled Meta Git Payload}
    (hkept : Kept serde base sessionMeta r recorded) (hclean : h.Clean) :
    Kept serde base sessionMeta (handle serde h r).1 (recorded ++ h.cmd.items) ∧
      ((handle serde h r).2 = some true →
        Settled (handle serde h r).1 ∨ recorded ++ h.cmd.items = []) := by
  unfold Rollout.handle
  cases hcmd : h.cmd with
  | addItems items =>
    exact ⟨(hkept.addItems items).flushIfMaterialized hclean.first hclean.second,
      fun hack => by cases hack⟩
  | persist =>
    rw [items, List.append_nil]
    cases heq : Rollout.writePendingWithRecovery serde h.first h.second r with
    | mk r' result =>
      obtain ⟨hkept', hsettled⟩ :=
        hkept.writePendingWithRecovery hclean.first hclean.second heq
      exact ⟨hkept', fun hack => .inl (hsettled (Option.some.inj hack))⟩
  | flush | shutdown =>
    rw [items, List.append_nil]
    cases heq : Rollout.flush serde h.first h.second r with
    | mk r' result =>
      obtain ⟨hkept', hsettled⟩ := hkept.flush hclean.first hclean.second heq
      exact ⟨hkept', fun hack => hsettled (Option.some.inj hack)⟩

/-! ## Loading -/

/-- The item on a line, if it is read. -/
def lineItem (serde : Serde Meta Git Payload) (line : Text) :
    Option (RolloutItem Meta Git Payload) :=
  if trim line = [] then none else serde.fromLine line

lemma foldl_loadLine_items (serde : Serde Meta Git Payload) (ls : List Text)
    (loaded : Loaded Meta Git Payload) :
    (ls.foldl (loadLine serde) loaded).items = loaded.items ++ ls.filterMap (lineItem serde) := by
  induction ls generalizing loaded with
  | nil => simp
  | cons line ls ih =>
    rw [List.foldl_cons, ih, List.filterMap_cons, loadLine, lineItem]
    split
    · rfl
    cases serde.fromLine line with
    | none => rfl
    | some item =>
      cases item with
      | sessionMeta metaLine | recorded payload => simp

lemma Serde.Lawful.nonBlank (h : serde.Lawful)
    (hline : IsLineOf serde line item) : NonBlank line := by
  obtain ⟨timestamp, hline⟩ := hline
  obtain ⟨fields, rfl⟩ := h.object _ _ _ hline
  exact ⟨'\x7b', List.mem_cons_self, by decide⟩

lemma Serde.Lawful.stripCr_eq (h : serde.Lawful) (hline : IsLineOf serde line item) :
    stripCr line = line := by
  obtain ⟨timestamp, hline⟩ := hline
  obtain ⟨fields, rfl⟩ := h.object _ _ _ hline
  rw [stripCr_eq_self_iff, ← List.cons_append, List.getLast?_concat]
  decide

lemma Serde.Lawful.lineItem_eq (h : serde.Lawful) (hline : IsLineOf serde line item) :
    lineItem serde line = some item := by
  rw [lineItem, if_neg (trim_ne_nil (h.nonBlank hline))]
  obtain ⟨timestamp, hline⟩ := hline
  exact h.read_back _ _ _ hline

lemma Serde.Lawful.filterMap_lineItem (h : serde.Lawful) {written : List Text}
    {items : List (RolloutItem Meta Git Payload)}
    (hwritten : List.Forall₂ (IsLineOf serde) written items) :
    (written.map stripCr).filterMap (lineItem serde) = items := by
  induction hwritten with
  | nil => rfl
  | cons hline _ ih =>
    rw [List.map_cons, h.stripCr_eq hline, List.filterMap_cons, h.lineItem_eq hline, ih]

lemma Serde.Lawful.newline_not_mem (h : serde.Lawful) {written : List Text}
    {items : List (RolloutItem Meta Git Payload)}
    (hwritten : List.Forall₂ (IsLineOf serde) written items) : ∀ line ∈ written, '\n' ∉ line := by
  induction hwritten with
  | nil => simp
  | cons hline _ ih =>
    intro line hmem
    rcases List.mem_cons.mp hmem with rfl | hmem
    · obtain ⟨timestamp, hline⟩ := hline
      exact h.one_line _ _ _ hline
    · exact ih line hmem

/-- The items on lines that were in the file before. -/
def storedItems (serde : Serde Meta Git Payload) (base : List Text) :
    List (RolloutItem Meta Git Payload) :=
  (lines (endLines base)).filterMap (lineItem serde)

lemma Holds.loadRolloutItems (h : serde.Lawful) (hbase : ∀ line ∈ base, '\n' ∉ line) {file : Bytes}
    {items : List (RolloutItem Meta Git Payload)} (hholds : Holds serde base file items)
    (hne : items ≠ []) :
    ∃ loaded, loadRolloutItems serde (some file) = .ok loaded ∧
      loaded.items = storedItems serde base ++ items := by
  obtain ⟨written, hwritten, rfl⟩ := hholds
  have hnewline : ∀ line ∈ base ++ written, '\n' ∉ line := by
    intro line hline
    rcases List.mem_append.mp hline with hline | hline
    · exact hbase line hline
    · exact h.newline_not_mem hwritten line hline
  have hblank : trim (endLines (base ++ written)) ≠ [] := by
    apply trim_ne_nil
    cases hwritten with
    | nil => exact absurd rfl hne
    | @cons line item written items hline hrest =>
      obtain ⟨c, hc, hws⟩ := h.nonBlank hline
      refine ⟨c, ?_, hws⟩
      rw [endLines_append, endLines_cons]
      exact List.mem_append_right _ (List.mem_append_left _ hc)
  unfold Rollout.loadRolloutItems
  rw [Option.bind_some, decode_encode]
  dsimp only
  rw [if_neg hblank]
  refine ⟨_, rfl, ?_⟩
  rw [foldl_loadLine_items, List.nil_append, lines_endLines hnewline, List.map_append,
    List.filterMap_append, h.filterMap_lineItem hwritten, storedItems, lines_endLines hbase]

/-! ## Runs -/

/-- The recorder of a session with all items recorded so far, until it is shut down. -/
structure Session (Meta Git Payload : Type) where
  recorder : Recorder Meta Git Payload
  recorded : List (RolloutItem Meta Git Payload)
  stopped : Bool

/-- The result that a command is acknowledged with. -/
def Session.ack (serde : Serde Meta Git Payload) (s : Session Meta Git Payload)
    (h : Handled Meta Git Payload) : Option Bool :=
  (handle serde h s.recorder).2

/-- The session after a command; a shutdown that is acknowledged with success ends it. -/
def Session.next (serde : Serde Meta Git Payload) (s : Session Meta Git Payload)
    (h : Handled Meta Git Payload) : Session Meta Git Payload where
  recorder := (handle serde h s.recorder).1
  recorded := s.recorded ++ h.cmd.items
  stopped :=
    match h.cmd with
    | .shutdown => s.ack serde h == some true
    | .addItems _ | .persist | .flush => false

/-- One round of `rollout_writer`. -/
def Session.Step (serde : Serde Meta Git Payload) (s : Session Meta Git Payload)
    (h : Handled Meta Git Payload) (s' : Session Meta Git Payload) : Prop :=
  s.stopped = false ∧ s' = s.next serde h

/-- A session at its start: a new one, or one that is resumed from complete lines. -/
inductive Session.Starts (base : List Text) : Option Meta → Session Meta Git Payload → Prop where
  | create (sessionMeta : Meta) (hbase : base = []) :
    Starts base (some sessionMeta) ⟨.create sessionMeta, [], false⟩
  | resume (hbase : ∀ line ∈ base, '\n' ∉ line) :
    Starts base none ⟨.resume (encode (endLines base)), [], false⟩

lemma Session.Starts.newline_not_mem {s : Session Meta Git Payload} (h : s.Starts base sessionMeta)
    :
    ∀ line ∈ base, '\n' ∉ line := by
  cases h with
  | create sessionMeta hbase =>
    rw [hbase]
    simp
  | resume hbase => exact hbase

lemma Session.Starts.kept {s : Session Meta Git Payload} (h : s.Starts base sessionMeta) :
    Kept serde base sessionMeta s.recorder s.recorded := by
  cases h with
  | create sessionMeta hbase =>
    refine ⟨none, [], rfl, ?_, fun _ => ⟨rfl, rfl⟩, fun _ => rfl,
      (fun hfalse => by cases hfalse), fun hne => absurd rfl hne⟩
    rw [hbase]
    exact ⟨[], .nil, rfl⟩
  | resume hbase =>
    refine ⟨none, [], rfl, ?_, fun hne => absurd rfl hne, fun _ => rfl,
      fun _ => ⟨rfl, Option.some_ne_none _⟩, fun hne => absurd rfl hne⟩
    refine ⟨[], .nil, ?_⟩
    rw [List.append_nil]
    rfl

/-- The file holds the items, after what was stored before and the metadata of a new session. -/
def Complete (serde : Serde Meta Git Payload) (base : List Text) (sessionMeta : Option Meta)
    (file : Option Bytes) (items : List (RolloutItem Meta Git Payload)) : Prop :=
  ∃ git loaded, loadRolloutItems serde file = .ok loaded ∧
    loaded.items = storedItems serde base ++ opening sessionMeta git ++ items

lemma Keeps.complete (hserde : serde.Lawful) (hbase : ∀ line ∈ base, '\n' ∉ line) {git : Option Git}
    {written recorded : List (RolloutItem Meta Git Payload)} {r : Recorder Meta Git Payload}
    (h : Keeps serde base sessionMeta git written r recorded) (hne : written ≠ []) :
    Complete serde base sessionMeta r.file written := by
  have hmeta : r.state.sessionMeta = none := by
    by_contra hsome
    exact hne (h.sessionMeta_eq hsome).2
  have hholds := h.holds
  rw [if_pos hmeta] at hholds
  obtain ⟨file, hfile⟩ := Option.ne_none_iff_exists'.mp (h.file hne)
  rw [hfile, Option.getD_some] at hholds
  obtain ⟨loaded, hload, hitems⟩ := hholds.loadRolloutItems hserde hbase (by simp [hne])
  refine ⟨git, loaded, ?_, by rw [hitems, List.append_assoc]⟩
  rw [hfile]
  exact hload

variable {base : List Text} {sessionMeta : Option Meta} {init s : Session Meta Git Payload}
  {ts : List (Transition (Session Meta Git Payload) (Handled Meta Git Payload))}

/-- While every failed write leaves none of its line in the file, a command that is acknowledged has
everything recorded before it in the file, once and in order, and at any time what was recorded is in
the file or in the queue. -/
theorem rollout_complete (hserde : serde.Lawful) (hinit : init.Starts base sessionMeta)
    (run : Run (Session.Step serde) init ts s) (hclean : ∀ t ∈ ts, t.label.Clean) :
    (∀ t ∈ ts, t.before.ack serde t.label = some true → t.after.recorded ≠ [] →
      Complete serde base sessionMeta t.after.recorder.file t.after.recorded) ∧
    ∃ written, s.recorded = written ++ s.recorder.state.pendingItems ∧
      (written ≠ [] → Complete serde base sessionMeta s.recorder.file written) := by
  have hstep : ∀ s h s', Kept serde base sessionMeta s.recorder s.recorded → h.Clean →
      Session.Step serde s h s' → Kept serde base sessionMeta s'.recorder s'.recorded := by
    rintro s h s' hkept hclean ⟨-, rfl⟩
    exact (hkept.handle hclean).1
  obtain ⟨⟨git, written, hkeeps⟩, hsteps⟩ :=
    run.invariant (fun _ h => h.Clean) hclean hinit.kept hstep
  refine ⟨?_, written, hkeeps.recorded_eq, hkeeps.complete hserde hinit.newline_not_mem⟩
  intro t ht hack hne
  obtain ⟨hkept, -, hafter⟩ := hsteps t ht
  rw [hafter] at hne ⊢
  obtain ⟨⟨git, written, hkeeps⟩, hsettled⟩ := hkept.handle (hclean t ht)
  rcases hsettled hack with hsettled | hnil
  · -- nothing pends, so all items are written
    have hall : t.before.recorded ++ t.label.cmd.items = written := by
      rw [hkeeps.recorded_eq, hsettled.pendingItems, List.append_nil]
    show Complete serde base sessionMeta _ (t.before.recorded ++ t.label.cmd.items)
    rw [hall]
    refine hkeeps.complete hserde hinit.newline_not_mem ?_
    rw [← hall]
    exact hne
  · exact absurd hnil hne

/-! ## Failures in the middle -/

/-- A rollout line of a kind. -/
def sampleLine (kind : Text) : Text :=
  "\x7b\"timestamp\":\"2025-05-07T17:24:21.000Z\",\"type\":\"".toList ++ kind ++
    "\",\"payload\":\x7b\x7d\x7d".toList

/-- The time of the lines. -/
def sampleTime : Text := "2025-05-07T17:24:21.000Z".toList

/-- The kind of an item: metadata, an event or a response. -/
def sampleKind : RolloutItem Unit Empty Bool → Text
  | .sessionMeta _ => "session_meta".toList
  | .recorded false => "event_msg".toList
  | .recorded true => "response_item".toList

/-- The items, one of each kind. -/
def sampleItems : List (RolloutItem Unit Empty Bool) := [.sessionMeta ⟨(), none⟩, .recorded false, .recorded true]

/-- The serialisation, on metadata, events and responses without content. -/
def sampleSerde : Serde Unit Empty Bool where
  toLine timestamp item := if timestamp = sampleTime then some (sampleLine (sampleKind item)) else none
  fromLine line := sampleItems.find? fun item => sampleLine (sampleKind item) = line
  threadId _ := "t".toList

lemma sampleSerde_toLine {timestamp line : Text} {item : RolloutItem Unit Empty Bool}
    (h : sampleSerde.toLine timestamp item = some line) :
    item ∈ sampleItems ∧ line = sampleLine (sampleKind item) := by
  unfold sampleSerde at h
  dsimp only at h
  split at h
  swap
  · cases h
  cases h
  refine ⟨?_, rfl⟩
  match item with
  | .sessionMeta ⟨(), none⟩ => simp [sampleItems]
  | .sessionMeta ⟨(), some git⟩ => exact git.elim
  | .recorded false => simp [sampleItems]
  | .recorded true => simp [sampleItems]

lemma sampleSerde_lawful : sampleSerde.Lawful := by
  have hkinds : ∀ item ∈ sampleItems,
      sampleSerde.fromLine (sampleLine (sampleKind item)) = some item ∧ '\n' ∉ sampleLine (sampleKind item) ∧
        sampleLine (sampleKind item) =
          '\x7b' :: ((sampleLine (sampleKind item)).tail.dropLast ++ ['\x7d']) := by decide +kernel
  constructor
  · intro timestamp item line h
    obtain ⟨hmem, rfl⟩ := sampleSerde_toLine h
    exact (hkinds item hmem).1
  · intro timestamp item line h
    obtain ⟨hmem, rfl⟩ := sampleSerde_toLine h
    exact (hkinds item hmem).2.1
  · intro timestamp item line h
    obtain ⟨hmem, rfl⟩ := sampleSerde_toLine h
    exact ⟨_, (hkinds item hmem).2.2⟩

/-- An attempt whose second item write ends in some way; everything else succeeds. -/
def sampleAttempt (outcome : WriteOutcome) : Attempt Empty :=
  ⟨true, none, ⟨some sampleTime, .written⟩, fun k => ⟨some sampleTime, if k = 1 then outcome else .written⟩, true⟩

/-- An event, a response and an event are recorded in a new session. -/
def sampleRecord : Handled Unit Empty Bool :=
  ⟨.addItems [.recorded false, .recorded true, .recorded false], sampleAttempt .written, sampleAttempt .written⟩

/-- The session is persisted; the first write of the response fails and leaves some bytes. -/
def samplePersist (left : ℕ) : Handled Unit Empty Bool :=
  ⟨.persist, sampleAttempt (.failed left), sampleAttempt .written⟩

/-- The new session. -/
def sampleSession : Session Unit Empty Bool := ⟨.create (), [], false⟩

/-- The session after the items were recorded. -/
def sampleRecorded : Session Unit Empty Bool := sampleSession.next sampleSerde sampleRecord

lemma run_samplePersist (left : ℕ) : Run (Session.Step sampleSerde) sampleSession
    [⟨sampleSession, sampleRecord, sampleRecorded⟩,
      ⟨sampleRecorded, samplePersist left, sampleRecorded.next sampleSerde (samplePersist left)⟩]
    (sampleRecorded.next sampleSerde (samplePersist left)) :=
  (Run.nil.snoc ⟨rfl, rfl⟩).snoc ⟨rfl, rfl⟩

lemma sampleAttempt_clean {outcome : WriteOutcome}
    (h : ∀ left, outcome = .failed left → left = 0) : (sampleAttempt outcome).Clean := by
  refine ⟨(fun left hleft => by cases hleft), fun k left hleft => ?_⟩
  unfold sampleAttempt at hleft
  dsimp only at hleft
  split at hleft
  · exact h left hleft
  · cases hleft

/-- The first write of the response fails and leaves nothing: the second attempt completes the file. -/
theorem rollout_complete_after_failure :
    let s := sampleRecorded.next sampleSerde (samplePersist 0)
    sampleRecorded.ack sampleSerde (samplePersist 0) = some true ∧
      s.recorded = [.recorded false, .recorded true, .recorded false] ∧
      Complete sampleSerde [] (some ()) s.recorder.file s.recorded := by
  intro s
  have hack : sampleRecorded.ack sampleSerde (samplePersist 0) = some true := by decide +kernel
  have hclean : ∀ t ∈ [⟨sampleSession, sampleRecord, sampleRecorded⟩,
      (⟨sampleRecorded, samplePersist 0, s⟩ : Transition _ _)], t.label.Clean := by
    intro t ht
    simp only [List.mem_cons, List.not_mem_nil, or_false] at ht
    rcases ht with rfl | rfl
    · exact ⟨sampleAttempt_clean (by rintro left ⟨⟩), sampleAttempt_clean (by rintro left ⟨⟩)⟩
    · exact ⟨sampleAttempt_clean (by rintro left ⟨⟩; rfl),
        sampleAttempt_clean (by rintro left ⟨⟩)⟩
  have hcomplete := (rollout_complete sampleSerde_lawful (.create () rfl) (run_samplePersist 0)
    hclean).1 ⟨sampleRecorded, samplePersist 0, s⟩ (by simp [s]) hack (by simp [s, Session.next,
      sampleRecorded, sampleSession, sampleRecord, items])
  exact ⟨hack, rfl, hcomplete⟩

/-- The first write of the response leaves five bytes, and the second one appends the whole line to
them: the persist is acknowledged, and the response is not in the rollout. -/
theorem rollout_item_lost :
    let s := sampleRecorded.next sampleSerde (samplePersist 5)
    Run (Session.Step sampleSerde) sampleSession [⟨sampleSession, sampleRecord, sampleRecorded⟩,
      ⟨sampleRecorded, samplePersist 5, s⟩] s ∧
      sampleRecorded.ack sampleSerde (samplePersist 5) = some true ∧
      s.recorded = [.recorded false, .recorded true, .recorded false] ∧
      loadRolloutItems sampleSerde s.recorder.file =
        .ok ⟨[.sessionMeta ⟨(), none⟩, .recorded false, .recorded false], some "t".toList, 1⟩ ∧
      ¬ Complete sampleSerde [] (some ()) s.recorder.file s.recorded := by
  intro s
  have hfile : s.recorder.file = some (encode (sampleLine "session_meta".toList ++ ['\n'] ++
      sampleLine "event_msg".toList ++ ['\n'] ++ (sampleLine "response_item".toList).take 5 ++
      sampleLine "response_item".toList ++ ['\n'] ++ sampleLine "event_msg".toList ++ ['\n'])) := by
    decide +kernel
  have hload : loadRolloutItems sampleSerde s.recorder.file =
      .ok ⟨[.sessionMeta ⟨(), none⟩, .recorded false, .recorded false], some "t".toList, 1⟩ := by
    unfold loadRolloutItems
    rw [hfile, Option.bind_some, decode_encode]
    decide +kernel
  refine ⟨run_samplePersist 5, by decide +kernel, rfl, hload, ?_⟩
  rintro ⟨git, loaded, hloaded, hitems⟩
  rw [hload] at hloaded
  have hlength := congrArg List.length hitems
  rw [← Except.ok.inj hloaded] at hlength
  simp [opening, storedItems, s, Session.next, sampleRecorded, sampleSession, sampleRecord,
    samplePersist, items] at hlength

end Supercodex.Rollout
