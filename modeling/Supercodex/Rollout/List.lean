import Supercodex.Library.Text
import Mathlib.Data.Prod.Lex
import Mathlib.Data.List.Sort

/-!
# Thread listing (`rollout/src/list.rs`)

Rollout files are listed page by page, newest first, by creation or by last update, from a tree of
date directories or from one flat directory. The cursor between two pages is a timestamp. A file is
known by its name, which is unique below the root; reading a directory does not fail.
-/

namespace Supercodex.Rollout

/-- A UTC `OffsetDateTime`: the date, and the nanoseconds of the day. -/
@[ext]
structure Timestamp where
  year : ℤ
  month : ℕ
  day : ℕ
  nanos : ℕ
deriving DecidableEq

namespace Timestamp

/-- Timestamps are ordered by date and time. -/
def toKey (t : Timestamp) : ℤ ×ₗ ℕ ×ₗ ℕ ×ₗ ℕ := toLex (t.year, toLex (t.month, toLex (t.day, t.nanos)))

lemma toKey_injective : Function.Injective toKey := by
  intro t t' h
  simp only [toKey, EmbeddingLike.apply_eq_iff_eq, Prod.mk.injEq] at h
  obtain ⟨hyear, hmonth, hday, hnanos⟩ := h
  exact Timestamp.ext hyear hmonth hday hnanos

instance : LinearOrder Timestamp := LinearOrder.lift' toKey toKey_injective

/-- `OffsetDateTime::UNIX_EPOCH`. -/
def unixEpoch : Timestamp := ⟨1970, 1, 1, 0⟩

end Timestamp

/-- The crates and the file system that the listing relies on. -/
structure ListCrates where
  /-- `Uuid::parse_str`. -/
  parseUuid : Text → Option ℕ
  /-- `PrimitiveDateTime::parse` for the dates in file names. -/
  parseDateTime : Text → Option Timestamp
  /-- `OffsetDateTime::format` with `Rfc3339`. -/
  formatRfc3339 : Timestamp → Option Text
  /-- `OffsetDateTime::parse` with `Rfc3339`. -/
  parseRfc3339 : Text → Option Timestamp
  /-- `normalize_for_path_comparison`. -/
  normalizeForPathComparison : Text → Option Text

/-- `HeadTailSummary`: what `read_head_summary` finds in the head of a file. The other fields that only
pass into the item are one text. -/
structure HeadTailSummary (Source : Type) where
  sawSessionMeta : Bool
  sawUserEvent : Bool
  source : Option Source
  modelProvider : Option Text
  cwd : Option Text
  createdAt : Option Text
  rest : Text

/-- A file: its name, its modification time in milliseconds (`file_modified_time`), and its head. -/
structure RolloutFile (Source : Type) where
  name : Text
  modified : Option Timestamp
  summary : HeadTailSummary Source

/-- `ThreadItem`. -/
structure ThreadItem (Source : Type) where
  name : Text
  summary : HeadTailSummary Source
  updatedAt : Option Text

/-- `ThreadSortKey`. -/
inductive ThreadSortKey where
  | createdAt
  | updatedAt
deriving DecidableEq

/-- `ThreadListConfig`, without its layout. -/
structure ThreadListConfig (Source : Type) where
  allowedSources : List Source
  modelProviders : Option (List Text)
  cwdFilters : Option (List Text)
  defaultProvider : Text

/-- `ThreadsPage`, whose cursor is its timestamp. -/
structure ThreadsPage (Source : Type) where
  items : List (ThreadItem Source)
  nextCursor : Option Timestamp
  numScannedFiles : ℕ
  reachedScanCap : Bool

/-- `MAX_SCAN_FILES`. -/
def maxScanFiles : ℕ := 10000

variable {Source : Type}

/-! ## File names -/

/-- The last `-` after which a UUID stands, with what stands before it. -/
def splitUuid (crates : ListCrates) (core : Text) : Option (Text × ℕ) :=
  (List.range core.length).reverse.findSome? fun i =>
    if core[i]? = some '-' then (crates.parseUuid (core.drop (i + 1))).map (core.take i, ·) else none

/-- `parse_timestamp_uuid_from_filename`. -/
def parseTimestampUuidFromFilename (crates : ListCrates) (name : Text) : Option (Timestamp × ℕ) := do
  let stripped ← Text.stripPrefix "rollout-".toList name
  let core ← Text.stripSuffix ".jsonl".toList stripped
  let (timestamp, uuid) ← splitUuid crates core
  let ts ← crates.parseDateTime timestamp
  return (ts, uuid)

/-! ## Filters -/

/-- `ProviderMatcher::new` and `ProviderMatcher::matches`. -/
def providerMatches (filters : List Text) (defaultProvider : Text) (sessionProvider : Option Text) :
    Bool :=
  match sessionProvider with
  | some provider => filters.contains provider
  | none => filters.contains defaultProvider

/-- `paths_match_after_normalization`. -/
def pathsMatchAfterNormalization (crates : ListCrates) (left right : Text) : Bool :=
  match crates.normalizeForPathComparison left, crates.normalizeForPathComparison right with
  | some left, some right => left == right
  | _, _ => left == right

/-- The filters of `build_thread_item`. A list of providers that is empty filters nothing. -/
def passesFilters [DecidableEq Source] (crates : ListCrates) (config : ThreadListConfig Source)
    (summary : HeadTailSummary Source) : Bool :=
  (config.allowedSources.isEmpty || summary.source.any config.allowedSources.contains) &&
  (config.modelProviders.all fun filters =>
    filters.isEmpty || providerMatches filters config.defaultProvider summary.modelProvider) &&
  (config.cwdFilters.all fun filters =>
    summary.cwd.any fun cwd => filters.any (pathsMatchAfterNormalization crates cwd)) &&
  summary.sawSessionMeta && summary.sawUserEvent

/-- `build_thread_item`. -/
def buildThreadItem [DecidableEq Source] (crates : ListCrates) (config : ThreadListConfig Source)
    (file : RolloutFile Source) : Option (ThreadItem Source) :=
  let updatedAt := file.modified.bind crates.formatRfc3339
  if passesFilters crates config file.summary then
    some ⟨file.name, file.summary, updatedAt.or file.summary.createdAt⟩
  else none

/-! ## Cursors -/

/-- `AnchorState`. -/
structure AnchorState where
  ts : Timestamp
  passed : Bool

/-- `AnchorState::new`. -/
def AnchorState.new : Option Timestamp → AnchorState
  | some ts => ⟨ts, false⟩
  | none => ⟨.unixEpoch, true⟩

/-- `AnchorState::should_skip`, which reads no id. -/
def AnchorState.shouldSkip (anchor : AnchorState) (ts : Timestamp) : Bool × AnchorState :=
  if anchor.passed then (false, anchor)
  else if ts < anchor.ts then (false, { anchor with passed := true })
  else (true, anchor)

/-- `build_next_cursor`. -/
def buildNextCursor (crates : ListCrates) (items : List (ThreadItem Source)) (key : ThreadSortKey) :
    Option Timestamp := do
  let last ← items.getLast?
  let (created, _) ← parseTimestampUuidFromFilename crates last.name
  match key with
  | .createdAt => some created
  | .updatedAt => last.updatedAt.bind crates.parseRfc3339

/-! ## Collected files -/

/-- A file with the timestamp it is listed by, and the id in its name. -/
structure Candidate (Source : Type) where
  ts : Timestamp
  id : ℕ
  file : RolloutFile Source

/-- The pair that candidates are sorted by. -/
def Candidate.key (candidate : Candidate Source) : Timestamp ×ₗ ℕ := toLex (candidate.ts, candidate.id)

/-- `sort_by_key` with `Reverse` keys. -/
def sortDesc {α κ : Type} [LinearOrder κ] (key : α → κ) (l : List α) : List α :=
  l.mergeSort fun a b => decide (key b ≤ key a)

/-- The candidate by creation that a file name stands for, if it is one of a rollout. -/
def createdCandidate (crates : ListCrates) (file : RolloutFile Source) : Option (Candidate Source) :=
  (parseTimestampUuidFromFilename crates file.name).map fun (ts, id) => ⟨ts, id, file⟩

/-- The candidate by last update. -/
def Candidate.byUpdate (candidate : Candidate Source) : Candidate Source :=
  { candidate with ts := candidate.file.modified.getD .unixEpoch }

/-- `collect_rollout_day_files`. -/
def collectRolloutDayFiles (crates : ListCrates) (files : List (RolloutFile Source)) :
    List (Candidate Source) :=
  sortDesc Candidate.key (files.filterMap (createdCandidate crates))

/-- `collect_flat_rollout_files` and `collect_flat_files_by_updated_at`, before sorting: no more files
than the cap, and their number. -/
def collectFlatFiles (crates : ListCrates) (files : List (RolloutFile Source)) :
    List (Candidate Source) × ℕ :=
  let collected := (files.filterMap (createdCandidate crates)).take maxScanFiles
  (collected, collected.length)

/-! ## Directories -/

/-- A directory with the number that its name stands for. -/
structure NumberedDir (α : Type) where
  number : ℕ
  entries : List α

/-- `collect_dirs_desc`. -/
def collectDirsDesc {α : Type} (dirs : List (NumberedDir α)) : List (NumberedDir α) :=
  sortDesc NumberedDir.number dirs

/-- The root of the rollout files, with what it holds in the order of `read_dir`. -/
inductive Root (Source : Type) where
  | missing
  | nestedByDate (years : List (NumberedDir (NumberedDir (NumberedDir (RolloutFile Source)))))
  | flat (files : List (RolloutFile Source))

/-- Is this a file of the day whose directory it lies in? -/
def OfDate (crates : ListCrates) (year month day : ℕ) (file : RolloutFile Source) : Prop :=
  ∀ ts id, parseTimestampUuidFromFilename crates file.name = some (ts, id) →
    ts.year = year ∧ ts.month = month ∧ ts.day = day

/-- No two entries of a directory have the same name, and in the tree that the recorder writes a file
lies in the directory of its date. -/
def Root.WellFormed (crates : ListCrates) : Root Source → Prop
  | .missing => True
  | .nestedByDate years =>
    (years.map NumberedDir.number).Nodup ∧ ∀ year ∈ years,
      (year.entries.map NumberedDir.number).Nodup ∧ ∀ month ∈ year.entries,
        (month.entries.map NumberedDir.number).Nodup ∧ ∀ day ∈ month.entries,
          (day.entries.map RolloutFile.name).Nodup ∧
            ∀ file ∈ day.entries, OfDate crates year.number month.number day.number file
  | .flat files => (files.map RolloutFile.name).Nodup

/-- A root as the recorder leaves it. -/
structure RolloutRoot (crates : ListCrates) (Source : Type) where
  root : Root Source
  wellFormed : root.WellFormed crates

section

variable {σ : Type}

/-- The files of a day in `walk_rollout_files`, with the number of files scanned. The visitor says
whether to break. -/
def walkFiles (visit : σ → Candidate Source → ℕ → σ × Bool) :
    List (Candidate Source) → ℕ × σ → (ℕ × σ) × Bool
  | [], state => (state, false)
  | candidate :: candidates, (scanned, visitor) =>
    let scanned := scanned + 1
    if maxScanFiles < scanned then ((scanned, visitor), true)
    else
      match visit visitor candidate scanned with
      | (visitor, true) => ((scanned, visitor), true)
      | (visitor, false) => walkFiles visit candidates (scanned, visitor)

/-- One level of directories in `walk_rollout_files`, newest first. -/
def walkDirs {α : Type} (walk : α → ℕ × σ → (ℕ × σ) × Bool) : List α → ℕ × σ → (ℕ × σ) × Bool
  | [], state => (state, false)
  | dir :: dirs, state =>
    if maxScanFiles ≤ state.1 then (state, true)
    else
      match walk dir state with
      | (state, true) => (state, true)
      | (state, false) => walkDirs walk dirs state

/-- `walk_rollout_files`. -/
def walkRolloutFiles (crates : ListCrates) (visit : σ → Candidate Source → ℕ → σ × Bool)
    (years : List (NumberedDir (NumberedDir (NumberedDir (RolloutFile Source))))) (visitor : σ) : ℕ × σ :=
  let walkDay := fun day : NumberedDir (RolloutFile Source) =>
    walkFiles visit (collectRolloutDayFiles crates day.entries)
  let walkMonth := fun month : NumberedDir (NumberedDir (RolloutFile Source)) =>
    walkDirs walkDay (collectDirsDesc month.entries)
  let walkYear := fun year : NumberedDir (NumberedDir (NumberedDir (RolloutFile Source))) =>
    walkDirs walkMonth (collectDirsDesc year.entries)
  (walkDirs walkYear (collectDirsDesc years) (0, visitor)).1

end

/-! ## Traversals -/

/-- `FilesByCreatedAtVisitor`. -/
structure FilesByCreatedAtVisitor (Source : Type) where
  items : List (ThreadItem Source)
  anchorState : AnchorState
  moreMatchesAvailable : Bool

/-- `FilesByUpdatedAtVisitor::visit`. -/
def visitByUpdatedAt (candidates : List (Candidate Source)) (candidate : Candidate Source) (_ : ℕ) :
    List (Candidate Source) × Bool :=
  (candidates ++ [candidate.byUpdate], false)

/-- The page that a traversal ends with. -/
def finishPage (crates : ListCrates) (key : ThreadSortKey) (items : List (ThreadItem Source)) (more : Bool)
    (scanned : ℕ) : ThreadsPage Source :=
  let reachedScanCap := decide (maxScanFiles ≤ scanned)
  let more := more || (reachedScanCap && !items.isEmpty)
  ⟨items, if more then buildNextCursor crates items key else none, scanned, reachedScanCap⟩

section

variable [DecidableEq Source] (crates : ListCrates) (config : ThreadListConfig Source) (pageSize : ℕ)

/-- `FilesByCreatedAtVisitor::visit`. -/
def FilesByCreatedAtVisitor.visit (visitor : FilesByCreatedAtVisitor Source)
    (candidate : Candidate Source) (scanned : ℕ) : FilesByCreatedAtVisitor Source × Bool :=
  if maxScanFiles ≤ scanned ∧ pageSize ≤ visitor.items.length then
    ({ visitor with moreMatchesAvailable := true }, true)
  else
    match visitor.anchorState.shouldSkip candidate.ts with
    | (true, anchorState) => ({ visitor with anchorState := anchorState }, false)
    | (false, anchorState) =>
      if visitor.items.length = pageSize then
        ({ visitor with anchorState := anchorState, moreMatchesAvailable := true }, true)
      else
        let items := visitor.items ++ (buildThreadItem crates config candidate.file).toList
        ({ visitor with anchorState := anchorState, items := items }, false)

/-- The loop over sorted candidates of the other three traversals: the items, and whether more files
are available. -/
def collectItems : List (Candidate Source) → AnchorState → List (ThreadItem Source) →
    List (ThreadItem Source) × Bool
  | [], _, items => (items, false)
  | candidate :: candidates, anchorState, items =>
    match anchorState.shouldSkip candidate.ts with
    | (true, anchorState) => collectItems candidates anchorState items
    | (false, anchorState) =>
      if items.length = pageSize then (items, true)
      else
        let items := items ++ (buildThreadItem crates config candidate.file).toList
        collectItems candidates anchorState items

/-- `traverse_directories_for_paths_created`. -/
def traverseDirectoriesForPathsCreated
    (years : List (NumberedDir (NumberedDir (NumberedDir (RolloutFile Source)))))
    (anchor : Option Timestamp) : ThreadsPage Source :=
  let (scanned, visitor) := walkRolloutFiles crates (FilesByCreatedAtVisitor.visit crates config pageSize)
    years ⟨[], .new anchor, false⟩
  finishPage crates .createdAt visitor.items visitor.moreMatchesAvailable scanned

/-- `traverse_directories_for_paths_updated`. -/
def traverseDirectoriesForPathsUpdated
    (years : List (NumberedDir (NumberedDir (NumberedDir (RolloutFile Source)))))
    (anchor : Option Timestamp) : ThreadsPage Source :=
  let (scanned, candidates) := walkRolloutFiles crates visitByUpdatedAt years []
  let (items, more) := collectItems crates config pageSize (sortDesc Candidate.key candidates)
    (.new anchor) []
  finishPage crates .updatedAt items more scanned

/-- `traverse_flat_paths_created`. -/
def traverseFlatPathsCreated (files : List (RolloutFile Source)) (anchor : Option Timestamp) :
    ThreadsPage Source :=
  let (candidates, scanned) := collectFlatFiles crates files
  let (items, more) := collectItems crates config pageSize (sortDesc Candidate.key candidates)
    (.new anchor) []
  finishPage crates .createdAt items more scanned

/-- `traverse_flat_paths_updated`. -/
def traverseFlatPathsUpdated (files : List (RolloutFile Source)) (anchor : Option Timestamp) :
    ThreadsPage Source :=
  let (candidates, scanned) := collectFlatFiles crates files
  let (items, more) := collectItems crates config pageSize
    (sortDesc Candidate.key (candidates.map Candidate.byUpdate)) (.new anchor) []
  finishPage crates .updatedAt items more scanned

/-- `get_threads_in_root`. -/
def getThreadsInRoot (root : Root Source) (key : ThreadSortKey) (cursor : Option Timestamp) :
    ThreadsPage Source :=
  match root, key with
  | .missing, _ => ⟨[], none, 0, false⟩
  | .nestedByDate years, .createdAt =>
    traverseDirectoriesForPathsCreated crates config pageSize years cursor
  | .nestedByDate years, .updatedAt =>
    traverseDirectoriesForPathsUpdated crates config pageSize years cursor
  | .flat files, .createdAt => traverseFlatPathsCreated crates config pageSize files cursor
  | .flat files, .updatedAt => traverseFlatPathsUpdated crates config pageSize files cursor

end

end Supercodex.Rollout
