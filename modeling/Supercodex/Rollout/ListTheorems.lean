import Supercodex.Rollout.List
import Supercodex.Library.Pagination
import Mathlib.Data.List.Perm.Basic

/-!
# Following the pages of the thread listing

Every traversal reads the pages of one sorted list of files (`Pagination`), where the next page starts
at the first file whose timestamp is earlier than the one of the last item. Files that share the
timestamp of the last item are passed over, so the pages hold all threads exactly when no page ends
between two of them.
-/

namespace Supercodex.Rollout

open Pagination Candidate Root NumberedDir

variable {Source : Type} [DecidableEq Source] {crates : ListCrates} {config : ThreadListConfig Source}
  {pageSize : ℕ}

/-- Does the listing hold the file of a candidate? -/
def wanted (crates : ListCrates) (config : ThreadListConfig Source) (candidate : Candidate Source) :
    Bool :=
  passesFilters crates config candidate.file.summary

/-- The timestamp that a file gives as a cursor. A file without a modification time that can be
formatted gives the time in its head. -/
def cursorTimestamp (crates : ListCrates) (key : ThreadSortKey) (candidate : Candidate Source) :
    Option Timestamp :=
  match key with
  | .createdAt => (parseTimestampUuidFromFilename crates candidate.file.name).map Prod.fst
  | .updatedAt =>
    (parseTimestampUuidFromFilename crates candidate.file.name).bind fun _ =>
      ((candidate.file.modified.bind crates.formatRfc3339).or
        candidate.file.summary.createdAt).bind crates.parseRfc3339

/-- The item that a file is listed as. -/
def threadItem (crates : ListCrates) (candidate : Candidate Source) : ThreadItem Source where
  name := candidate.file.name
  summary := candidate.file.summary
  updatedAt := (candidate.file.modified.bind crates.formatRfc3339).or candidate.file.summary.createdAt

lemma buildThreadItem_of_wanted {candidate : Candidate Source}
    (h : wanted crates config candidate = true) :
    buildThreadItem crates config candidate.file = some (threadItem crates candidate) :=
  if_pos h

lemma buildThreadItem_of_not_wanted {candidate : Candidate Source}
    (h : ¬wanted crates config candidate = true) :
    buildThreadItem crates config candidate.file = none :=
  if_neg h

/-! ## The loop over candidates -/

/-- Behind the anchor, `collectItems` is the abstract scan. -/
lemma collectItems_passed (candidates : List (Candidate Source)) {anchor : AnchorState}
    (hpassed : anchor.passed = true) (items : List (ThreadItem Source))
    (hitems : items.length ≤ pageSize) :
    collectItems crates config pageSize candidates anchor items =
      (items ++ (scan (wanted crates config) (pageSize - items.length) candidates).1.map (threadItem crates),
        (scan (wanted crates config) (pageSize - items.length) candidates).2) := by
  induction candidates generalizing items with
  | nil => simp [collectItems, scan]
  | cons c candidates ih =>
    have hskip : anchor.shouldSkip c.ts = (false, anchor) := by
      simp [AnchorState.shouldSkip, hpassed]
    simp only [collectItems, hskip]
    by_cases hfull : items.length = pageSize
    · simp [hfull, scan]
    obtain ⟨room, hroom⟩ := Nat.exists_eq_add_of_lt (Nat.lt_of_le_of_ne hitems hfull)
    have hleft : pageSize - items.length = room + 1 := by omega
    rw [if_neg hfull, hleft, scan]
    by_cases hw : wanted crates config c = true
    · rw [buildThreadItem_of_wanted hw, if_pos hw, Option.toList_some, ih _ (by simp; omega)]
      have hroom' : pageSize - (items ++ [threadItem crates c]).length = room := by
        rw [List.length_append, List.length_singleton]
        omega
      rw [hroom']
      simp
    · rw [buildThreadItem_of_not_wanted hw, if_neg hw, Option.toList_none, List.append_nil,
        ih items hitems, hleft]

/-- The loop reads the page of its anchor. -/
lemma collectItems_new (candidates : List (Candidate Source)) (anchor : Option Timestamp) :
    collectItems crates config pageSize candidates (.new anchor) [] =
      ((scan (wanted crates config) pageSize (after ts candidates anchor)).1.map
        (threadItem crates),
        (scan (wanted crates config) pageSize (after ts candidates anchor)).2) := by
  cases anchor with
  | none =>
    rw [collectItems_passed candidates rfl [] (Nat.zero_le _)]
    rfl
  | some ts =>
    induction candidates with
    | nil => rfl
    | cons c candidates ih =>
      by_cases hc : c.ts < ts
      · have hskip : (AnchorState.new (some ts)).shouldSkip c.ts = (false, ⟨ts, true⟩) := by
          simp [AnchorState.shouldSkip, AnchorState.new, hc]
        have hafter : after Candidate.ts (c :: candidates) (some ts) = c :: candidates := by
          rw [after, List.dropWhile_cons_of_neg]
          simpa using hc
        -- the first file after the anchor is read as if the anchor had been passed before it
        have hpassed := @collectItems_passed _ _ crates config pageSize (c :: candidates) ⟨ts, true⟩ rfl []
          (Nat.zero_le _)
        simp only [collectItems, hskip, hafter] at hpassed ⊢
        exact hpassed
      · have hskip : (AnchorState.new (some ts)).shouldSkip c.ts = (true, .new (some ts)) := by
          simp [AnchorState.shouldSkip, AnchorState.new, hc]
        have hafter : after Candidate.ts (c :: candidates) (some ts) =
            after Candidate.ts candidates (some ts) := by
          rw [after, after, List.dropWhile_cons_of_pos]
          simpa using hc
        rw [collectItems, hskip, hafter]
        exact ih

/-! ## The walk through the date directories -/

omit [DecidableEq Source] in
lemma walkFiles_append {σ : Type} (visit : σ → Candidate Source → ℕ → σ × Bool)
    (l l' : List (Candidate Source)) (state : ℕ × σ) :
    walkFiles visit (l ++ l') state =
      match walkFiles visit l state with
      | (state, true) => (state, true)
      | (state, false) => walkFiles visit l' state := by
  induction l generalizing state with
  | nil => rfl
  | cons c l ih =>
    obtain ⟨scanned, visitor⟩ := state
    simp only [List.cons_append, walkFiles]
    split
    · rfl
    · rcases visit visitor c (scanned + 1) with ⟨visitor', _ | _⟩
      · exact ih _
      · rfl

omit [DecidableEq Source] in
lemma scanned_walkFiles {σ : Type} (visit : σ → Candidate Source → ℕ → σ × Bool)
    (l : List (Candidate Source)) (state : ℕ × σ) (h : (walkFiles visit l state).2 = false) :
    (walkFiles visit l state).1.1 = state.1 + l.length := by
  induction l generalizing state with
  | nil => rfl
  | cons c l ih =>
    obtain ⟨scanned, visitor⟩ := state
    simp only [walkFiles] at h ⊢
    split at h
    · cases h
    rename_i hcap
    rw [if_neg hcap]
    rcases hvisit : visit visitor c (scanned + 1) with ⟨visitor', _ | _⟩
    · simp only [hvisit] at h ⊢
      rw [ih _ h, List.length_cons]
      show scanned + 1 + l.length = scanned + (l.length + 1)
      omega
    · simp [hvisit] at h

omit [DecidableEq Source] in
/-- Below the cap of the scan, nested directories are walked as one list of files. -/
lemma walkDirs_eq {α σ : Type} {visit : σ → Candidate Source → ℕ → σ × Bool}
    {walk : α → ℕ × σ → (ℕ × σ) × Bool} {files : α → List (Candidate Source)}
    (hwalk : ∀ dir state, state.1 + (files dir).length < maxScanFiles →
      walk dir state = walkFiles visit (files dir) state)
    (dirs : List α) (state : ℕ × σ) (hcap : state.1 + (dirs.flatMap files).length < maxScanFiles) :
    walkDirs walk dirs state = walkFiles visit (dirs.flatMap files) state := by
  induction dirs generalizing state with
  | nil => rfl
  | cons dir dirs ih =>
    rw [List.flatMap_cons, List.length_append] at hcap
    rw [walkDirs, if_neg (by omega), hwalk dir state (by omega), List.flatMap_cons, walkFiles_append]
    rcases hfirst : walkFiles visit (files dir) state with ⟨state', _ | _⟩
    · have hscanned : state'.1 = state.1 + (files dir).length := by
        have h := scanned_walkFiles visit (files dir) state (by rw [hfirst])
        rwa [hfirst] at h
      exact ih state' (by omega)
    · rfl

/-- The files below the root in the order of the walk. -/
def walkOrder (crates : ListCrates)
    (years : List (NumberedDir (NumberedDir (NumberedDir (RolloutFile Source))))) :
    List (Candidate Source) :=
  (collectDirsDesc years).flatMap fun year =>
    (collectDirsDesc year.entries).flatMap fun month =>
      (collectDirsDesc month.entries).flatMap fun day => collectRolloutDayFiles crates day.entries

omit [DecidableEq Source] in
lemma walkRolloutFiles_eq {σ : Type} (visit : σ → Candidate Source → ℕ → σ × Bool)
    (years : List (NumberedDir (NumberedDir (NumberedDir (RolloutFile Source))))) (visitor : σ)
    (hcap : (walkOrder crates years).length < maxScanFiles) :
    walkRolloutFiles crates visit years visitor =
      (walkFiles visit (walkOrder crates years) (0, visitor)).1 := by
  rw [walkRolloutFiles, walkOrder]
  congr 1
  refine walkDirs_eq (fun year state hyear => ?_) _ _ (by simpa [walkOrder] using hcap)
  refine walkDirs_eq (fun month state hmonth => ?_) _ _ hyear
  exact walkDirs_eq (fun day state _ => rfl) _ _ hmonth

/-- Below the cap of the scan, the visits collect what `collectItems` does. -/
lemma walkFiles_visit (candidates : List (Candidate Source)) (scanned : ℕ)
    (items : List (ThreadItem Source)) (anchor : AnchorState)
    (hcap : scanned + candidates.length < maxScanFiles) :
    ∃ scanned' anchor' stopped, scanned' < maxScanFiles ∧
      walkFiles (FilesByCreatedAtVisitor.visit crates config pageSize) candidates
        (scanned, ⟨items, anchor, false⟩) =
        ((scanned', ⟨(collectItems crates config pageSize candidates anchor items).1, anchor',
          (collectItems crates config pageSize candidates anchor items).2⟩), stopped) := by
  induction candidates generalizing scanned items anchor with
  | nil => exact ⟨scanned, anchor, false, by simpa using hcap, rfl⟩
  | cons c candidates ih =>
    rw [List.length_cons] at hcap
    simp only [walkFiles, collectItems, FilesByCreatedAtVisitor.visit]
    rw [if_neg (by omega), if_neg (by omega)]
    rcases anchor.shouldSkip c.ts with ⟨_ | _, anchor'⟩
    · by_cases hfull : items.length = pageSize
      · simp only [hfull, if_true]
        exact ⟨scanned + 1, anchor', true, by omega, rfl⟩
      · simp only [hfull, if_false]
        exact ih (scanned + 1) _ anchor' (by omega)
    · exact ih (scanned + 1) items anchor' (by omega)

omit [DecidableEq Source] in
lemma walkFiles_visitByUpdatedAt (candidates found : List (Candidate Source)) (scanned : ℕ)
    (hcap : scanned + candidates.length < maxScanFiles) :
    (walkFiles visitByUpdatedAt candidates (scanned, found)).1 =
      (scanned + candidates.length, found ++ candidates.map byUpdate) := by
  induction candidates generalizing scanned found with
  | nil => simp [walkFiles]
  | cons c candidates ih =>
    rw [List.length_cons] at hcap
    simp only [walkFiles, visitByUpdatedAt]
    rw [if_neg (by omega), ih _ _ (by omega)]
    simp [Nat.add_assoc, Nat.add_comm 1]

/-! ## The order of the listing -/

section

omit [DecidableEq Source]

variable {α κ : Type} [LinearOrder κ]

lemma sortDesc_perm (key : α → κ) (l : List α) : (sortDesc key l).Perm l := List.mergeSort_perm ..

lemma pairwise_sortDesc (key : α → κ) (l : List α) :
    (sortDesc key l).Pairwise fun a b => key b ≤ key a := by
  have htrans : ∀ a b c : α, decide (key b ≤ key a) = true → decide (key c ≤ key b) = true →
      decide (key c ≤ key a) = true := by
    intro a b c hab hbc
    simp only [decide_eq_true_eq] at *
    exact hbc.trans hab
  have htotal : ∀ a b : α, (decide (key b ≤ key a) || decide (key a ≤ key b)) = true := by
    intro a b
    simpa using le_total (key b) (key a)
  exact (List.pairwise_mergeSort htrans htotal l).imp of_decide_eq_true

variable {dirs : List (NumberedDir α)}

lemma pairwise_collectDirsDesc (h : (dirs.map number).Nodup) :
    (collectDirsDesc dirs).Pairwise fun a b => b.number < a.number := by
  have hperm := sortDesc_perm number dirs
  have hnodup : ((collectDirsDesc dirs).map number).Nodup :=
    (hperm.map number).nodup_iff.mpr h
  refine ((pairwise_sortDesc number dirs).and (List.pairwise_map.mp hnodup)).imp ?_
  rintro a b ⟨hle, hne⟩
  exact lt_of_le_of_ne hle (Ne.symm hne)

lemma mem_collectDirsDesc {dir : NumberedDir α} :
    dir ∈ collectDirsDesc dirs ↔ dir ∈ dirs :=
  (sortDesc_perm number dirs).mem_iff

variable {t t' : Timestamp}

lemma lt_of_year_lt (h : t.year < t'.year) : t < t' := by
  show t.toKey < t'.toKey
  exact Prod.Lex.toLex_lt_toLex.mpr (.inl h)

lemma lt_of_month_lt (hyear : t.year = t'.year) (h : t.month < t'.month) : t < t' := by
  show t.toKey < t'.toKey
  exact Prod.Lex.toLex_lt_toLex.mpr (.inr ⟨hyear, Prod.Lex.toLex_lt_toLex.mpr (.inl h)⟩)

lemma lt_of_day_lt (hyear : t.year = t'.year) (hmonth : t.month = t'.month)
    (h : t.day < t'.day) : t < t' := by
  show t.toKey < t'.toKey
  exact Prod.Lex.toLex_lt_toLex.mpr (.inr ⟨hyear, Prod.Lex.toLex_lt_toLex.mpr
    (.inr ⟨hmonth, Prod.Lex.toLex_lt_toLex.mpr (.inl h)⟩)⟩)

lemma key_le_of_ts_lt {c c' : Candidate Source} (h : c.ts < c'.ts) : c.key ≤ c'.key :=
  Prod.Lex.toLex_le_toLex.mpr (.inl h)

lemma ts_le_of_key_le {c c' : Candidate Source} (h : c.key ≤ c'.key) : c.ts ≤ c'.ts := by
  rcases Prod.Lex.toLex_le_toLex.mp h with hlt | ⟨heq, -⟩
  · exact hlt.le
  · exact heq.le

/-- The timestamp and the id of a candidate are those in the name of its file. -/
def Candidate.Parsed (crates : ListCrates) (c : Candidate Source) : Prop :=
  parseTimestampUuidFromFilename crates c.file.name = some (c.ts, c.id)

variable {files : List (RolloutFile Source)}

lemma mem_filterMap_created {c : Candidate Source} :
    c ∈ files.filterMap (createdCandidate crates) ↔ c.file ∈ files ∧ c.Parsed crates := by
  rw [List.mem_filterMap, Candidate.Parsed]
  constructor
  · rintro ⟨file, hfile, hc⟩
    simp only [createdCandidate, Option.map_eq_some_iff] at hc
    obtain ⟨⟨ts, id⟩, hparse, rfl⟩ := hc
    exact ⟨hfile, hparse⟩
  · rintro ⟨hfile, hparse⟩
    exact ⟨c.file, hfile, by simp [createdCandidate, hparse]⟩

lemma mem_collectRolloutDayFiles {c : Candidate Source} :
    c ∈ collectRolloutDayFiles crates files ↔ c.file ∈ files ∧ c.Parsed crates := by
  rw [collectRolloutDayFiles, (sortDesc_perm _ _).mem_iff, mem_filterMap_created]

lemma pairwise_flatMap_dirs {files : NumberedDir α → List (Candidate Source)}
    {R : Candidate Source → Candidate Source → Prop}
    (hnodup : (dirs.map number).Nodup) (heach : ∀ dir ∈ dirs, (files dir).Pairwise R)
    (hlater : ∀ dir ∈ dirs, ∀ dir' ∈ dirs, dir'.number < dir.number →
      ∀ c ∈ files dir, ∀ c' ∈ files dir', R c c') :
    ((collectDirsDesc dirs).flatMap files).Pairwise R := by
  rw [List.pairwise_flatMap]
  refine ⟨fun dir hdir => heach dir (mem_collectDirsDesc.mp hdir), ?_⟩
  refine (pairwise_collectDirsDesc hnodup).imp_of_mem ?_
  intro dir dir' hdir hdir' hlt c hc c' hc'
  exact hlater dir (mem_collectDirsDesc.mp hdir) dir' (mem_collectDirsDesc.mp hdir') hlt c hc c' hc'

section

variable {years : List (NumberedDir (NumberedDir (NumberedDir (RolloutFile Source))))}
  {R : Candidate Source → Candidate Source → Prop}

/-- What holds of the files of a day, and of two files of which the first is later, holds along the
walk. -/
lemma pairwise_walkOrder (h : (nestedByDate years).WellFormed crates)
    (hsame : ∀ files : List (RolloutFile Source), (files.map RolloutFile.name).Nodup →
      (collectRolloutDayFiles crates files).Pairwise R)
    (hlater : ∀ c c', c.Parsed crates → c'.Parsed crates → c'.ts < c.ts → R c c') :
    (walkOrder crates years).Pairwise R := by
  obtain ⟨hyears, h⟩ := h
  have hdate : ∀ year ∈ years, ∀ month ∈ year.entries, ∀ day ∈ month.entries,
      ∀ c ∈ collectRolloutDayFiles crates day.entries, c.Parsed crates ∧
        c.ts.year = year.number ∧ c.ts.month = month.number ∧ c.ts.day = day.number := by
    intro year hyear month hmonth day hday c hc
    obtain ⟨hfile, hparse⟩ := mem_collectRolloutDayFiles.mp hc
    exact ⟨hparse, (((h year hyear).2 month hmonth).2 day hday).2 c.file hfile c.ts c.id hparse⟩
  refine pairwise_flatMap_dirs hyears ?_ ?_
  · intro year hyear
    obtain ⟨hmonths, hyear'⟩ := h year hyear
    refine pairwise_flatMap_dirs hmonths ?_ ?_
    · intro month hmonth
      obtain ⟨hdays, hmonth'⟩ := hyear' month hmonth
      refine pairwise_flatMap_dirs hdays (fun day hday => hsame _ (hmonth' day hday).1) ?_
      intro day hday day' hday' hlt c hc c' hc'
      obtain ⟨hparsed, hy, hm, hd⟩ := hdate year hyear month hmonth day hday c hc
      obtain ⟨hparsed', hy', hm', hd'⟩ := hdate year hyear month hmonth day' hday' c' hc'
      apply hlater c c' hparsed hparsed'
      exact lt_of_day_lt (hy'.trans hy.symm) (hm'.trans hm.symm) (by omega)
    · intro month hmonth month' hmonth' hlt c hc c' hc'
      simp only [List.mem_flatMap, mem_collectDirsDesc] at hc hc'
      obtain ⟨day, hday, hc⟩ := hc
      obtain ⟨day', hday', hc'⟩ := hc'
      obtain ⟨hparsed, hy, hm, -⟩ := hdate year hyear month hmonth day hday c hc
      obtain ⟨hparsed', hy', hm', -⟩ := hdate year hyear month' hmonth' day' hday' c' hc'
      apply hlater c c' hparsed hparsed'
      exact lt_of_month_lt (hy'.trans hy.symm) (by omega)
  · intro year hyear year' hyear' hlt c hc c' hc'
    simp only [List.mem_flatMap, mem_collectDirsDesc] at hc hc'
    obtain ⟨month, hmonth, day, hday, hc⟩ := hc
    obtain ⟨month', hmonth', day', hday', hc'⟩ := hc'
    obtain ⟨hparsed, hy, -⟩ := hdate year hyear month hmonth day hday c hc
    obtain ⟨hparsed', hy', -⟩ := hdate year' hyear' month' hmonth' day' hday' c' hc'
    apply hlater c c' hparsed hparsed'
    exact lt_of_year_lt (by omega)

end

lemma pairwise_name_created (h : (files.map RolloutFile.name).Nodup) :
    (files.filterMap (createdCandidate crates)).Pairwise fun c c' => c.file.name ≠ c'.file.name := by
  rw [List.pairwise_filterMap]
  refine (List.pairwise_map.mp h).imp ?_
  intro file file' hne c hc c' hc'
  simp only [createdCandidate, Option.map_eq_some_iff] at hc hc'
  obtain ⟨_, _, rfl⟩ := hc
  obtain ⟨_, _, rfl⟩ := hc'
  exact hne

lemma pairwise_name_perm {l l' : List (Candidate Source)} (h : l.Perm l') :
    (l.Pairwise fun c c' => c.file.name ≠ c'.file.name) ↔
      l'.Pairwise fun c c' => c.file.name ≠ c'.file.name :=
  h.pairwise_iff fun hne => hne.symm

lemma pairwise_name_walkOrder
    {years : List (NumberedDir (NumberedDir (NumberedDir (RolloutFile Source))))}
    (h : (nestedByDate years).WellFormed crates) :
    (walkOrder crates years).Pairwise fun c c' => c.file.name ≠ c'.file.name := by
  refine pairwise_walkOrder h (fun files hfiles => ?_) ?_
  · exact (pairwise_name_perm (sortDesc_perm _ _)).mpr (pairwise_name_created hfiles)
  · intro c c' hc hc' hlt heq
    rw [Candidate.Parsed, heq, hc', Option.some.injEq, Prod.mk.injEq] at hc
    exact hlt.ne hc.1

/-! ## The listing -/

/-- The rollout files below a root, with the timestamps that they are listed by. -/
def Root.candidates (crates : ListCrates) (root : Root Source) (key : ThreadSortKey) :
    List (Candidate Source) :=
  let created := match root with
    | .missing => []
    | .nestedByDate years => years.flatMap fun year => year.entries.flatMap fun month =>
      month.entries.flatMap fun day => day.entries.filterMap (createdCandidate crates)
    | .flat files => files.filterMap (createdCandidate crates)
  match key with
  | .createdAt => created
  | .updatedAt => created.map Candidate.byUpdate

/-- The order that the candidates are read in. -/
def Root.listing (crates : ListCrates) (root : Root Source) (key : ThreadSortKey) :
    List (Candidate Source) :=
  match root, key with
  | .nestedByDate years, .createdAt => walkOrder crates years
  | .nestedByDate years, .updatedAt =>
    sortDesc Candidate.key ((walkOrder crates years).map Candidate.byUpdate)
  | root, key => sortDesc Candidate.key (root.candidates crates key)

lemma flatMap_collectDirsDesc_perm (dirs : List (NumberedDir α))
    {files files' : NumberedDir α → List (Candidate Source)}
    (h : ∀ dir, (files dir).Perm (files' dir)) :
    ((collectDirsDesc dirs).flatMap files).Perm (dirs.flatMap files') :=
  List.Perm.flatMap (sortDesc_perm _ _) fun dir _ => h dir

lemma walkOrder_perm (years : List (NumberedDir (NumberedDir (NumberedDir (RolloutFile Source))))) :
    (walkOrder crates years).Perm ((nestedByDate years).candidates crates .createdAt) :=
  flatMap_collectDirsDesc_perm _ fun _ => flatMap_collectDirsDesc_perm _ fun _ =>
    flatMap_collectDirsDesc_perm _ fun _ => sortDesc_perm _ _

lemma listing_perm (root : Root Source) (key : ThreadSortKey) :
    (root.listing crates key).Perm (root.candidates crates key) := by
  rcases root with _ | years | files
  · exact sortDesc_perm _ _
  · cases key with
    | createdAt => exact walkOrder_perm years
    | updatedAt => exact (sortDesc_perm _ _).trans ((walkOrder_perm years).map _)
  · exact sortDesc_perm _ _

lemma pairwise_key_listing (root : RolloutRoot crates Source) (key : ThreadSortKey) :
    (root.root.listing crates key).Pairwise fun c c' => c'.key ≤ c.key := by
  obtain ⟨root, h⟩ := root
  rcases root with _ | years | files
  · exact pairwise_sortDesc _ _
  · cases key with
    | createdAt =>
      exact pairwise_walkOrder h (fun _ _ => pairwise_sortDesc _ _) fun _ _ _ _ hlt => key_le_of_ts_lt hlt
    | updatedAt => exact pairwise_sortDesc _ _
  · exact pairwise_sortDesc _ _

lemma pairwise_name_byUpdate {l : List (Candidate Source)}
    (h : l.Pairwise fun c c' => c.file.name ≠ c'.file.name) :
    (l.map byUpdate).Pairwise fun c c' => c.file.name ≠ c'.file.name :=
  List.pairwise_map.mpr h

lemma pairwise_name_listing (root : RolloutRoot crates Source) (key : ThreadSortKey) :
    (root.root.listing crates key).Pairwise fun c c' => c.file.name ≠ c'.file.name := by
  obtain ⟨root, h⟩ := root
  rcases root with _ | years | files
  · cases key <;> simp [listing, candidates, sortDesc]
  · have hcreated := pairwise_name_walkOrder h
    cases key with
    | createdAt => exact hcreated
    | updatedAt => exact (pairwise_name_perm (sortDesc_perm _ _)).mpr (pairwise_name_byUpdate hcreated)
  · have hcreated : (files.filterMap (createdCandidate crates)).Pairwise _ := pairwise_name_created h
    cases key with
    | createdAt => exact (pairwise_name_perm (sortDesc_perm _ _)).mpr hcreated
    | updatedAt => exact (pairwise_name_perm (sortDesc_perm _ _)).mpr (pairwise_name_byUpdate hcreated)

end

/-! ## Pages -/

/-- The page of the listing that a cursor leads to. -/
abbrev pageOf (crates : ListCrates) (config : ThreadListConfig Source) (pageSize : ℕ)
    (root : Root Source) (key : ThreadSortKey) (cursor : Option Timestamp) :
    List (Candidate Source) × Option Timestamp :=
  page Candidate.ts (wanted crates config) (cursorTimestamp crates key) pageSize
    (root.listing crates key) cursor

omit [DecidableEq Source] in
lemma buildNextCursor_map (candidates : List (Candidate Source)) (key : ThreadSortKey) :
    buildNextCursor crates (candidates.map (threadItem crates)) key =
      candidates.getLast?.bind (cursorTimestamp crates key) := by
  rw [buildNextCursor, List.getLast?_map]
  rcases candidates.getLast? with _ | c
  · rfl
  cases key with
  | createdAt =>
    simp only [cursorTimestamp, threadItem, Option.map_some, Option.bind_eq_bind, Option.bind_some]
    rcases parseTimestampUuidFromFilename crates c.file.name with _ | ⟨ts, id⟩ <;> rfl
  | updatedAt => rfl

/-- The scan returns a page of the abstract listing. -/
lemma finishPage_scan (candidates : List (Candidate Source)) (key : ThreadSortKey)
    (cursor : Option Timestamp) {scanned : ℕ} (hcap : scanned < maxScanFiles) :
    let found := collectItems crates config pageSize candidates (.new cursor) []
    let pages := page ts (wanted crates config) (cursorTimestamp crates key) pageSize candidates
      cursor
    (finishPage crates key found.1 found.2 scanned).items = pages.1.map (threadItem crates) ∧
      (finishPage crates key found.1 found.2 scanned).nextCursor = pages.2 := by
  rw [collectItems_new]
  have hnot : decide (maxScanFiles ≤ scanned) = false := by simpa using hcap
  simp only [finishPage, page, hnot, Bool.false_and, Bool.or_false, buildNextCursor_map, and_self]

/-- Below the cap, a request reads the page of the listing that its cursor leads to. -/
lemma getThreadsInRoot_eq (root : Root Source) (key : ThreadSortKey) (cursor : Option Timestamp)
    (hcap : (root.candidates crates key).length < maxScanFiles) :
    (getThreadsInRoot crates config pageSize root key cursor).items =
        (pageOf crates config pageSize root key cursor).1.map (threadItem crates) ∧
      (getThreadsInRoot crates config pageSize root key cursor).nextCursor =
        (pageOf crates config pageSize root key cursor).2 := by
  rcases root with _ | years | files
  · cases key <;> cases cursor <;>
      simp [getThreadsInRoot, pageOf, page, after, listing, candidates, sortDesc, scan]
  · have hlength : (walkOrder crates years).length < maxScanFiles := by
      rw [(walkOrder_perm years).length_eq]
      cases key with
      | createdAt => exact hcap
      | updatedAt => simpa [candidates] using hcap
    cases key with
    | createdAt =>
      rw [getThreadsInRoot, traverseDirectoriesForPathsCreated, walkRolloutFiles_eq _ _ _ hlength]
      obtain ⟨scanned, anchor, stopped, hscanned, hwalk⟩ := @walkFiles_visit _ _ crates config pageSize
        (walkOrder crates years) 0 [] (.new cursor) (by omega)
      rw [hwalk]
      exact finishPage_scan (walkOrder crates years) .createdAt cursor hscanned
    | updatedAt =>
      rw [getThreadsInRoot, traverseDirectoriesForPathsUpdated, walkRolloutFiles_eq _ _ _ hlength,
        walkFiles_visitByUpdatedAt _ _ _ (by omega)]
      exact finishPage_scan (sortDesc key ((walkOrder crates years).map byUpdate))
        .updatedAt cursor (by omega)
  · have hlength : (files.filterMap (createdCandidate crates)).length < maxScanFiles := by
      cases key with
      | createdAt => exact hcap
      | updatedAt => simpa [candidates] using hcap
    have hflat : collectFlatFiles crates files = (files.filterMap (createdCandidate crates),
        (files.filterMap (createdCandidate crates)).length) := by
      rw [collectFlatFiles, List.take_of_length_le hlength.le]
    cases key with
    | createdAt =>
      rw [getThreadsInRoot, traverseFlatPathsCreated, hflat]
      exact finishPage_scan _ .createdAt cursor hlength
    | updatedAt =>
      rw [getThreadsInRoot, traverseFlatPathsUpdated, hflat]
      exact finishPage_scan _ .updatedAt cursor hlength

/-- What the pages hold together that a client gets from a cursor on until there is no next cursor. -/
inductive ListsAll (crates : ListCrates) (config : ThreadListConfig Source) (pageSize : ℕ)
    (root : Root Source) (key : ThreadSortKey) : Option Timestamp → List (ThreadItem Source) → Prop where
  | last {cursor : Option Timestamp}
    (h : (getThreadsInRoot crates config pageSize root key cursor).nextCursor = none) :
    ListsAll crates config pageSize root key cursor
      (getThreadsInRoot crates config pageSize root key cursor).items
  | next {cursor : Option Timestamp} {ts : Timestamp} {rest : List (ThreadItem Source)}
    (h : (getThreadsInRoot crates config pageSize root key cursor).nextCursor = some ts)
    (hrest : ListsAll crates config pageSize root key (some ts) rest) :
    ListsAll crates config pageSize root key cursor
      ((getThreadsInRoot crates config pageSize root key cursor).items ++ rest)

section

variable {root : Root Source} {key : ThreadSortKey} {cursor : Option Timestamp}

lemma listsAll_iff_follows (hcap : (root.candidates crates key).length < maxScanFiles)
    {items : List (ThreadItem Source)} : ListsAll crates config pageSize root key cursor items ↔
      ∃ all, items = all.map (threadItem crates) ∧
        Follows ts (wanted crates config) (cursorTimestamp crates key) pageSize
          (root.listing crates key) cursor all := by
  constructor
  · intro h
    induction h with
    | @last cursor h =>
      obtain ⟨hitems, hnext⟩ := getThreadsInRoot_eq root key cursor hcap
      exact ⟨_, hitems, .last (hnext.symm.trans h)⟩
    | @next cursor ts rest h _ ih =>
      obtain ⟨hitems, hnext⟩ := getThreadsInRoot_eq root key cursor hcap
      obtain ⟨all, hall, hfollows⟩ := ih
      refine ⟨_, ?_, .next (hnext.symm.trans h) hfollows⟩
      rw [hitems, hall, List.map_append]
  · rintro ⟨all, rfl, hfollows⟩
    induction hfollows with
    | @last cursor h =>
      obtain ⟨hitems, hnext⟩ := getThreadsInRoot_eq root key cursor hcap
      rw [← hitems]
      exact .last (hnext.trans h)
    | @next cursor ts rest h _ ih =>
      obtain ⟨hitems, hnext⟩ := getThreadsInRoot_eq root key cursor hcap
      rw [List.map_append, ← hitems]
      exact .next (hnext.trans h) ih

lemma follows_subset {all : List (Candidate Source)}
    (h : Follows ts (wanted crates config) (cursorTimestamp crates key) pageSize
      (root.listing crates key) cursor all) : all ⊆ root.listing crates key := by
  have hpage : ∀ cursor, (pageOf crates config pageSize root key cursor).1 ⊆ root.listing crates key := by
    intro cursor c hc
    rw [pageOf, page_fst] at hc
    exact (after_suffix cursor).subset (List.mem_of_mem_filter (List.mem_of_mem_take hc))
  induction h with
  | @last cursor h => exact hpage cursor
  | @next cursor c rest h hrest ih => exact List.append_subset.mpr ⟨hpage cursor, ih⟩

end

omit [DecidableEq Source] in
lemma eq_of_map_threadItem_eq {listing l l' : List (Candidate Source)}
    (hnames : listing.Pairwise fun c c' => c.file.name ≠ c'.file.name) (hl : l ⊆ listing)
    (hl' : l' ⊆ listing) (h : l.map (threadItem crates) = l'.map (threadItem crates)) : l = l' := by
  have hinj : ∀ c ∈ listing, ∀ c' ∈ listing, c.file.name = c'.file.name → c = c' := by
    have hnodup : (listing.map fun c => c.file.name).Nodup := List.pairwise_map.mpr hnames
    intro c hc c' hc' heq
    exact List.inj_on_of_nodup_map hnodup hc hc' heq
  induction l generalizing l' with
  | nil =>
    rw [List.map_nil] at h
    exact (List.map_eq_nil_iff.mp h.symm).symm
  | cons c l ih =>
    obtain ⟨c', l', rfl, hc, hrest⟩ := List.map_eq_cons_iff.mp h.symm
    rw [List.cons_subset] at hl hl'
    have heq : c' = c := hinj c' hl'.1 c hl.1 (congrArg ThreadItem.name hc)
    rw [heq, ih hl.2 hl'.2 hrest.symm]

/-- The threads that a listing is asked for, newest first. -/
def matchingThreads (crates : ListCrates) (config : ThreadListConfig Source) (root : Root Source)
    (key : ThreadSortKey) : List (Candidate Source) :=
  (root.listing crates key).filter (wanted crates config)

/-- No page ends where the next one cannot start: the last thread of every full page gives a cursor
that is not later than its own timestamp, and later than that of the thread after it. -/
def EndsApart (crates : ListCrates) (config : ThreadListConfig Source) (pageSize : ℕ)
    (root : Root Source) (key : ThreadSortKey) : Prop :=
  ∀ k, 0 < k → Resumes Candidate.ts (wanted crates config) (cursorTimestamp crates key)
    (root.listing crates key) (k * pageSize)

lemma listsAll_iff_endsApart (root : RolloutRoot crates Source) (key : ThreadSortKey)
    (hsize : 0 < pageSize) (hcap : (root.root.candidates crates key).length < maxScanFiles) :
    ListsAll crates config pageSize root.root key none
      ((matchingThreads crates config root.root key).map (threadItem crates)) ↔
      EndsApart crates config pageSize root.root key := by
  have hnames := pairwise_name_listing root key
  have hnodup : (root.root.listing crates key).Nodup := by
    refine hnames.imp ?_
    rintro c c' hne rfl
    exact hne rfl
  have hsorted : (root.root.listing crates key).Pairwise fun c c' => c'.ts ≤ c.ts :=
    (pairwise_key_listing root key).imp ts_le_of_key_le
  rw [EndsApart, ← follows_iff hsize hsorted hnodup, listsAll_iff_follows hcap]
  constructor
  · rintro ⟨all, hall, hfollows⟩
    have hsub : matchingThreads crates config root.root key ⊆ root.root.listing crates key :=
      List.filter_subset_self _
    have heq := eq_of_map_threadItem_eq hnames hsub (follows_subset hfollows) hall
    rw [matchingThreads] at heq
    rwa [heq]
  · intro h
    exact ⟨_, rfl, h⟩

omit [DecidableEq Source] in
lemma parsed_of_mem_listing {root : Root Source} {c : Candidate Source}
    (h : c ∈ root.listing crates .createdAt) : c.Parsed crates := by
  rw [(listing_perm root .createdAt).mem_iff] at h
  rcases root with _ | years | files
  · cases h
  · simp only [candidates, List.mem_flatMap] at h
    obtain ⟨_, -, _, -, _, -, hc⟩ := h
    exact (mem_filterMap_created.mp hc).2
  · exact (mem_filterMap_created.mp h).2

lemma endsApart_createdAt_iff {root : Root Source} :
    EndsApart crates config pageSize root .createdAt ↔ ∀ k c c', 0 < k →
      (matchingThreads crates config root .createdAt)[k * pageSize - 1]? = some c →
      (matchingThreads crates config root .createdAt)[k * pageSize]? = some c' → c'.ts < c.ts := by
  have hcursor : ∀ {c} {i : ℕ}, (matchingThreads crates config root .createdAt)[i]? = some c →
      cursorTimestamp crates .createdAt c = some c.ts := by
    intro c i hc
    have hparsed := parsed_of_mem_listing (List.mem_of_mem_filter (List.mem_of_getElem? hc))
    rw [cursorTimestamp, hparsed, Option.map_some]
  constructor
  · intro h k c c' hk hc hc'
    obtain ⟨ts, hts, hlt, hle⟩ := (h k hk).1 c c' hc hc'
    exact hlt.trans_le hle
  · intro h k hk
    refine ⟨fun c c' hc hc' => ⟨c.ts, hcursor hc, h k c c' hk hc hc', le_rfl⟩, ?_⟩
    intro c ts hc _ _ hts
    rw [hcursor hc] at hts
    cases hts
    exact le_rfl

lemma endsApart_of_ts_ne (root : RolloutRoot crates Source) (hsize : 0 < pageSize)
    (h : (root.root.candidates crates .createdAt).Pairwise fun c c' => c.ts ≠ c'.ts) :
    EndsApart crates config pageSize root.root .createdAt := by
  have hne : (root.root.listing crates .createdAt).Pairwise fun c c' => c.ts ≠ c'.ts :=
    ((listing_perm root.root .createdAt).pairwise_iff fun hne => hne.symm).mpr h
  have hlt : (matchingThreads crates config root.root .createdAt).Pairwise fun c c' => c'.ts < c.ts := by
    refine List.Pairwise.filter _ (((pairwise_key_listing root .createdAt).and hne).imp ?_)
    rintro c c' ⟨hle, hne⟩
    exact lt_of_le_of_ne (ts_le_of_key_le hle) hne.symm
  rw [endsApart_createdAt_iff]
  intro k c c' hk hc hc'
  have hpos : 0 < k * pageSize := Nat.mul_pos hk hsize
  obtain ⟨_, rfl⟩ := List.getElem?_eq_some_iff.mp hc
  obtain ⟨_, rfl⟩ := List.getElem?_eq_some_iff.mp hc'
  exact List.pairwise_iff_getElem.mp hlt _ _ _ _ (by omega)

/-- A UUID with a last digit. -/
def sampleUuid (digit : Char) : Text := "00000000-0000-0000-0000-00000000000".toList ++ [digit]

/-- The crates, on the names of the sample files. -/
def sampleListCrates : ListCrates where
  parseUuid text :=
    if text = sampleUuid '1' then some 1
    else if text = sampleUuid '2' then some 2
    else if text = sampleUuid '3' then some 3 else none
  parseDateTime text :=
    if text = "2025-07-01T00-00-00".toList then some ⟨2025, 7, 1, 0⟩
    else if text = "2025-07-01T00-00-01".toList then some ⟨2025, 7, 1, 1000000000⟩
    else if text = "2025-07-01T00-00-02".toList then some ⟨2025, 7, 1, 2000000000⟩ else none
  formatRfc3339 _ := none
  parseRfc3339 _ := none
  normalizeForPathComparison := some

/-- A rollout file of some second that holds a user message. -/
def sampleFile (second digit : Char) : RolloutFile Empty where
  name := "rollout-2025-07-01T00-00-0".toList ++ [second] ++ "-".toList ++ sampleUuid digit ++
    ".jsonl".toList
  modified := none
  summary := ⟨true, true, none, none, none, none, []⟩

/-- No filter. -/
def sampleConfig : ThreadListConfig Empty := ⟨[], none, none, []⟩

lemma eq_of_named_eq {start start' middle uuid ending : Text} {digit digit' : Char}
    (h : start ++ middle ++ (uuid ++ [digit]) ++ ending = start' ++ middle ++ (uuid ++ [digit']) ++ ending) :
    digit = digit' := by
  have hlast := congrArg List.getLast? (List.append_cancel_right h)
  simp only [← List.append_assoc, List.getLast?_concat] at hlast
  exact Option.some.inj hlast

lemma sampleFile_name_ne {second second' digit digit' : Char} (h : digit ≠ digit') :
    (sampleFile second digit).name ≠ (sampleFile second' digit').name :=
  fun heq => h (eq_of_named_eq heq)

/-- A flat root with three sample files of some seconds. -/
def sampleRoot (first second third : Char) : RolloutRoot sampleListCrates Empty where
  root := .flat [sampleFile first '1', sampleFile second '2', sampleFile third '3']
  wellFormed := by
    show (List.map RolloutFile.name _).Nodup
    have h12 := @sampleFile_name_ne first second '1' '2' (by decide)
    have h13 := @sampleFile_name_ne first third '1' '3' (by decide)
    have h23 := @sampleFile_name_ne second third '2' '3' (by decide)
    simp [h12, h13, h23]

lemma length_sampleRoot (first second third : Char) :
    ((sampleRoot first second third).root.candidates sampleListCrates .createdAt).length <
      maxScanFiles :=
  (List.length_filterMap_le _ _).trans_lt (by simp [maxScanFiles])

/-- The listing is in descending order of timestamp and id, and holds every file once. Its pages hold
together the threads that are asked for, in this order, exactly when they end apart. -/
theorem listsAll_iff (config : ThreadListConfig Source) (root : RolloutRoot crates Source)
    (key : ThreadSortKey) (hsize : 0 < pageSize)
    (hcap : (root.root.candidates crates key).length < maxScanFiles) :
    (root.root.listing crates key).Perm (root.root.candidates crates key) ∧
    ((root.root.listing crates key).Pairwise fun c c' => c'.key ≤ c.key) ∧
    (ListsAll crates config pageSize root.root key none
      ((matchingThreads crates config root.root key).map (threadItem crates)) ↔
      EndsApart crates config pageSize root.root key) :=
  ⟨listing_perm root.root key, pairwise_key_listing root key, listsAll_iff_endsApart root key hsize hcap⟩

/-- Three threads of different seconds, in pages of two. -/
theorem listsAll_iff_different_seconds :
    ListsAll sampleListCrates sampleConfig 2 (sampleRoot '0' '1' '2').root .createdAt none
      ((matchingThreads sampleListCrates sampleConfig (sampleRoot '0' '1' '2').root .createdAt).map
        (threadItem sampleListCrates)) := by
  have hfirst : parseTimestampUuidFromFilename sampleListCrates (sampleFile '0' '1').name =
    some (⟨2025, 7, 1, 0⟩, 1) := by decide +kernel
  have hsecond : parseTimestampUuidFromFilename sampleListCrates (sampleFile '1' '2').name =
    some (⟨2025, 7, 1, 1000000000⟩, 2) := by decide +kernel
  have hthird : parseTimestampUuidFromFilename sampleListCrates (sampleFile '2' '3').name =
    some (⟨2025, 7, 1, 2000000000⟩, 3) := by decide +kernel
  refine (listsAll_iff sampleConfig (sampleRoot '0' '1' '2') .createdAt (by decide)
    (length_sampleRoot _ _ _)).2.2.mpr (endsApart_of_ts_ne _ (by decide) ?_)
  simp [sampleRoot, candidates, createdCandidate, hfirst, hsecond, hthird]

/-- Three threads of one second, in pages of two: the pages do not hold them all. -/
theorem same_second_passed_over :
    ¬ListsAll sampleListCrates sampleConfig 2 (sampleRoot '0' '0' '0').root .createdAt none
      ((matchingThreads sampleListCrates sampleConfig (sampleRoot '0' '0' '0').root .createdAt).map
        (threadItem sampleListCrates)) := by
  have hfirst : parseTimestampUuidFromFilename sampleListCrates (sampleFile '0' '1').name =
    some (⟨2025, 7, 1, 0⟩, 1) := by decide +kernel
  have hsecond : parseTimestampUuidFromFilename sampleListCrates (sampleFile '0' '2').name =
    some (⟨2025, 7, 1, 0⟩, 2) := by decide +kernel
  have hthird : parseTimestampUuidFromFilename sampleListCrates (sampleFile '0' '3').name =
    some (⟨2025, 7, 1, 0⟩, 3) := by decide +kernel
  have hcandidates : (sampleRoot '0' '0' '0').root.candidates sampleListCrates .createdAt =
      [⟨⟨2025, 7, 1, 0⟩, 1, sampleFile '0' '1'⟩, ⟨⟨2025, 7, 1, 0⟩, 2, sampleFile '0' '2'⟩,
        ⟨⟨2025, 7, 1, 0⟩, 3, sampleFile '0' '3'⟩] := by
    simp [sampleRoot, candidates, createdCandidate, hfirst, hsecond, hthird]
  have hperm := @listing_perm _ sampleListCrates (sampleRoot '0' '0' '0').root .createdAt
  rw [hcandidates] at hperm
  have hfound : ∀ c ∈ (sampleRoot '0' '0' '0').root.listing sampleListCrates .createdAt,
      c.ts = ⟨2025, 7, 1, 0⟩ ∧ wanted sampleListCrates sampleConfig c = true := by
    intro c hc
    rw [hperm.mem_iff] at hc
    simp only [List.mem_cons, List.not_mem_nil, or_false] at hc
    rcases hc with rfl | rfl | rfl <;> exact ⟨rfl, rfl⟩
  have hlength : ((sampleRoot '0' '0' '0').root.listing sampleListCrates .createdAt).length = 3 :=
    hperm.length_eq
  have hall : matchingThreads sampleListCrates sampleConfig (sampleRoot '0' '0' '0').root .createdAt =
      (sampleRoot '0' '0' '0').root.listing sampleListCrates .createdAt :=
    List.filter_eq_self.mpr fun c hc => (hfound c hc).2
  rw [listsAll_iff_endsApart _ _ (by decide) (length_sampleRoot _ _ _), endsApart_createdAt_iff, hall]
  intro h
  have hlt := h 1 _ _ (by decide) (List.getElem?_eq_getElem (by omega))
    (List.getElem?_eq_getElem (by omega))
  rw [(hfound _ (List.getElem_mem _)).1, (hfound _ (List.getElem_mem _)).1] at hlt
  exact lt_irrefl _ hlt

end Supercodex.Rollout
