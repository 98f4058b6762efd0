import Supercodex.Config.Layers

/-!
# Origins of the effective config

Merging is an overlay of the normalized layers, so a leaf of the effective config comes from the highest
layer that has it. The origins are only added to: a leaf that a higher layer replaced by a value of
another shape keeps its origin, although the effective config has it no more.
-/

namespace Supercodex.Config

open ValueTree ConfigLayerEntry

variable {S : Type} {path : List Text}

/-! ## Key aliases -/

/-- The table has no legacy key of its path. -/
def NoLegacy (path : List Text) (table : TomlMap S) : Prop :=
  path = memoriesAlias.tablePath → table.lookup memoriesAlias.legacyKey = none

lemma normalizeKeyAliases_eq (path : List Text) (table : TomlMap S) :
    normalizeKeyAliases path table = normalizeKeyAlias path table memoriesAlias := rfl

lemma normalizeKeyAliases_eq_self {table : TomlMap S} (h : NoLegacy path table) :
    normalizeKeyAliases path table = table := by
  rw [normalizeKeyAliases_eq, normalizeKeyAlias]
  split_ifs with hpath
  · rw [h hpath]
  · rfl

lemma noLegacy_of_length (h : path.length ≠ 1) (table : TomlMap S) : NoLegacy path table := by
  intro hpath
  rw [hpath] at h
  exact absurd rfl h

lemma lookup_removeKey (key k : Text) (table : TomlMap S) :
    (removeKey key table).lookup k = if k = key then none else table.lookup k := by
  induction table with
  | nil => simp [removeKey]
  | cons entry table ih =>
    obtain ⟨k', v⟩ := entry
    rw [removeKey, List.filter_cons, ← removeKey]
    by_cases hk' : k' = key
    · rw [if_neg (by simpa using hk'), ih, lookup_cons_ite, hk']
      split_ifs <;> rfl
    rw [if_pos (by simpa using hk'), lookup_cons_ite, lookup_cons_ite, ih]
    by_cases hk : k = k'
    · rw [if_pos hk, if_pos hk, if_neg (hk ▸ hk')]
    · rw [if_neg hk, if_neg hk]

/-- The legacy key is dropped or renamed, in its own table only. -/
lemma normalizeKeyAliases_cases (path : List Text) (table : TomlMap S) :
    (NoLegacy path table ∧ normalizeKeyAliases path table = table) ∨
    (path = memoriesAlias.tablePath ∧ ∃ value, table.lookup memoriesAlias.legacyKey = some value ∧
      (normalizeKeyAliases path table = removeKey memoriesAlias.legacyKey table ∨
        ((removeKey memoriesAlias.legacyKey table).lookup memoriesAlias.canonicalKey = none ∧
          normalizeKeyAliases path table = removeKey memoriesAlias.legacyKey table ++
            [(memoriesAlias.canonicalKey, value)]))) := by
  by_cases hpath : path = memoriesAlias.tablePath
  · rcases hlookup : table.lookup memoriesAlias.legacyKey with _ | value
    · have hnone : NoLegacy path table := fun _ => hlookup
      exact .inl ⟨hnone, normalizeKeyAliases_eq_self hnone⟩
    refine .inr ⟨hpath, value, rfl, ?_⟩
    rw [normalizeKeyAliases_eq, normalizeKeyAlias, if_pos hpath, hlookup]
    dsimp only
    split_ifs with hcanonical
    · exact .inl rfl
    · rw [Option.isSome_iff_ne_none, not_not] at hcanonical
      exact .inr ⟨hcanonical, rfl⟩
  · have hnone : NoLegacy path table := fun h => absurd h hpath
    exact .inl ⟨hnone, normalizeKeyAliases_eq_self hnone⟩

lemma canonicalKey_ne_legacyKey : memoriesAlias.legacyKey ≠ memoriesAlias.canonicalKey := by decide

lemma dot_not_mem_canonicalKey : '.' ∉ memoriesAlias.canonicalKey := by decide

lemma noLegacy_normalizeKeyAliases (path : List Text) (table : TomlMap S) :
    NoLegacy path (normalizeKeyAliases path table) := by
  intro hpath
  rcases normalizeKeyAliases_cases path table with ⟨hnone, heq⟩ | ⟨-, value, -, heq | ⟨hcanonical, heq⟩⟩
  · rw [heq]
    exact hnone hpath
  · rw [heq, lookup_removeKey, if_pos rfl]
  · rw [heq, lookup_concat hcanonical, if_neg canonicalKey_ne_legacyKey, lookup_removeKey, if_pos rfl]

lemma mem_normalizeKeyAliases {table : TomlMap S} {entry : Text × TomlValue S}
    (h : entry ∈ normalizeKeyAliases path table) : entry ∈ table ∨
      (entry.1 = memoriesAlias.canonicalKey ∧ ∃ legacyKey, (legacyKey, entry.2) ∈ table) := by
  rcases normalizeKeyAliases_cases path table with ⟨-, heq⟩ | ⟨-, value, hvalue, heq | ⟨-, heq⟩⟩ <;>
    rw [heq] at h
  · exact .inl h
  · exact .inl (List.mem_of_mem_filter h)
  rcases List.mem_append.mp h with h | h
  · exact .inl (List.mem_of_mem_filter h)
  · rw [List.mem_singleton.mp h]
    exact .inr ⟨rfl, _, mem_of_lookup_eq_some hvalue⟩

lemma nodup_removeKey {key : Text} {table : TomlMap S} (h : (table.map Prod.fst).Nodup) :
    ((removeKey key table).map Prod.fst).Nodup :=
  h.sublist (List.filter_sublist.map _)

lemma nodup_normalizeKeyAliases {table : TomlMap S} (h : (table.map Prod.fst).Nodup) :
    ((normalizeKeyAliases path table).map Prod.fst).Nodup := by
  rcases normalizeKeyAliases_cases path table with ⟨-, heq⟩ | ⟨-, value, -, heq | ⟨hnone, heq⟩⟩ <;>
    rw [heq]
  · exact h
  · exact nodup_removeKey h
  rw [List.map_append, List.nodup_append]
  refine ⟨nodup_removeKey h, List.nodup_singleton _, ?_⟩
  rintro key hkey key' hkey' rfl
  obtain ⟨⟨_, value'⟩, hmem, rfl⟩ := List.mem_map.mp hkey
  simp only [List.map_cons, List.map_nil, List.mem_singleton] at hkey'
  rw [hkey'] at hmem
  rw [lookup_eq_some_of_mem (nodup_removeKey h) hmem] at hnone
  cases hnone

/-! ## Normalized values -/

/-- No key in a table holds a dot. -/
inductive PlainKeys : TomlValue S → Prop where
  | scalar (value : S) : PlainKeys (.scalar value)
  | array {items : List (TomlValue S)} (h : ∀ item ∈ items, PlainKeys item) : PlainKeys (.array items)
  | table {entries : TomlMap S} (hkeys : ∀ entry ∈ entries, '.' ∉ entry.1)
    (h : ∀ entry ∈ entries, PlainKeys entry.2) : PlainKeys (.table entries)

lemma fst_normalizedEntries (path : List Text) (entries : TomlMap S) :
    (normalizedEntries path entries).map Prod.fst = entries.map Prod.fst := by
  induction entries with
  | nil => rfl
  | cons entry entries ih => rw [normalizedEntries, List.map_cons, List.map_cons, ih]

lemma mem_normalizedEntries {entries : TomlMap S} {entry : Text × TomlValue S}
    (h : entry ∈ normalizedEntries path entries) : ∃ child, (entry.1, child) ∈ entries ∧
      entry.2 = normalizedWithKeyAliases (path ++ [entry.1]) child := by
  induction entries with
  | nil => cases h
  | cons first entries ih =>
    obtain ⟨key, child⟩ := first
    rcases List.mem_cons.mp h with rfl | h
    · exact ⟨child, List.mem_cons_self, rfl⟩
    · obtain ⟨child', hmem, heq⟩ := ih h
      exact ⟨child', List.mem_cons_of_mem _ hmem, heq⟩

lemma mem_normalizedItems {items : List (TomlValue S)} {item : TomlValue S}
    (h : item ∈ normalizedItems path items) : ∃ item' ∈ items,
      item = normalizedWithKeyAliases path item' := by
  induction items with
  | nil => cases h
  | cons first items ih =>
    rcases List.mem_cons.mp h with rfl | h
    · exact ⟨first, List.mem_cons_self, rfl⟩
    · obtain ⟨item', hmem, heq⟩ := ih h
      exact ⟨item', List.mem_cons_of_mem _ hmem, heq⟩

lemma child_of_mem_normalizeKeyAliases {entries : TomlMap S} {entry : Text × TomlValue S}
    (h : entry ∈ normalizeKeyAliases path (normalizedEntries path entries)) :
    ∃ child ∈ entries, entry.2 = normalizedWithKeyAliases (path ++ [child.1]) child.2 := by
  obtain ⟨key, hmem⟩ : ∃ key, (key, entry.2) ∈ normalizedEntries path entries := by
    rcases mem_normalizeKeyAliases h with hmem | ⟨-, hlegacy⟩
    · exact ⟨entry.1, hmem⟩
    · exact hlegacy
  obtain ⟨child, hchild, heq⟩ := mem_normalizedEntries hmem
  exact ⟨(key, child), hchild, heq⟩

lemma valid_normalized {v : TomlValue S} (h : v.Valid) (path : List Text) :
    (normalizedWithKeyAliases path v).Valid := by
  induction h generalizing path with
  | scalar value => exact .scalar value
  | array _ ih =>
    refine .array fun item hitem => ?_
    obtain ⟨item', hmem, rfl⟩ := mem_normalizedItems hitem
    exact ih item' hmem path
  | @table entries hnodup _ ih =>
    refine .table (nodup_normalizeKeyAliases (by rwa [fst_normalizedEntries])) fun entry hentry => ?_
    obtain ⟨child, hchild, heq⟩ := child_of_mem_normalizeKeyAliases hentry
    rw [heq]
    exact ih _ hchild _

lemma plainKeys_normalized {v : TomlValue S} (h : PlainKeys v) (path : List Text) :
    PlainKeys (normalizedWithKeyAliases path v) := by
  induction h generalizing path with
  | scalar value => exact .scalar value
  | array _ ih =>
    refine .array fun item hitem => ?_
    obtain ⟨item', hmem, rfl⟩ := mem_normalizedItems hitem
    exact ih item' hmem path
  | @table entries hkeys _ ih =>
    refine .table (fun entry hentry => ?_) fun entry hentry => ?_
    · rcases mem_normalizeKeyAliases hentry with hmem | ⟨hkey, -⟩
      · obtain ⟨child, hchild, -⟩ := mem_normalizedEntries hmem
        exact hkeys (entry.1, child) hchild
      · rw [hkey]
        exact dot_not_mem_canonicalKey
    · obtain ⟨child, hchild, heq⟩ := child_of_mem_normalizeKeyAliases hentry
      rw [heq]
      exact ih _ hchild _

/-! ## Merging is an overlay of normalized values -/

/-- The tables on the way down have no legacy keys. -/
inductive Normal : List Text → TomlValue S → Prop where
  | scalar (path : List Text) (value : S) : Normal path (.scalar value)
  | array (path : List Text) (items : List (TomlValue S)) : Normal path (.array items)
  | table {path : List Text} {entries : TomlMap S} (hlegacy : NoLegacy path entries)
    (h : ∀ key child, entries.lookup key = some child → Normal (path ++ [key]) child) :
    Normal path (.table entries)

mutual

/-- Below two keys there is no legacy table to rename in. -/
lemma normalized_eq_self {path : List Text} (hpath : 2 ≤ path.length) : (v : TomlValue S) →
    normalizedWithKeyAliases path v = v
  | .scalar value => rfl
  | .array items => by rw [normalizedWithKeyAliases, normalizedItems_eq_self hpath items]
  | .table entries => by
    rw [normalizedWithKeyAliases, normalizedEntries_eq_self (by omega) entries,
      normalizeKeyAliases_eq_self (noLegacy_of_length (by omega) entries)]

lemma normalizedEntries_eq_self {path : List Text} (hpath : 1 ≤ path.length) : (entries : TomlMap S) →
    normalizedEntries path entries = entries
  | [] => rfl
  | (key, child) :: entries => by
    rw [normalizedEntries, normalized_eq_self (by rw [List.length_append]; simpa using hpath) child,
      normalizedEntries_eq_self hpath entries]

lemma normalizedItems_eq_self {path : List Text} (hpath : 2 ≤ path.length) :
    (items : List (TomlValue S)) → normalizedItems path items = items
  | [] => rfl
  | item :: items => by
    rw [normalizedItems, normalized_eq_self hpath item, normalizedItems_eq_self hpath items]

end

lemma normalizedEntries_normalizeKeyAliases (path : List Text) (entries : TomlMap S) :
    normalizedEntries path (normalizeKeyAliases path entries) =
      normalizeKeyAliases path (normalizedEntries path entries) := by
  by_cases hpath : path.length = 1
  · rw [normalizedEntries_eq_self hpath.ge, normalizedEntries_eq_self hpath.ge]
  · rw [normalizeKeyAliases_eq_self (noLegacy_of_length hpath _),
      normalizeKeyAliases_eq_self (noLegacy_of_length hpath _)]

lemma normal_of_length {v : TomlValue S} (hvalid : v.Valid) (hpath : 2 ≤ path.length) :
    Normal path v := by
  induction hvalid generalizing path with
  | scalar value => exact .scalar path value
  | array _ _ => exact .array path _
  | table _ _ ih =>
    refine .table (noLegacy_of_length (by omega) _) fun key child hchild => ?_
    refine ih _ (mem_of_lookup_eq_some hchild) ?_
    rw [List.length_append]
    omega

lemma normal_normalized {v : TomlValue S} (hvalid : v.Valid) (path : List Text) :
    Normal path (normalizedWithKeyAliases path v) := by
  induction hvalid generalizing path with
  | scalar value => exact .scalar path value
  | array _ _ => exact .array path _
  | @table entries _ hentries ih =>
    refine .table (noLegacy_normalizeKeyAliases path _) fun key child hchild => ?_
    by_cases hpath : path.length = 1
    · have hmem := mem_of_lookup_eq_some hchild
      rw [normalizedEntries_eq_self hpath.ge] at hmem
      have hvalid : child.Valid := by
        rcases mem_normalizeKeyAliases hmem with hmem | ⟨-, legacyKey, hmem⟩
        · exact hentries _ hmem
        · exact hentries (legacyKey, child) hmem
      exact normal_of_length hvalid (by rw [List.length_append, hpath]; rfl)
    · rw [normalizeKeyAliases_eq_self (noLegacy_of_length hpath _)] at hchild
      obtain ⟨child', hmem, heq⟩ := mem_normalizedEntries (mem_of_lookup_eq_some hchild)
      rw [show child = _ from heq]
      exact ih _ hmem _

lemma normal_overlay {lower upper : TomlValue S} (hlower : Normal path lower)
    (hupper : Normal path upper) (hvalid : upper.Valid) : Normal path (lower.overlay upper) := by
  induction hupper generalizing lower with
  | scalar path value => exact .scalar path value
  | array path items => exact .array path items
  | @table path entries' hlegacy' h' ih =>
    rcases overlay_cases lower (.table entries') with ⟨entries, _, rfl, heq', heq⟩ | ⟨-, heq⟩
    · cases heq'
      rw [heq]
      cases hlower with
      | table hlegacy h =>
        refine .table ?_ ?_
        · intro hpath
          rw [lookup_overlayEntries hvalid.nodup, hlegacy' hpath]
          exact hlegacy hpath
        · intro key child hchild
          rw [lookup_overlayEntries hvalid.nodup] at hchild
          split at hchild
          · exact h key child hchild
          rename_i value hvalue
          cases hchild
          rcases hexisting : entries.lookup key with _ | existing
          · exact h' key value hvalue
          · exact ih key value hvalue (h key existing hexisting) (hvalid.of_lookup hvalue)
    · rw [heq]
      exact .table hlegacy' h'

/-- The children of a table are normal under a path. -/
def NormalChildren (path : List Text) (entries : TomlMap S) : Prop :=
  ∀ key child, entries.lookup key = some child → Normal (path ++ [key]) child

mutual

/-- Merging into a normal value overlays it with the normalized overlay. -/
lemma merge_eq_overlay {base : TomlValue S} {path : List Text} (hbase : Normal path base)
    (overlay : TomlValue S) (hvalid : overlay.Valid) :
    mergeTomlValuesAtPath base path overlay = base.overlay (normalizedWithKeyAliases path overlay) := by
  match overlay, base with
  | .scalar value, base =>
    rw [mergeTomlValuesAtPath]
    · rfl
    · nofun
  | .array items, base =>
    rw [mergeTomlValuesAtPath]
    · rfl
    · nofun
  | .table overlayTable, .scalar value =>
    rw [mergeTomlValuesAtPath]
    · rfl
    · nofun
  | .table overlayTable, .array items =>
    rw [mergeTomlValuesAtPath]
    · rfl
    · nofun
  | .table overlayTable, .table baseTable =>
    obtain ⟨hlegacy, hchildren⟩ : NoLegacy path baseTable ∧ NormalChildren path baseTable := by
      cases hbase with
      | table hlegacy h => exact ⟨hlegacy, h⟩
    have hentries : ∀ entry ∈ normalizeKeyAliases path overlayTable, entry.2.Valid := by
      intro entry hentry
      cases hvalid with
      | table _ h =>
        rcases mem_normalizeKeyAliases hentry with hmem | ⟨-, legacyKey, hmem⟩
        · exact h _ hmem
        · exact h (legacyKey, entry.2) hmem
    have hweight := entriesWeight_normalizeKeyAliases_le path overlayTable
    rw [mergeTomlValuesAtPath, normalizeKeyAliases_eq_self hlegacy,
      mergeEntries_eq_overlay hchildren _ hentries, normalizedEntries_normalizeKeyAliases]
    rfl
termination_by weight overlay
decreasing_by
  rw [weight]
  omega

lemma mergeEntries_eq_overlay {path : List Text} {baseTable : TomlMap S}
    (hbase : NormalChildren path baseTable) (overlayTable : TomlMap S)
    (hvalid : ∀ entry ∈ overlayTable, entry.2.Valid) :
    mergeEntries path baseTable overlayTable =
      overlayEntries baseTable (normalizedEntries path overlayTable) := by
  match overlayTable with
  | [] => rw [mergeEntries, normalizedEntries, overlayEntries]
  | (key, value) :: overlayTable =>
    rw [List.forall_mem_cons] at hvalid
    rw [mergeEntries, normalizedEntries, overlayEntries]
    rcases hexisting : baseTable.lookup key with _ | existing
    · simp only
      refine mergeEntries_eq_overlay ?_ overlayTable hvalid.2
      intro k child hchild
      rw [lookup_concat hexisting] at hchild
      split_ifs at hchild with hk
      · cases hchild
        rw [hk]
        exact normal_normalized hvalid.1 _
      · exact hbase k child hchild
    · simp only
      have hmerged := merge_eq_overlay (hbase key existing hexisting) value hvalid.1
      rw [hmerged]
      refine mergeEntries_eq_overlay ?_ overlayTable hvalid.2
      intro k child hchild
      by_cases hk : k = key
      · subst hk
        rw [lookup_setEntry_self hexisting] at hchild
        cases hchild
        exact normal_overlay (hbase k existing hexisting) (normal_normalized hvalid.1 _)
          (valid_normalized hvalid.1 _)
      · rw [lookup_setEntry_ne hk] at hchild
        exact hbase k child hchild
termination_by entriesWeight overlayTable
decreasing_by
  all_goals
    rw [entriesWeight]
    omega

end

/-- The config of a layer with its legacy keys renamed. -/
def ConfigLayerEntry.normalized (layer : ConfigLayerEntry S) : TomlValue S :=
  normalizedWithKeyAliases [] layer.config

lemma effectiveConfig_eq (stack : ConfigLayerStack S) : stack.effectiveConfig =
    (stack.getLayers.map normalized).foldl overlay (.table []) := by
  have hnormal : Normal [] (.table [] : TomlValue S) :=
    .table (noLegacy_of_length (by decide) _) fun _ _ h => nomatch h
  rw [ConfigLayerStack.effectiveConfig, List.foldl_map]
  generalize (.table [] : TomlValue S) = base at hnormal ⊢
  induction stack.getLayers generalizing base with
  | nil => rfl
  | cons layer layers ih =>
    have hmerge : mergeTomlValues base layer.config = base.overlay layer.normalized :=
      merge_eq_overlay hnormal layer.config layer.valid
    rw [List.foldl_cons, List.foldl_cons, hmerge]
    exact ih _ (normal_overlay hnormal (normal_normalized layer.valid _) (valid_normalized layer.valid _))

/-! ## Recorded origins -/

/-- The origins with the paths of some leaves recorded. -/
def recordPaths (metadata : ConfigLayerMetadata) (origins : Origins) (paths : List (List Text)) :
    Origins :=
  paths.foldl (fun origins p => if p = [] then origins else origins.insert (dotted p) metadata) origins

mutual

lemma recordOrigins_eq (metadata : ConfigLayerMetadata) (path : List Text) (origins : Origins) :
    (v : TomlValue S) → recordOrigins metadata path origins v =
      recordPaths metadata origins (v.leaves.map (path ++ ·))
  | .scalar value => by simp [recordOrigins, leaves, recordPaths]
  | .array items => by rw [recordOrigins, recordItems_eq metadata path 0 origins items, leaves]
  | .table entries => by rw [recordOrigins, recordEntries_eq metadata path origins entries, leaves]

lemma recordEntries_eq (metadata : ConfigLayerMetadata) (path : List Text) (origins : Origins) :
    (entries : TomlMap S) → recordEntries metadata path origins entries =
      recordPaths metadata origins ((entryLeaves entries).map (path ++ ·))
  | [] => rfl
  | (key, child) :: entries => by
    rw [recordEntries, recordOrigins_eq metadata _ origins child, recordEntries_eq metadata path _ entries,
      entryLeaves, List.map_append, List.map_map, recordPaths, recordPaths, recordPaths, List.foldl_append]
    simp [Function.comp_def]

lemma recordItems_eq (metadata : ConfigLayerMetadata) (path : List Text) (index : ℕ)
    (origins : Origins) : (items : List (TomlValue S)) →
    recordItems metadata path index origins items =
      recordPaths metadata origins ((itemLeaves index items).map (path ++ ·))
  | [] => rfl
  | item :: items => by
    rw [recordItems, recordOrigins_eq metadata _ origins item,
      recordItems_eq metadata path (index + 1) _ items, itemLeaves, List.map_append, List.map_map,
      recordPaths, recordPaths, recordPaths, List.foldl_append]
    simp [Function.comp_def]

end

lemma lookup_recordPaths (metadata : ConfigLayerMetadata) (origins : Origins)
    (paths : List (List Text)) (d : Text) : (recordPaths metadata origins paths).lookup d =
      if ∃ p ∈ paths, p ≠ [] ∧ dotted p = d then some metadata else origins.lookup d := by
  induction paths generalizing origins with
  | nil => simp [recordPaths]
  | cons p paths ih =>
    rw [recordPaths, List.foldl_cons, ← recordPaths, ih]
    simp only [List.mem_cons, exists_eq_or_imp]
    by_cases hrest : ∃ p ∈ paths, p ≠ [] ∧ dotted p = d
    · rw [if_pos hrest, if_pos (.inr hrest)]
    rw [if_neg hrest]
    by_cases hp : p = []
    · simp [hp, hrest]
    rw [if_neg hp]
    by_cases hd : dotted p = d
    · rw [if_pos (.inl ⟨hp, hd⟩), ← hd, AList.lookup_insert]
    rw [AList.lookup_insert_ne (Ne.symm hd), if_neg]
    rintro (⟨-, h⟩ | h)
    · exact hd h
    · exact hrest h

/-- A scalar stands under a dotted path. -/
def DottedLeaf (v : TomlValue S) (d : Text) (s : S) : Prop :=
  ∃ p, p ≠ [] ∧ v.leafAt p = some s ∧ dotted p = d

lemma lookup_recordOrigins (origins : Origins) (layer : ConfigLayerEntry S) (d : Text) :
    (((∃ s, DottedLeaf layer.normalized d s) →
      (recordOrigins layer.metadata [] origins layer.normalized).lookup d = some layer.metadata)) ∧
    ((¬∃ s, DottedLeaf layer.normalized d s) →
      (recordOrigins layer.metadata [] origins layer.normalized).lookup d = origins.lookup d) := by
  have hvalid : layer.normalized.Valid := valid_normalized layer.valid []
  have hiff : (∃ p ∈ layer.normalized.leaves.map ([] ++ ·), p ≠ [] ∧ dotted p = d) ↔
      ∃ s, DottedLeaf layer.normalized d s := by
    simp only [List.nil_append, List.map_id', mem_leaves_iff hvalid, DottedLeaf]
    constructor
    · rintro ⟨p, ⟨s, hs⟩, hp, hd⟩
      exact ⟨s, p, hp, hs, hd⟩
    · rintro ⟨s, p, hp, hs, hd⟩
      exact ⟨p, ⟨s, hs⟩, hp, hd⟩
  rw [recordOrigins_eq, lookup_recordPaths]
  refine ⟨fun h => ?_, fun h => ?_⟩
  · rw [if_pos (hiff.mpr h)]
  · rw [if_neg (mt hiff.mp h)]

/-- The layer is the highest one that has a leaf under the dotted path. -/
def HighestWith (layers : List (ConfigLayerEntry S)) (d : Text) (lower : List (ConfigLayerEntry S))
    (layer : ConfigLayerEntry S) (higher : List (ConfigLayerEntry S)) : Prop :=
  layers = lower ++ layer :: higher ∧ (∃ s, DottedLeaf layer.normalized d s) ∧
    ∀ l ∈ higher, ¬∃ s, DottedLeaf l.normalized d s

/-- The origin of a key is the highest layer with a leaf of this dotted name. -/
lemma lookup_origins (layers : List (ConfigLayerEntry S)) (d : Text) :
    (∃ lower layer higher, HighestWith layers d lower layer higher ∧
      (layers.foldl (fun origins layer => recordOrigins layer.metadata [] origins layer.normalized)
        ∅).lookup d = some layer.metadata) ∨
    ((∀ l ∈ layers, ¬∃ s, DottedLeaf l.normalized d s) ∧
      (layers.foldl (fun origins layer => recordOrigins layer.metadata [] origins layer.normalized)
        (∅ : Origins)).lookup d = none) := by
  induction layers using List.reverseRecOn with
  | nil => exact .inr ⟨by simp, by simp⟩
  | append_singleton layers top ih =>
    rw [List.foldl_concat]
    set origins : Origins :=
      layers.foldl (fun origins layer => recordOrigins layer.metadata [] origins layer.normalized) ∅
    obtain ⟨hwith, hwithout⟩ := lookup_recordOrigins origins top d
    by_cases htop : ∃ s, DottedLeaf top.normalized d s
    · exact .inl ⟨layers, top, [], ⟨rfl, htop, by simp⟩, hwith htop⟩
    rw [hwithout htop]
    have happend : ∀ {ls : List (ConfigLayerEntry S)},
        (∀ l ∈ ls, ¬∃ s, DottedLeaf l.normalized d s) →
        ∀ l ∈ ls ++ [top], ¬∃ s, DottedLeaf l.normalized d s := by
      intro ls hls l hl
      rcases List.mem_append.mp hl with hl | hl
      · exact hls l hl
      · rw [List.mem_singleton.mp hl]
        exact htop
    rcases ih with ⟨lower, layer, higher, ⟨hlayers, hleaf, hhigher⟩, hlookup⟩ | ⟨hnone, hlookup⟩
    · exact .inl ⟨lower, layer, higher ++ [top], ⟨by simp [hlayers], hleaf, happend hhigher⟩, hlookup⟩
    · exact .inr ⟨happend hnone, hlookup⟩

/-! ## Dotted paths -/

lemma dot_not_mem_toDigits (n : ℕ) : '.' ∉ Nat.toDigits 10 n := by
  intro h
  have := Nat.isDigit_of_mem_toDigits (by decide) (by decide) h
  exact absurd this (by decide)

lemma PlainKeys.children {v c : TomlValue S} (h : PlainKeys v) {k : Text} (hc : (k, c) ∈ v.children) :
    '.' ∉ k ∧ PlainKeys c := by
  cases h with
  | scalar value => cases hc
  | array hitems =>
    simp only [ValueTree.children, indexed, List.mem_map] at hc
    obtain ⟨⟨item, i⟩, hmem, heq⟩ := hc
    cases heq
    exact ⟨dot_not_mem_toDigits i, hitems _ (List.fst_mem_of_mem_zipIdx hmem)⟩
  | table hkeys hentries => exact ⟨hkeys _ hc, hentries _ hc⟩

lemma PlainKeys.dot_not_mem {v : TomlValue S} (h : PlainKeys v) {p : List Text} {s : S}
    (hleaf : v.leafAt p = some s) : ∀ k ∈ p, '.' ∉ k := by
  induction p generalizing v with
  | nil => simp
  | cons k p ih =>
    obtain ⟨c, hc, hleaf⟩ := exists_child hleaf
    obtain ⟨hk, hplain⟩ := h.children (mem_of_lookup_eq_some hc)
    rw [List.forall_mem_cons]
    exact ⟨hk, ih hplain hleaf⟩

lemma dotted_injective {p p' : List Text} (hp : p ≠ []) (hp' : p' ≠ []) (hplain : ∀ k ∈ p, '.' ∉ k)
    (hplain' : ∀ k ∈ p', '.' ∉ k) (h : dotted p = dotted p') : p = p' := by
  have hsplit := congrArg (List.splitOn '.') h
  rwa [dotted, dotted, List.splitOn_intercalate '.' hplain hp,
    List.splitOn_intercalate '.' hplain' hp'] at hsplit

lemma DottedLeaf.leafAt {v : TomlValue S} (hplain : PlainKeys v) {p : List Text} {s : S} (hp : p ≠ [])
    (hpath : ∀ k ∈ p, '.' ∉ k) (h : DottedLeaf v (dotted p) s) : v.leafAt p = some s := by
  obtain ⟨p', hp', hleaf, hd⟩ := h
  rwa [dotted_injective hp' hp (hplain.dot_not_mem hleaf) hpath hd] at hleaf

/-! ## Origins and effective config -/

/-- The origins describe the effective config: they have the dotted paths of its leaves, and give for
each the highest layer that supplies its value. -/
def OriginsDescribe (stack : ConfigLayerStack S) : Prop :=
  (∀ d, (stack.origins.lookup d).isSome ↔ ∃ s, DottedLeaf stack.effectiveConfig d s) ∧
  ∀ d s, DottedLeaf stack.effectiveConfig d s → ∃ lower layer higher,
    HighestWith stack.getLayers d lower layer higher ∧ DottedLeaf layer.normalized d s ∧
      stack.origins.lookup d = some layer.metadata

/-- A leaf that no higher layer supplies again is not replaced by one: on the way to it, where a higher
layer has a value, both have a table. -/
def LeavesKept (stack : ConfigLayerStack S) : Prop :=
  ∀ lower layer higher p s, stack.getLayers = lower ++ layer :: higher → p ≠ [] →
    layer.normalized.leafAt p = some s → (∀ l ∈ higher, l.normalized.leafAt p = none) →
      ∀ l ∈ higher, l.normalized.replaces (layer.normalized.spine p) p = false

section

variable {stack : ConfigLayerStack S}

lemma valid_layers (stack : ConfigLayerStack S) :
    ∀ t ∈ stack.getLayers.map normalized, t.Valid := by
  intro t ht
  obtain ⟨layer, -, rfl⟩ := List.mem_map.mp ht
  exact valid_normalized layer.valid []

lemma highestWith_of_leafAt (hplain : ∀ layer ∈ stack.getLayers, PlainKeys layer.config)
    {lower higher : List (ConfigLayerEntry S)} {layer : ConfigLayerEntry S}
    (hlayers : stack.getLayers = lower ++ layer :: higher) {p : List Text} {s : S} (hp : p ≠ [])
    (hleaf : layer.normalized.leafAt p = some s)
    (hnone : ∀ l ∈ higher, l.normalized.leafAt p = none) :
    HighestWith stack.getLayers (dotted p) lower layer higher := by
  have hnormalized : ∀ l ∈ stack.getLayers, PlainKeys l.normalized := fun l hl =>
    plainKeys_normalized (hplain l hl) []
  have hpath := (hnormalized layer (by simp [hlayers])).dot_not_mem hleaf
  refine ⟨hlayers, ⟨s, p, hp, hleaf, rfl⟩, ?_⟩
  rintro l hl ⟨s', hdotted⟩
  have hleaf' := hdotted.leafAt (hnormalized l (by simp [hlayers, hl])) hp hpath
  rw [hnone l hl] at hleaf'
  cases hleaf'

lemma exists_highestWith (hplain : ∀ layer ∈ stack.getLayers, PlainKeys layer.config) {p : List Text}
    {s : S} (hp : p ≠ []) (h : stack.effectiveConfig.leafAt p = some s) : ∃ lower layer higher,
      HighestWith stack.getLayers (dotted p) lower layer higher ∧ layer.normalized.leafAt p = some s ∧
        ∀ l ∈ higher, l.normalized.replaces (layer.normalized.spine p) p = false := by
  rw [effectiveConfig_eq, leafAt_foldl_overlay (valid_layers stack)] at h
  obtain ⟨lower, tree, higher, ⟨htrees, hleaf, hnone⟩, hkept⟩ := h
  obtain ⟨lower, rest, hlayers, rfl, hrest⟩ := List.map_eq_append_iff.mp htrees
  obtain ⟨layer, higher, rfl, rfl, rfl⟩ := List.map_eq_cons_iff.mp hrest
  rw [List.forall_mem_map] at hnone hkept
  exact ⟨lower, layer, higher, highestWith_of_leafAt hplain hlayers hp hleaf hnone, hleaf, hkept⟩

lemma HighestWith.unique {layers : List (ConfigLayerEntry S)} {d : Text}
    {lower lower' higher higher' : List (ConfigLayerEntry S)} {layer layer' : ConfigLayerEntry S}
    (h : HighestWith layers d lower layer higher) (h' : HighestWith layers d lower' layer' higher') :
    layer = layer' ∧ higher = higher' := by
  obtain ⟨hlayers, hleaf, hnone⟩ := h
  obtain ⟨hlayers', hleaf', hnone'⟩ := h'
  rw [hlayers, List.append_eq_append_iff] at hlayers'
  rcases hlayers' with ⟨mid, -, hmid⟩ | ⟨mid, -, hmid⟩
  · rcases List.cons_eq_append_iff.mp hmid with ⟨-, heq⟩ | ⟨mid, -, heq⟩
    · cases heq
      exact ⟨rfl, rfl⟩
    · exact absurd hleaf' (hnone _ (by simp [heq]))
  · rcases List.cons_eq_append_iff.mp hmid with ⟨-, heq⟩ | ⟨mid, -, heq⟩
    · cases heq
      exact ⟨rfl, rfl⟩
    · exact absurd hleaf (hnone' _ (by simp [heq]))

lemma origins_cases (stack : ConfigLayerStack S) (d : Text) :
    (∃ lower layer higher, HighestWith stack.getLayers d lower layer higher ∧
      stack.origins.lookup d = some layer.metadata) ∨
    ((∀ l ∈ stack.getLayers, ¬∃ s, DottedLeaf l.normalized d s) ∧ stack.origins.lookup d = none) :=
  lookup_origins stack.getLayers d

lemma lookup_origins_of_highestWith {d : Text} {lower higher : List (ConfigLayerEntry S)}
    {layer : ConfigLayerEntry S} (h : HighestWith stack.getLayers d lower layer higher) :
    stack.origins.lookup d = some layer.metadata := by
  rcases origins_cases stack d with ⟨lower', layer', higher', h', hlookup⟩ | ⟨hnone, -⟩
  · rw [hlookup, (h.unique h').1]
  · exact absurd h.2.1 (hnone layer (by simp [h.1]))

lemma originsDescribe_of_leavesKept (hplain : ∀ layer ∈ stack.getLayers, PlainKeys layer.config)
    (hkept : LeavesKept stack) :
    OriginsDescribe stack := by
  have hsupplied : ∀ d s, DottedLeaf stack.effectiveConfig d s → ∃ lower layer higher,
      HighestWith stack.getLayers d lower layer higher ∧ DottedLeaf layer.normalized d s ∧
        stack.origins.lookup d = some layer.metadata := by
    rintro d s ⟨p, hp, hleaf, rfl⟩
    obtain ⟨lower, layer, higher, hhighest, hlayer, -⟩ := exists_highestWith hplain hp hleaf
    exact ⟨lower, layer, higher, hhighest, ⟨p, hp, hlayer, rfl⟩,
      lookup_origins_of_highestWith hhighest⟩
  refine ⟨fun d => ⟨fun h => ?_, ?_⟩, hsupplied⟩
  · rcases origins_cases stack d with ⟨lower, layer, higher, ⟨hlayers, ⟨s, hd⟩, hnone⟩, -⟩ | ⟨-, hlookup⟩
    · obtain ⟨p, hp, hleaf, rfl⟩ := hd
      have hnone' : ∀ l ∈ higher, l.normalized.leafAt p = none := by
        intro l hl
        by_contra hsome
        obtain ⟨s', hs'⟩ := Option.ne_none_iff_exists'.mp hsome
        exact hnone l hl ⟨s', p, hp, hs', rfl⟩
      have hall := hkept lower layer higher p s hlayers hp hleaf hnone'
      refine ⟨s, p, hp, ?_, rfl⟩
      rw [effectiveConfig_eq, leafAt_foldl_overlay (valid_layers stack)]
      refine ⟨lower.map normalized, layer.normalized,
        higher.map normalized, ⟨by simp [hlayers], hleaf, ?_⟩, ?_⟩
      · rwa [List.forall_mem_map]
      · rwa [List.forall_mem_map]
    · rw [hlookup] at h
      cases h
  · rintro ⟨s, hd⟩
    obtain ⟨lower, layer, higher, -, -, hlookup⟩ := hsupplied d s hd
    rw [hlookup]
    rfl

lemma leavesKept_of_originsDescribe (hplain : ∀ layer ∈ stack.getLayers, PlainKeys layer.config)
    (h : OriginsDescribe stack) :
    LeavesKept stack := by
  intro lower layer higher p s hlayers hp hleaf hnone
  have hlayer : layer ∈ stack.getLayers := by simp [hlayers]
  have hpath := (plainKeys_normalized (hplain layer hlayer) []).dot_not_mem hleaf
  have hhighest := highestWith_of_leafAt hplain hlayers hp hleaf hnone
  -- the origins have the path, so the effective config has a leaf there
  have hsome : (stack.origins.lookup (dotted p)).isSome := by
    rw [lookup_origins_of_highestWith hhighest]
    rfl
  obtain ⟨s', p', hp', heffective, hd⟩ := (h.1 (dotted p)).mp hsome
  obtain ⟨lower', layer', higher', hhighest', hleaf', hkept⟩ :=
    exists_highestWith hplain hp' heffective
  rw [hd] at hhighest'
  have hlayer' : layer' ∈ stack.getLayers := by simp [hhighest'.1]
  have hpath' := (plainKeys_normalized (hplain layer' hlayer') []).dot_not_mem hleaf'
  have heq := dotted_injective hp' hp hpath' hpath hd
  obtain ⟨rfl, rfl⟩ := hhighest.unique hhighest'
  rwa [heq] at hkept

end

/-- For layers whose keys hold no dot, the origins describe the effective config exactly when no higher
layer replaces a leaf that is not supplied again. -/
theorem originsDescribe_iff (stack : ConfigLayerStack S)
    (hplain : ∀ layer ∈ stack.layers, PlainKeys layer.config) :
    OriginsDescribe stack ↔ LeavesKept stack := by
  have henabled : ∀ layer ∈ stack.getLayers, PlainKeys layer.config := fun layer hlayer =>
    hplain layer (List.mem_of_mem_filter hlayer)
  exact ⟨leavesKept_of_originsDescribe henabled, originsDescribe_of_leavesKept henabled⟩

/-- A layer over the scalar entries of one table. -/
def sampleLayer (name : ConfigLayerSource) (config : TomlValue ℕ) (valid : config.Valid) :
    ConfigLayerEntry ℕ :=
  ⟨name, config, "sha256:0".toList, none, valid⟩

lemma valid_scalars (entries : List (Text × ℕ)) (h : (entries.map Prod.fst).Nodup) :
    Valid (.table (entries.map fun (key, value) => (key, .scalar value))) := by
  refine .table ?_ ?_
  · rwa [List.map_map]
  · rw [List.forall_mem_map]
    intro entry _
    exact .scalar _

/-- The user's `a = 1` and `c = 3`. -/
def sampleUser : ConfigLayerEntry ℕ :=
  sampleLayer (.user "config.toml".toList) _
    (valid_scalars [("a".toList, 1), ("c".toList, 3)] (by decide))

/-- The session's `a = 2`. -/
def sampleSession : ConfigLayerEntry ℕ :=
  sampleLayer .sessionFlags _ (valid_scalars [("a".toList, 2)] (by decide))

/-- The session's `a.b = 2`. -/
def sampleNested : ConfigLayerEntry ℕ :=
  sampleLayer .sessionFlags (.table [("a".toList, .table [("b".toList, .scalar 2)])])
    (.table (by decide) (by
      intro entry hentry
      rw [List.mem_singleton.mp hentry]
      exact valid_scalars [("b".toList, 2)] (by decide)))

lemma plainKeys_scalars (entries : List (Text × ℕ)) (h : ∀ entry ∈ entries, '.' ∉ entry.1) :
    PlainKeys (.table (entries.map fun (key, value) => (key, .scalar value)) : TomlValue ℕ) := by
  refine .table ?_ ?_
  · rwa [List.forall_mem_map]
  · rw [List.forall_mem_map]
    intro entry _
    exact .scalar _

lemma plainKeys_sampleUser : PlainKeys sampleUser.config :=
  plainKeys_scalars [("a".toList, 1), ("c".toList, 3)] (by simp)

/-- The session overrides one key of the user. -/
theorem originsDescribe_iff_override : OriginsDescribe ⟨[sampleUser, sampleSession]⟩ := by
  refine (originsDescribe_iff _ ?_).mpr ?_
  · intro layer hlayer
    simp only [List.mem_cons, List.not_mem_nil, or_false] at hlayer
    rcases hlayer with rfl | rfl
    · exact plainKeys_sampleUser
    · exact plainKeys_scalars [("a".toList, 2)] (by simp)
  · intro lower layer higher p s hlayers hp hleaf hnone l hl
    have hsplit : [sampleUser, sampleSession] = lower ++ layer :: higher := hlayers
    rcases lower with _ | ⟨first, _ | ⟨second, lower⟩⟩
    · cases hsplit
      rw [List.mem_singleton.mp hl]
      -- the user has two leaves, and the session supplies the first again
      have hpaths : p ∈ sampleUser.normalized.leaves :=
        (mem_leaves_iff (valid_normalized sampleUser.valid [])).mpr ⟨s, hleaf⟩
      have hleaves : sampleUser.normalized.leaves = [["a".toList], ["c".toList]] := by decide +kernel
      rw [hleaves] at hpaths
      simp only [List.mem_cons, List.not_mem_nil, or_false] at hpaths
      rcases hpaths with rfl | rfl
      · exact absurd (hnone sampleSession (List.mem_singleton_self _)) (by decide +kernel)
      · decide +kernel
    · cases hsplit
      cases hl
    · simp at hsplit

/-- The session puts a table where the user has a number: the origins keep the path of the number. -/
theorem origins_keep_replaced : ¬OriginsDescribe ⟨[sampleUser, sampleNested]⟩ := by
  intro h
  have hkept := leavesKept_of_originsDescribe (by
    intro layer hlayer
    have hmem : layer ∈ [sampleUser, sampleNested] := hlayer
    simp only [List.mem_cons, List.not_mem_nil, or_false] at hmem
    rcases hmem with rfl | rfl
    · exact plainKeys_sampleUser
    · refine .table (by simp) fun entry hentry => ?_
      rw [List.mem_singleton.mp hentry]
      exact plainKeys_scalars [("b".toList, 2)] (by simp)) h
  have hreplaced := hkept [] sampleUser [sampleNested] ["a".toList] 1 rfl (by simp) (by decide +kernel)
    (fun l hl => by rw [List.mem_singleton.mp hl]; decide +kernel) sampleNested
    (List.mem_singleton_self _)
  exact absurd hreplaced (by decide +kernel)

end Supercodex.Config

/-!
# The effective config (`config/src/state.rs`)

Renaming legacy keys at every level of the merge comes to the same as renaming them in each layer first
and merging the layers plainly.
-/

namespace Supercodex.Config

open ValueTree

variable {S : Type} {path : List Text} {v : TomlValue S}

/-- The value under the keys of a path, from table to table. -/
def valueAt : TomlValue S → List Text → Option (TomlValue S)
  | v, [] => some v
  | .table entries, key :: path => (entries.lookup key).bind (valueAt · path)
  | _, _ :: _ => none

lemma Normal.noLegacy (hnormal : Normal path v) {below : List Text} {entries : TomlMap S}
    (h : valueAt v below = some (.table entries)) : NoLegacy (path ++ below) entries := by
  induction below generalizing path v with
  | nil =>
    rw [valueAt, Option.some.injEq] at h
    rw [h] at hnormal
    rw [List.append_nil]
    cases hnormal with
    | table hlegacy _ => exact hlegacy
  | cons key below ih =>
    cases hnormal with
    | scalar path value | array path items => cases h
    | @table path entries' _ hchildren =>
      rw [valueAt, Option.bind_eq_some_iff] at h
      obtain ⟨child, hchild, h⟩ := h
      have hbelow := ih (hchildren key child hchild) h
      rwa [List.append_assoc] at hbelow

lemma normal_foldl_overlay (hnormal : Normal path v) (layers : List (TomlValue S))
    (hlayers : ∀ layer ∈ layers, Normal path layer ∧ layer.Valid) : Normal path (layers.foldl overlay v) := by
  induction layers generalizing v with
  | nil => exact hnormal
  | cons layer layers ih =>
    rw [List.forall_mem_cons] at hlayers
    exact ih (normal_overlay hnormal hlayers.1.1 hlayers.1.2) hlayers.2

end Supercodex.Config
