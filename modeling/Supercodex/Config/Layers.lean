import Supercodex.Library.ValueTree
import Mathlib.Data.List.AList

/-!
# Config layers (`config/src/state.rs`, `merge.rs`, `fingerprint.rs`, `key_aliases.rs`)

The layers of a config are merged from the lowest precedence to the highest, with legacy keys renamed on
the way. The origins record the layer of every leaf, layer by layer. The version of a layer, a digest of
its config, is a field that nothing here computes.
-/

namespace Supercodex.Config

/-- `TomlValue`, over the scalars of TOML. -/
abbrev TomlValue (S : Type) := ValueTree S

/-- The entries of a TOML table. -/
abbrev TomlMap (S : Type) := List (Text × TomlValue S)

variable {S : Type}

/-! ## Key aliases -/

/-- `ConfigKeyAlias`. -/
structure ConfigKeyAlias where
  tablePath : List Text
  legacyKey : Text
  canonicalKey : Text

/-- The alias in the table of the memories. -/
def memoriesAlias : ConfigKeyAlias where
  tablePath := ["memories".toList]
  legacyKey := "no_memories_if_mcp_or_web_search".toList
  canonicalKey := "disable_on_external_context".toList

/-- `CONFIG_KEY_ALIASES`. -/
def configKeyAliases : List ConfigKeyAlias := [memoriesAlias]

/-- `Map::remove`. -/
def removeKey (key : Text) (table : TomlMap S) : TomlMap S := table.filter fun entry => entry.1 ≠ key

/-- One alias of `normalize_key_aliases`. -/
def normalizeKeyAlias (path : List Text) (table : TomlMap S) (keyAlias : ConfigKeyAlias) : TomlMap S :=
  if path = keyAlias.tablePath then
    match table.lookup keyAlias.legacyKey with
    | none => table
    | some value =>
      let table := removeKey keyAlias.legacyKey table
      if (table.lookup keyAlias.canonicalKey).isSome then table else table ++ [(keyAlias.canonicalKey, value)]
  else table

/-- `normalize_key_aliases`. -/
def normalizeKeyAliases (path : List Text) (table : TomlMap S) : TomlMap S :=
  configKeyAliases.foldl (normalizeKeyAlias path) table

mutual

/-- `normalized_with_key_aliases`. -/
def normalizedWithKeyAliases (path : List Text) : TomlValue S → TomlValue S
  | .scalar value => .scalar value
  | .array items => .array (normalizedItems path items)
  | .table entries => .table (normalizeKeyAliases path (normalizedEntries path entries))

/-- The entries of a table, each normalized under its own path. -/
def normalizedEntries (path : List Text) : TomlMap S → TomlMap S
  | [] => []
  | (key, child) :: entries =>
    (key, normalizedWithKeyAliases (path ++ [key]) child) :: normalizedEntries path entries

/-- The items of an array, each normalized under the path of the array. -/
def normalizedItems (path : List Text) : List (TomlValue S) → List (TomlValue S)
  | [] => []
  | item :: items => normalizedWithKeyAliases path item :: normalizedItems path items

end

/-! ## Merging -/

mutual

/-- How much there is in a value. -/
def weight : TomlValue S → ℕ
  | .scalar _ => 1
  | .array _ => 1
  | .table entries => 1 + entriesWeight entries

/-- How much there is in the entries of a table. -/
def entriesWeight : TomlMap S → ℕ
  | [] => 0
  | (_, child) :: entries => 1 + weight child + entriesWeight entries

end

lemma entriesWeight_append (table table' : TomlMap S) :
    entriesWeight (table ++ table') = entriesWeight table + entriesWeight table' := by
  induction table with
  | nil => simp [entriesWeight]
  | cons entry table ih =>
    rw [List.cons_append, entriesWeight, entriesWeight, ih]
    omega

lemma entriesWeight_removeKey_le (key : Text) (table : TomlMap S) :
    entriesWeight (removeKey key table) ≤ entriesWeight table := by
  induction table with
  | nil => exact le_rfl
  | cons entry table ih =>
    rw [removeKey] at ih ⊢
    rw [List.filter_cons, entriesWeight]
    split
    · rw [entriesWeight]
      omega
    · omega

lemma entriesWeight_removeKey_of_lookup {key : Text} {table : TomlMap S} {value : TomlValue S}
    (h : table.lookup key = some value) :
    entriesWeight (removeKey key table) + (1 + weight value) ≤ entriesWeight table := by
  induction table with
  | nil => cases h
  | cons entry table ih =>
    obtain ⟨k, v⟩ := entry
    rw [ValueTree.lookup_cons_ite] at h
    rw [removeKey, List.filter_cons, ← removeKey, entriesWeight]
    by_cases hk : key = k
    · rw [if_pos hk, Option.some.injEq] at h
      have := entriesWeight_removeKey_le key table
      rw [if_neg (by simpa using hk.symm), ← h]
      omega
    · rw [if_neg hk] at h
      rw [if_pos (by simpa using Ne.symm hk), entriesWeight]
      have := ih h
      omega

lemma entriesWeight_normalizeKeyAlias_le (path : List Text) (table : TomlMap S)
    (keyAlias : ConfigKeyAlias) :
    entriesWeight (normalizeKeyAlias path table keyAlias) ≤ entriesWeight table := by
  rw [normalizeKeyAlias]
  split_ifs
  · split
    · exact le_rfl
    rename_i value hvalue
    have := entriesWeight_removeKey_of_lookup hvalue
    dsimp only
    split_ifs
    · omega
    · rw [entriesWeight_append, entriesWeight, entriesWeight]
      omega
  · exact le_rfl

lemma entriesWeight_normalizeKeyAliases_le (path : List Text) (table : TomlMap S) :
    entriesWeight (normalizeKeyAliases path table) ≤ entriesWeight table := by
  rw [normalizeKeyAliases]
  induction configKeyAliases generalizing table with
  | nil => exact le_rfl
  | cons keyAlias aliases ih =>
    exact (ih _).trans (entriesWeight_normalizeKeyAlias_le path table keyAlias)

mutual

/-- `merge_toml_values_at_path`. -/
def mergeTomlValuesAtPath (base : TomlValue S) (path : List Text) (overlay : TomlValue S) :
    TomlValue S :=
  match overlay, base with
  | .table overlayTable, .table baseTable =>
    .table (mergeEntries path (normalizeKeyAliases path baseTable) (normalizeKeyAliases path overlayTable))
  | overlay, _ => normalizedWithKeyAliases path overlay
termination_by weight overlay
decreasing_by
  have := entriesWeight_normalizeKeyAliases_le path overlayTable
  rw [weight]
  omega

/-- The loop of `merge_toml_values_at_path` over the entries of the overlay. -/
def mergeEntries (path : List Text) (baseTable : TomlMap S) (overlayTable : TomlMap S) : TomlMap S :=
  match overlayTable with
  | [] => baseTable
  | (key, value) :: overlayTable =>
    match baseTable.lookup key with
    | some existing =>
      let merged := mergeTomlValuesAtPath existing (path ++ [key]) value
      mergeEntries path (ValueTree.setEntry baseTable key merged) overlayTable
    | none =>
      let inserted := normalizedWithKeyAliases (path ++ [key]) value
      mergeEntries path (baseTable ++ [(key, inserted)]) overlayTable
termination_by entriesWeight overlayTable
decreasing_by
  all_goals
    rw [entriesWeight]
    omega

end

/-- `merge_toml_values`. -/
def mergeTomlValues (base overlay : TomlValue S) : TomlValue S := mergeTomlValuesAtPath base [] overlay

/-! ## Layers -/

/-- `ConfigLayerSource`. -/
inductive ConfigLayerSource where
  | mdm (domain key : Text)
  | system (file : Text)
  | user (file : Text)
  | project (dotCodexFolder : Text)
  | sessionFlags
  | legacyManagedConfigTomlFromFile (file : Text)
  | legacyManagedConfigTomlFromMdm
deriving DecidableEq

/-- `ConfigLayerMetadata`. -/
structure ConfigLayerMetadata where
  name : ConfigLayerSource
  version : Text
deriving DecidableEq

/-- `ConfigLayerEntry`. The tables of its config have no two entries under one key. -/
structure ConfigLayerEntry (S : Type) where
  name : ConfigLayerSource
  config : TomlValue S
  version : Text
  disabledReason : Option Text
  valid : config.Valid

/-- `ConfigLayerEntry::metadata`. -/
def ConfigLayerEntry.metadata (layer : ConfigLayerEntry S) : ConfigLayerMetadata :=
  ⟨layer.name, layer.version⟩

/-- `ConfigLayerStack`, from the lowest precedence to the highest. -/
structure ConfigLayerStack (S : Type) where
  layers : List (ConfigLayerEntry S)

/-- The origins of the leaves, by their dotted paths. -/
abbrev Origins := AList fun _ : Text => ConfigLayerMetadata

/-- `path.join(".")`. -/
def dotted (path : List Text) : Text := ['.'].intercalate path

mutual

/-- `record_origins`. -/
def recordOrigins (metadata : ConfigLayerMetadata) (path : List Text) (origins : Origins) :
    TomlValue S → Origins
  | .scalar _ => if path = [] then origins else origins.insert (dotted path) metadata
  | .array items => recordItems metadata path 0 origins items
  | .table entries => recordEntries metadata path origins entries

/-- The entries of a table in `record_origins`. -/
def recordEntries (metadata : ConfigLayerMetadata) (path : List Text) (origins : Origins) :
    TomlMap S → Origins
  | [] => origins
  | (key, child) :: entries =>
    recordEntries metadata path (recordOrigins metadata (path ++ [key]) origins child) entries

/-- The items of an array in `record_origins`, from an index on. -/
def recordItems (metadata : ConfigLayerMetadata) (path : List Text) (index : ℕ) (origins : Origins) :
    List (TomlValue S) → Origins
  | [] => origins
  | item :: items =>
    recordItems metadata path (index + 1)
      (recordOrigins metadata (path ++ [Nat.toDigits 10 index]) origins item) items

end

namespace ConfigLayerStack

variable (stack : ConfigLayerStack S)

/-- `ConfigLayerStack::get_layers`, lowest precedence first, without the disabled ones. -/
def getLayers : List (ConfigLayerEntry S) :=
  stack.layers.filter fun layer => layer.disabledReason.isNone

/-- `ConfigLayerStack::effective_config`. -/
def effectiveConfig : TomlValue S :=
  stack.getLayers.foldl (fun merged layer => mergeTomlValues merged layer.config) (.table [])

/-- `ConfigLayerStack::origins`. -/
def origins : Origins :=
  stack.getLayers.foldl (fun origins layer =>
    recordOrigins layer.metadata [] origins (normalizedWithKeyAliases [] layer.config)) ∅

end ConfigLayerStack

end Supercodex.Config
