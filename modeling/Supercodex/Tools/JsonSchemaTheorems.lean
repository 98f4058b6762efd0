import Supercodex.Library.Effects
import Supercodex.Tools.JsonSchema

/-!
# Tool schemas are normalised completely, where nothing escapes the sanitiser

A schema is complete when it has a type or alternatives and the children that its types need. Complete
schemas are what writing a schema and parsing it again gives back. A parsed schema is complete exactly when
no place that is read as a schema has `null` where a default belongs, and an array in the place of a schema
is complete where the sanitiser does not reach.
-/

namespace Supercodex.Tools

open ValueTree AdditionalProperties ValueTree

/-! ## Traversals -/

section

variable {α β : Type} {f : α → Option β}

lemma mapM_eq_some {l : List α} {l' : List β} :
    l.mapM f = some l' ↔ List.Forall₂ (fun a b => f a = some b) l l' := by
  induction l generalizing l' with
  | nil => simp [eq_comm]
  | cons a l ih =>
    rw [List.mapM_cons]
    simp only [Effects.bind_eq_some, Option.pure_def, Option.some_inj]
    constructor
    · rintro ⟨b, hb, l', hl', rfl⟩
      exact .cons hb (ih.mp hl')
    · intro h
      cases h with
      | cons hb hl' => exact ⟨_, hb, _, ih.mpr hl', rfl⟩

lemma traverseOption_eq_some {o : Option α} {o' : Option β} :
    traverseOption f o = some o' ↔ Option.Rel (fun a b => f a = some b) o o' := by
  cases o with
  | none =>
    constructor
    · intro h
      cases h
      exact .none
    · intro h
      cases h
      rfl
  | some a =>
    simp only [traverseOption, Option.map_eq_some_iff]
    constructor
    · rintro ⟨b, hb, rfl⟩
      exact .some hb
    · intro h
      cases h with
      | some hb => exact ⟨_, hb, rfl⟩

/-- The relation of two maps with the same keys whose values are related. -/
def EntriesRel (R : α → β → Prop) : List (Text × α) → List (Text × β) → Prop :=
  List.Forall₂ fun entry entry' => entry'.1 = entry.1 ∧ R entry.2 entry'.2

lemma traverseEntries_eq_some {map : List (Text × α)} {map' : List (Text × β)} :
    traverseEntries f map = some map' ↔ EntriesRel (fun a b => f a = some b) map map' := by
  rw [traverseEntries, mapM_eq_some, EntriesRel]
  have hentry (entry : Text × α) (entry' : Text × β) :
      (f entry.2).map (entry.1, ·) = some entry' ↔ entry'.1 = entry.1 ∧ f entry.2 = some entry'.2 := by
    rw [Option.map_eq_some_iff]
    constructor
    · rintro ⟨b, hb, rfl⟩
      exact ⟨rfl, hb⟩
    · rintro ⟨hkey, hb⟩
      exact ⟨entry'.2, hb, by rw [← hkey]⟩
  constructor
  · exact List.Forall₂.imp fun entry entry' => (hentry entry entry').mp
  · exact List.Forall₂.imp fun entry entry' => (hentry entry entry').mpr

/-- The relation of two values of `additionalProperties` whose schemas are related. -/
inductive AdditionalProperties.Rel (R : α → β → Prop) :
    AdditionalProperties α → AdditionalProperties β → Prop where
  | boolean (allowed : Bool) : Rel R (.boolean allowed) (.boolean allowed)
  | schema {a : α} {b : β} (h : R a b) : Rel R (.schema a) (.schema b)

lemma AdditionalProperties.traverse_eq_some {a : AdditionalProperties α} {b : AdditionalProperties β} :
    a.traverse f = some b ↔ a.Rel (fun a b => f a = some b) b := by
  cases a with
  | boolean allowed =>
    constructor
    · intro h
      cases h
      exact .boolean allowed
    · intro h
      cases h
      rfl
  | schema a =>
    simp only [traverse, Option.map_eq_some_iff]
    constructor
    · rintro ⟨b, hb, rfl⟩
      exact .schema hb
    · intro h
      cases h with
      | schema hb => exact ⟨_, hb, rfl⟩

end

/-- The types that a schema names. -/
def typesOf : Option JsonSchemaType → List JsonSchemaPrimitiveType
  | none => []
  | some (.single schemaType) => [schemaType]
  | some (.multiple schemaTypes) => schemaTypes

namespace SchemaNode

variable {α β : Type} {R S : α → β → Prop} {node : SchemaNode α} {node' : SchemaNode β}

/-- The relation of two schemas that differ in their children, which are related. -/
structure Rel (R : α → β → Prop) (node : SchemaNode α) (node' : SchemaNode β) : Prop where
  schemaType : node'.schemaType = node.schemaType
  description : node'.description = node.description
  enumValues : node'.enumValues = node.enumValues
  items : Option.Rel R node.items node'.items
  properties : Option.Rel (EntriesRel R) node.properties node'.properties
  required : node'.required = node.required
  additionalProperties :
    Option.Rel (AdditionalProperties.Rel R) node.additionalProperties node'.additionalProperties
  anyOf : Option.Rel (List.Forall₂ R) node.anyOf node'.anyOf

lemma traverse_eq_some {f : α → Option β} :
    node.traverse f = some node' ↔ node.Rel (fun a b => f a = some b) node' := by
  simp only [traverse, Effects.bind_eq_some, Option.pure_def, Option.some_inj,
    traverseOption_eq_some, traverseEntries_eq_some, AdditionalProperties.traverse_eq_some, mapM_eq_some]
  constructor
  · rintro ⟨items, hitems, properties, hproperties, additional, hadditional, anyOf, hanyOf, rfl⟩
    exact ⟨rfl, rfl, rfl, hitems, hproperties, rfl, hadditional, hanyOf⟩
  · rintro ⟨hschemaType, hdescription, henum, hitems, hproperties, hrequired, hadditional, hanyOf⟩
    refine ⟨_, hitems, _, hproperties, _, hadditional, _, hanyOf, ?_⟩
    rw [← hschemaType, ← hdescription, ← henum, ← hrequired]

lemma forall₂_toList {o : Option α} {o' : Option β} (h : Option.Rel R o o') :
    List.Forall₂ R o.toList o'.toList := by
  cases h with
  | none => exact .nil
  | some h => exact .cons h .nil

lemma forall₂_getD {γ δ : Type} {T : γ → δ → Prop} {k : γ → List α} {l : δ → List β} {o : Option γ}
    {o' : Option δ} (h : Option.Rel T o o') (himp : ∀ c d, T c d → List.Forall₂ R (k c) (l d)) :
    List.Forall₂ R ((o.map k).getD []) ((o'.map l).getD []) := by
  cases h with
  | none => exact .nil
  | some h => exact himp _ _ h

lemma children_eq (node : SchemaNode α) : node.children = node.items.toList ++
    (node.properties.map fun map => map.map Prod.snd).getD [] ++
      (node.additionalProperties.map AdditionalProperties.children).getD [] ++
        (node.anyOf.map id).getD [] := by
  rw [children, Option.map_id, id]
  cases node.properties <;> rfl

lemma Rel.children (h : node.Rel R node') : List.Forall₂ R node.children node'.children := by
  rw [children_eq, children_eq]
  refine List.rel_append (List.rel_append (List.rel_append (forall₂_toList h.items) ?_) ?_) ?_
  · refine forall₂_getD h.properties fun map map' hmap => ?_
    rw [List.forall₂_map_left_iff, List.forall₂_map_right_iff]
    exact hmap.imp fun _ _ hentry => hentry.2
  · refine forall₂_getD h.additionalProperties fun additional additional' hadditional => ?_
    cases hadditional with
    | boolean => exact .nil
    | schema h => exact .cons h .nil
  · exact forall₂_getD h.anyOf fun schemas schemas' hschemas => hschemas

lemma Rel.imp (h : node.Rel R node') (himp : ∀ a ∈ node.children, ∀ b, R a b → S a b) :
    node.Rel S node' := by
  obtain ⟨schemaType, description, enumValues, items, properties, required, additional, anyOf⟩ := node
  obtain ⟨_, _, _, items', properties', _, additional', anyOf'⟩ := node'
  obtain ⟨hschemaType, hdescription, henum, hitems, hproperties, hrequired, hadditional, hanyOf⟩ := h
  simp only [SchemaNode.children, List.mem_append] at himp
  refine ⟨hschemaType, hdescription, henum, ?_, ?_, hrequired, ?_, ?_⟩
  · cases hitems with
    | none => exact .none
    | some h => exact .some (himp _ (by simp) _ h)
  · cases hproperties with
    | none => exact .none
    | @some map map' h =>
      have hmem : ∀ entry ∈ map, ∀ b, R entry.2 b → S entry.2 b := fun entry hentry =>
        himp entry.2 (.inl (.inl (.inr (List.mem_map_of_mem hentry))))
      exact .some (((List.forall₂_and_left _ _).mpr ⟨hmem, h⟩).imp
        fun entry entry' h => ⟨h.2.1, h.1 _ h.2.2⟩)
  · cases hadditional with
    | none => exact .none
    | some h =>
      cases h with
      | boolean allowed => exact .some (.boolean allowed)
      | schema h => exact .some (.schema (himp _ (by simp [AdditionalProperties.children]) _ h))
  · cases hanyOf with
    | none => exact .none
    | @some schemas schemas' h =>
      have hmem : ∀ schema ∈ schemas, ∀ b, R schema b → S schema b := fun schema hschema =>
        himp schema (.inr hschema)
      exact .some (((List.forall₂_and_left _ _).mpr ⟨hmem, h⟩).imp fun a b h => h.1 _ h.2)

lemma traverse_congr {f g : α → Option β} (h : ∀ child ∈ node.children, f child = g child) :
    node.traverse f = node.traverse g := by
  refine Option.ext fun node' => ?_
  rw [traverse_eq_some, traverse_eq_some]
  constructor
  · exact fun hrel => hrel.imp fun a ha b hb => by rw [← h a ha, hb]
  · exact fun hrel => hrel.imp fun a ha b hb => by rw [h a ha, hb]

end SchemaNode

/-! ## Reading -/

/-- A field that is there and not null. -/
def present : Option JsonValue → Option JsonValue
  | none | some (.scalar .null) => none
  | some value => some value

lemma readOption_eq {α : Type} (read : JsonValue → Option α) (o : Option JsonValue) :
    readOption read o = traverseOption read (present o) := by
  cases o with
  | none => rfl
  | some value =>
    cases value with
    | scalar value => cases value <;> rfl
    | array | table => rfl

/-- What the fields of a struct are read as. -/
structure NodeRead (look : Text → Option JsonValue) (node : SchemaNode JsonValue) : Prop where
  schemaType : readOption readType (look "type".toList) = some node.schemaType
  description : readOption readString (look "description".toList) = some node.description
  enumValues : readOption readArray (look "enum".toList) = some node.enumValues
  items : present (look "items".toList) = node.items
  properties : readOption readMap (look "properties".toList) = some node.properties
  required : readOption (fun value => (readArray value).bind (·.mapM readString))
    (look "required".toList) = some node.required
  additionalProperties :
    (present (look "additionalProperties".toList)).map readAdditionalProperties =
      node.additionalProperties
  anyOf : readOption readArray (look "anyOf".toList) = some node.anyOf

variable {α β : Type}

lemma traverseOption_some (f : α → β) (o : Option α) :
    traverseOption (fun a => some (f a)) o = some (o.map f) := by
  cases o <;> rfl

section

variable {node : SchemaNode JsonValue} {value : JsonValue}

lemma readNode_eq_some :
    readNode value = some node ↔ ∃ fields, structFields value = some fields ∧ NodeRead (List.lookup · fields) node := by
  have hitems (o : Option JsonValue) : readOption some o = some (present o) := by
    rw [readOption_eq, show (some : JsonValue → _) = fun a => some (id a) from rfl, traverseOption_some,
      Option.map_id, id]
  have hadditional (o : Option JsonValue) : readOption (fun value => some (readAdditionalProperties value)) o =
      some ((present o).map readAdditionalProperties) := by
    rw [readOption_eq, traverseOption_some]
  simp only [readNode, Effects.bind_eq_some, Option.pure_def, Option.some_inj,
    hitems, hadditional]
  constructor
  · rintro ⟨fields, hfields, _, h1, _, h2, _, h3, _, rfl, _, h5, _, h6, _, rfl, _, h8, rfl⟩
    exact ⟨fields, hfields, h1, h2, h3, rfl, h5, h6, rfl, h8⟩
  · rintro ⟨fields, hfields, h1, h2, h3, h4, h5, h6, h7, h8⟩
    refine ⟨fields, hfields, _, h1, _, h2, _, h3, _, rfl, _, h5, _, h6, _, rfl, _, h8, ?_⟩
    rw [h4, h7]

/-- The values of an object. -/
def mapValues : Option JsonValue → List JsonValue
  | some (.table map) => map.map Prod.snd
  | _ => []

/-- The values of an array. -/
def arrayValues : Option JsonValue → List JsonValue
  | some (.array values) => values
  | _ => []

/-- The schema that additional properties must have. -/
def additionalValues (value : Option JsonValue) : List JsonValue :=
  ((present value).map fun value => (readAdditionalProperties value).children).getD []

/-- The values that are read as schemas. -/
def childrenOf (look : Text → Option JsonValue) : List JsonValue :=
  (present (look "items".toList)).toList ++ mapValues (look "properties".toList) ++
    additionalValues (look "additionalProperties".toList) ++ arrayValues (look "anyOf".toList)

variable {o : Option JsonValue}

lemma children_of_readMap {properties : Option JsonMap}
    (h : readOption readMap o = some properties) : (properties.getD []).map Prod.snd = mapValues o := by
  cases o with
  | none => cases h; rfl
  | some value =>
    cases value with
    | scalar value => cases value <;> cases h; rfl
    | array values => cases h
    | table map => cases h; rfl

lemma children_of_readArray {anyOf : Option (List JsonValue)}
    (h : readOption readArray o = some anyOf) : anyOf.getD [] = arrayValues o := by
  cases o with
  | none => cases h; rfl
  | some value =>
    cases value with
    | scalar value => cases value <;> cases h; rfl
    | array values => cases h; rfl
    | table map => cases h

lemma NodeRead.children {look : Text → Option JsonValue}
    (h : NodeRead look node) : node.children = childrenOf look := by
  rw [SchemaNode.children, childrenOf, children_of_readMap h.properties, children_of_readArray h.anyOf,
    h.items, ← h.additionalProperties, additionalValues, Option.map_map]
  rfl

lemma present_eq_self (h : o ≠ some (.scalar .null)) : present o = o := by
  cases o with
  | none => rfl
  | some value =>
    cases value with
    | scalar value =>
      cases value with
      | null => exact absurd rfl h
      | _ => rfl
    | array | table => rfl

lemma eq_some_of_present (h : present o = some value) : o = some value := by
  by_cases ho : o = some (.scalar .null)
  · rw [ho] at h
    cases h
  · rwa [present_eq_self ho] at h

variable {child : JsonValue}

lemma exists_field_of_mem_childrenOf {look : Text → Option JsonValue}
    (h : child ∈ childrenOf look) : ∃ key value, look key = some value ∧ child.depth ≤ value.depth := by
  simp only [childrenOf, List.mem_append] at h
  obtain ((hitems | hproperties) | hadditional) | hanyOf := h
  · exact ⟨_, _, eq_some_of_present (Option.mem_toList.mp hitems), le_rfl⟩
  · unfold mapValues at hproperties
    split at hproperties
    case h_1 map hmap =>
      obtain ⟨entry, hentry, rfl⟩ := List.mem_map.mp hproperties
      exact ⟨_, _, hmap, (depth_lt_table (show (entry.1, entry.2) ∈ map from hentry)).le⟩
    case h_2 => cases hproperties
  · rw [additionalValues] at hadditional
    cases hvalue : present (look "additionalProperties".toList) with
    | none =>
      rw [hvalue] at hadditional
      cases hadditional
    | some value =>
      rw [hvalue] at hadditional
      refine ⟨_, _, eq_some_of_present hvalue, le_of_eq ?_⟩
      simp only [Option.map_some, Option.getD_some, readAdditionalProperties] at hadditional
      split at hadditional
      · cases hadditional
      · rw [List.mem_singleton.mp hadditional]
  · unfold arrayValues at hanyOf
    split at hanyOf
    case h_1 values hvalues => exact ⟨_, _, hvalues, (depth_lt_array hanyOf).le⟩
    case h_2 => cases hanyOf

lemma depth_lt_of_structFields {fields : JsonMap}
    (h : structFields value = some fields) {key : Text} {field : JsonValue}
    (hfield : fields.lookup key = some field) : field.depth < value.depth := by
  have hmem := mem_of_lookup_eq_some hfield
  cases value with
  | scalar value => cases h
  | array values =>
    simp only [structFields] at h
    split_ifs at h
    cases h
    exact depth_lt_array (List.of_mem_zip hmem).2
  | table map =>
    cases h
    exact depth_lt_table hmem

lemma depth_lt_of_mem_children (h : readNode value = some node) (hchild : child ∈ node.children) :
    child.depth < value.depth := by
  obtain ⟨fields, hfields, hread⟩ := readNode_eq_some.mp h
  rw [hread.children] at hchild
  obtain ⟨key, field, hfield, hle⟩ := exists_field_of_mem_childrenOf hchild
  exact hle.trans_lt (depth_lt_of_structFields hfields hfield)

lemma readSchema_eq_fromValue {depth : ℕ} (h : value.depth < depth) :
    readSchema depth value = fromValue value := by
  induction hn : value.depth using Nat.strong_induction_on generalizing depth value with
  | h n ih =>
    obtain _ | depth := depth
    · omega
    rw [fromValue, readSchema, readSchema]
    cases hnode : readNode value with
    | none => rfl
    | some node =>
      have hchildren : node.traverse (readSchema depth) = node.traverse (readSchema value.depth) := by
        refine SchemaNode.traverse_congr fun child hchild => ?_
        have hlt := depth_lt_of_mem_children hnode hchild
        rw [ih _ (hn ▸ hlt) (show child.depth < depth by omega) rfl,
          ih _ (hn ▸ hlt) (show child.depth < value.depth by omega) rfl]
      show (node.traverse (readSchema depth)).bind _ = (node.traverse (readSchema value.depth)).bind _
      rw [hchildren]

variable {schema : JsonSchema}

/-- A schema is read from its fields, and then its children are. -/
theorem fromValue_eq_some : fromValue value = some schema ↔
    ∃ node, readNode value = some node ∧ node.Rel (fun child schema => fromValue child = some schema)
      schema.node := by
  have hchildren (node : SchemaNode JsonValue) (h : readNode value = some node) :
      node.traverse (readSchema value.depth) = node.traverse fromValue :=
    SchemaNode.traverse_congr fun child hchild =>
      readSchema_eq_fromValue (depth_lt_of_mem_children h hchild)
  rw [fromValue, readSchema]
  simp only [Effects.bind_eq_some, Option.pure_def, Option.some_inj]
  constructor
  · rintro ⟨node, hnode, node', hnode', rfl⟩
    rw [hchildren node hnode, SchemaNode.traverse_eq_some] at hnode'
    exact ⟨node, hnode, hnode'⟩
  · rintro ⟨node, hnode, hrel⟩
    refine ⟨node, hnode, schema.node, ?_, by cases schema; rfl⟩
    rw [hchildren node hnode]
    exact SchemaNode.traverse_eq_some.mpr hrel

/-! ## Complete schemas -/

/-- A type, and which children are there, make a complete schema. -/
structure Complete (schemaType : Option JsonSchemaType) (hasItems hasProperties hasAnyOf : Bool) : Prop where
  canonical (type : JsonSchemaPrimitiveType) : schemaType ≠ some (.multiple [type])
  typed : typesOf schemaType = [] → hasAnyOf = true
  properties : .object ∈ typesOf schemaType → hasProperties = true
  items : .array ∈ typesOf schemaType → hasItems = true

/-- The schema is complete. -/
def SchemaNode.Complete {α : Type} (node : SchemaNode α) : Prop :=
  Tools.Complete node.schemaType node.items.isSome node.properties.isSome node.anyOf.isSome

/-- What is asked of a schema: a type or alternatives, and the children that its types need. -/
structure SchemaNode.Normalised {α : Type} (node : SchemaNode α) : Prop where
  typed : node.schemaType.isSome ∨ node.anyOf.isSome
  properties : .object ∈ typesOf node.schemaType → node.properties.isSome
  items : .array ∈ typesOf node.schemaType → node.items.isSome

/-- Every schema inside a schema has a property. -/
inductive JsonSchema.Forall (P : SchemaNode JsonSchema → Prop) : JsonSchema → Prop where
  | mk {node : SchemaNode JsonSchema} (h : P node) (children : ∀ child ∈ node.children, Forall P child) :
    Forall P (.mk node)

/-- Every schema that is read from a value is complete. -/
inductive Whole : JsonValue → Prop where
  | mk {value : JsonValue} {node : SchemaNode JsonValue} (read : readNode value = some node)
    (complete : node.Complete) (children : ∀ child ∈ node.children, Whole child) : Whole value

lemma whole_iff (hread : readNode value = some node) :
    Whole value ↔ node.Complete ∧ ∀ child ∈ node.children, Whole child := by
  constructor
  · rintro ⟨hread', hcomplete, hchildren⟩
    rw [hread] at hread'
    cases hread'
    exact ⟨hcomplete, hchildren⟩
  · exact fun h => .mk hread h.1 h.2

lemma SchemaNode.Complete.normalised {node : SchemaNode JsonSchema} (h : node.Complete) :
    node.Normalised := by
  refine ⟨?_, h.properties, h.items⟩
  cases hschemaType : node.schemaType with
  | none =>
    refine .inr (h.typed ?_)
    rw [hschemaType]
    rfl
  | some => exact .inl rfl

lemma JsonSchema.Forall.imp {P Q : SchemaNode JsonSchema → Prop}
    (h : schema.Forall P) (himp : ∀ node, P node → Q node) : schema.Forall Q := by
  induction h with
  | mk h _ ih => exact .mk (himp _ h) ih

lemma isSome_of_rel {R : α → β → Prop} {o : Option α} {o' : Option β} (h : Option.Rel R o o') :
    o'.isSome = o.isSome := by
  cases h <;> rfl

lemma SchemaNode.Rel.complete_iff {R : α → β → Prop} {node : SchemaNode α}
    {node' : SchemaNode β} (h : node.Rel R node') : node'.Complete ↔ node.Complete := by
  rw [Complete, Complete, h.schemaType, isSome_of_rel h.items, isSome_of_rel h.properties,
    isSome_of_rel h.anyOf]

lemma exists_of_forall₂ {R : α → β → Prop} {l : List α} {l' : List β}
    (h : List.Forall₂ R l l') : (∀ a ∈ l, ∃ b ∈ l', R a b) ∧ ∀ b ∈ l', ∃ a ∈ l, R a b := by
  induction h with
  | nil => exact ⟨by simp, by simp⟩
  | cons h _ ih =>
    constructor
    · rw [List.forall_mem_cons]
      exact ⟨⟨_, List.mem_cons_self, h⟩, fun a ha =>
        (ih.1 a ha).imp fun b hb => ⟨List.mem_cons_of_mem _ hb.1, hb.2⟩⟩
    · rw [List.forall_mem_cons]
      exact ⟨⟨_, List.mem_cons_self, h⟩, fun b hb =>
        (ih.2 b hb).imp fun a ha => ⟨List.mem_cons_of_mem _ ha.1, ha.2⟩⟩

lemma forall_complete_iff (h : fromValue value = some schema) :
    schema.Forall SchemaNode.Complete ↔ Whole value := by
  induction hn : value.depth using Nat.strong_induction_on generalizing value schema with
  | h n ih =>
    obtain ⟨node, hread, hrel⟩ := fromValue_eq_some.mp h
    obtain ⟨hleft, hright⟩ := exists_of_forall₂ hrel.children
    have hdepth (child : JsonValue) (hchild : child ∈ node.children) : child.depth < n :=
      hn ▸ depth_lt_of_mem_children hread hchild
    rw [whole_iff hread]
    constructor
    · intro hforall
      obtain ⟨hcomplete, hchildren⟩ := hforall
      refine ⟨hrel.complete_iff.mp hcomplete, fun child hchild => ?_⟩
      obtain ⟨schema, hmem, hschema⟩ := hleft child hchild
      exact (ih _ (hdepth child hchild) hschema rfl).mp (hchildren schema hmem)
    · rintro ⟨hcomplete, hchildren⟩
      obtain ⟨node'⟩ := schema
      refine .mk (hrel.complete_iff.mpr hcomplete) fun schema hmem => ?_
      obtain ⟨child, hchild, hschema⟩ := hright schema hmem
      exact (ih _ (hdepth child hchild) hschema rfl).mpr (hchildren child hchild)

/-! ## Sanitising -/

lemma sanitizeValues_eq (values : List JsonValue) : sanitizeValues values = values.map sanitizeJsonSchema := by
  induction values with
  | nil => rfl
  | cons value values ih => rw [sanitizeValues, ih, List.map_cons]

section

variable (map : JsonMap)

lemma sanitizeEntries_eq :
    sanitizeEntries map = map.map fun entry => (entry.1, sanitizeJsonSchema entry.2) := by
  induction map with
  | nil => rfl
  | cons entry map ih => rw [sanitizeEntries, ih, List.map_cons]

/-- What happens to the value under a key. -/
def sanitizeChild (key : Text) (value : JsonValue) : JsonValue :=
  if key = "properties".toList then sanitizeProperties value
  else if key = "items".toList ∨ key = "prefixItems".toList ∨ key = "anyOf".toList then
    sanitizeJsonSchema value
  else if key = "additionalProperties".toList then
    if isBool value then value else sanitizeJsonSchema value
  else value

lemma lookup_sanitizeChildren (key : Text) :
    (sanitizeChildren map).lookup key = (map.lookup key).map (sanitizeChild key) := by
  induction map with
  | nil => rfl
  | cons entry map ih =>
    obtain ⟨key', value⟩ := entry
    rw [sanitizeChildren, lookup_cons_ite, lookup_cons_ite, ih]
    split
    case isTrue h =>
      subst h
      rfl
    case isFalse => rfl

lemma containsKey_sanitizeChildren (key : Text) :
    containsKey (sanitizeChildren map) key = containsKey map key := by
  rw [containsKey, lookup_sanitizeChildren, Option.isSome_map, containsKey]

lemma lookup_collapseConst {key : Text} (hconst : key ≠ "const".toList)
    (henum : key ≠ "enum".toList) : (collapseConst map).lookup key = map.lookup key := by
  rw [collapseConst]
  split
  · rw [lookup_insertEntry, if_neg henum, lookup_removeEntry, if_neg hconst]
  · rfl

end

lemma normalizedSchemaTypes_congr {map map' : JsonMap}
    (h : map'.lookup "type".toList = map.lookup "type".toList) :
    normalizedSchemaTypes map' = normalizedSchemaTypes map := by
  rw [normalizedSchemaTypes, h, normalizedSchemaTypes]

variable {types : List JsonSchemaPrimitiveType}

section

variable (map : JsonMap)

lemma lookup_writeSchemaTypes {key : Text}
    (h : key ≠ "type".toList) : (writeSchemaTypes map types).lookup key = map.lookup key := by
  rw [writeSchemaTypes.eq_def]
  split
  · rw [lookup_removeEntry, if_neg h]
  · rw [lookup_insertEntry, if_neg h]
  · rw [lookup_insertEntry, if_neg h]

lemma lookup_insertDefault (key k : Text) (value : JsonValue) (needed : Prop)
    [Decidable needed] :
    (if needed ∧ ¬containsKey map key then insertEntry map key value else map).lookup k =
      if k = key ∧ needed then some ((map.lookup k).getD value) else map.lookup k := by
  by_cases hneeded : needed
  · by_cases hkey : k = key
    · subst hkey
      rw [if_pos (show k = k ∧ needed from ⟨rfl, hneeded⟩)]
      cases hlookup : map.lookup k with
      | none =>
        rw [if_pos ⟨hneeded, by simp [containsKey, hlookup]⟩, lookup_insertEntry, if_pos rfl]
        rfl
      | some existing =>
        rw [if_neg (by simp [containsKey, hlookup]), hlookup]
        rfl
    · rw [if_neg (show ¬(k = key ∧ needed) from fun h => hkey h.1)]
      split
      · rw [lookup_insertEntry, if_neg hkey]
      · rfl
  · rw [if_neg fun h => hneeded h.1, if_neg fun h => hneeded h.2]

lemma lookup_ensureDefaultChildren (types : List JsonSchemaPrimitiveType) (key : Text) :
    (ensureDefaultChildrenForSchemaTypes map types).lookup key =
      if key = "items".toList ∧ .array ∈ types then some ((map.lookup key).getD stringSchema)
      else if key = "properties".toList ∧ .object ∈ types then some ((map.lookup key).getD (.table []))
      else map.lookup key := by
  rw [ensureDefaultChildrenForSchemaTypes, lookup_insertDefault, lookup_insertDefault]
  by_cases hitems : key = "items".toList
  · subst hitems
    have hne : "items".toList ≠ "properties".toList := by decide
    rw [if_neg (show ¬("items".toList = "properties".toList ∧ _) from fun h => hne h.1)]
  · rw [if_neg (show ¬(key = "items".toList ∧ _) from fun h => hitems h.1),
      if_neg (show ¬(key = "items".toList ∧ _) from fun h => hitems h.1)]

lemma containsKey_collapseConst (key : Text) : containsKey (collapseConst map) key =
    if containsKey map "const".toList then key == "enum".toList || key != "const".toList && containsKey map key
    else containsKey map key := by
  have hne : "enum".toList ≠ "const".toList := by decide
  rw [collapseConst]
  generalize "const".toList = const at *
  generalize "enum".toList = enum at *
  cases hconst : map.lookup const with
  | none => rw [if_neg (by simp [containsKey, hconst])]
  | some value =>
    rw [if_pos (by simp [containsKey, hconst]), containsKey, lookup_insertEntry, lookup_removeEntry]
    by_cases henum : key = enum
    · simp [henum]
    by_cases hkey : key = const
    · simp [hkey, Ne.symm hne]
    have hbeq : (key == enum) = false := beq_eq_false_iff_ne.mpr henum
    have hbne : (key != const) = true := bne_iff_ne.mpr hkey
    rw [if_neg henum, if_neg hkey, hbeq, hbne]
    rfl

lemma schemaTypes_sanitizeChildren :
    schemaTypes (collapseConst (sanitizeChildren map)) = schemaTypes (collapseConst map) ∧
      keepsAlternatives (collapseConst (sanitizeChildren map)) = keepsAlternatives map := by
  have hkeys (key : Text) : containsKey (collapseConst (sanitizeChildren map)) key =
      containsKey (collapseConst map) key := by
    rw [containsKey_collapseConst, containsKey_collapseConst, containsKey_sanitizeChildren,
      containsKey_sanitizeChildren]
  have htype (map : JsonMap) : (collapseConst map).lookup "type".toList = map.lookup "type".toList :=
    lookup_collapseConst map (by decide) (by decide)
  have hsame : (sanitizeChildren map).lookup "type".toList = map.lookup "type".toList := by
    rw [lookup_sanitizeChildren]
    exact congrFun (congrArg Option.map (funext fun value => rfl)) _ |>.trans Option.map_id'
  have htypes : normalizedSchemaTypes (collapseConst (sanitizeChildren map)) =
      normalizedSchemaTypes (collapseConst map) :=
    normalizedSchemaTypes_congr (by rw [htype, htype, hsame])
  have hanyOf : containsKey (collapseConst (sanitizeChildren map)) "anyOf".toList =
      containsKey map "anyOf".toList := by
    rw [hkeys, containsKey, lookup_collapseConst map (by decide) (by decide), containsKey]
  constructor
  · simp only [schemaTypes, htypes, inferredSchemaType, hkeys]
  · rw [keepsAlternatives, hanyOf, htypes, normalizedSchemaTypes_congr (htype map), keepsAlternatives]

/-- The type that a list of types is written as. -/
def writtenType : List JsonSchemaPrimitiveType → JsonSchemaType
  | [schemaType] => .single schemaType
  | schemaTypes => .multiple schemaTypes

lemma lookup_type_writeSchemaTypes (h : types ≠ []) :
    (writeSchemaTypes map types).lookup "type".toList = some (typeValue (writtenType types)) := by
  match types with
  | [] => exact absurd rfl h
  | [schemaType] => rw [writeSchemaTypes, lookup_insertEntry, if_pos rfl]; rfl
  | _ :: _ :: _ =>
    rw [writeSchemaTypes, lookup_insertEntry, if_pos rfl]
    · rfl
    all_goals simp

end

/-! ## What a sanitised value is read as -/

lemma readPrimitiveType_typeNameValue (type : JsonSchemaPrimitiveType) :
    readPrimitiveType (typeNameValue type) = some type :=
  schemaTypeFromStr_name type

lemma readType_typeValue (type : JsonSchemaType) : readType (typeValue type) = some type := by
  cases type with
  | single type =>
    show (readPrimitiveType (typeNameValue type)).map _ = _
    rw [readPrimitiveType_typeNameValue]
    rfl
  | multiple types =>
    have hread : (types.map typeNameValue).mapM readPrimitiveType = some types := by
      rw [mapM_eq_some, List.forall₂_map_left_iff, List.forall₂_same]
      exact fun type _ => readPrimitiveType_typeNameValue type
    show ((types.map typeNameValue).mapM readPrimitiveType).map _ = _
    rw [hread]
    rfl

lemma readOption_typeValue (type : JsonSchemaType) :
    readOption readType (some (typeValue type)) = some (some type) := by
  have hpresent : present (some (typeValue type)) = some (typeValue type) := by cases type <;> rfl
  rw [readOption_eq, hpresent]
  show (readType (typeValue type)).map some = _
  rw [readType_typeValue]
  rfl

lemma typesOf_writtenType :
    typesOf (some (writtenType types)) = types := by
  match types with
  | [] => rfl
  | [_] => rfl
  | _ :: _ :: _ => rfl

lemma writtenType_ne_multiple (type : JsonSchemaPrimitiveType) :
    some (writtenType types) ≠ some (.multiple [type]) := by
  match types with
  | [] => exact fun h => nomatch h
  | [_] => exact fun h => nomatch h
  | _ :: _ :: _ => exact fun h => nomatch h

lemma schemaTypes_ne_nil (map : JsonMap) : schemaTypes map ≠ [] := by
  rw [schemaTypes]
  split
  case isTrue => exact List.cons_ne_nil _ _
  case isFalse h => exact h

lemma sanitizeJsonSchema_eq_null (value : JsonValue) :
    sanitizeJsonSchema value = .scalar .null ↔ value = .scalar .null := by
  cases value with
  | scalar value => cases value <;> simp [sanitizeJsonSchema, stringSchema]
  | array values | table map => simp [sanitizeJsonSchema]

lemma sanitizeProperties_eq_null (value : JsonValue) :
    sanitizeProperties value = .scalar .null ↔ value = .scalar .null := by
  cases value <;> simp [sanitizeProperties]

section

variable (o : Option JsonValue)

section

variable {f : JsonValue → JsonValue} (hf : ∀ value, f value = .scalar .null ↔ value = .scalar .null)
include hf

lemma map_eq_null : o.map f = some (.scalar .null) ↔ o = some (.scalar .null) := by
  cases o with
  | none => simp
  | some value => simp [hf]

lemma present_map : present (o.map f) = (present o).map f := by
  by_cases ho : o = some (.scalar .null)
  · rw [(map_eq_null o hf).mpr ho, ho]
    rfl
  · rw [present_eq_self ho, present_eq_self (mt (map_eq_null o hf).mp ho)]

end

lemma present_map_sanitize : present (o.map sanitizeJsonSchema) = (present o).map sanitizeJsonSchema :=
  present_map o sanitizeJsonSchema_eq_null

lemma mapValues_map_sanitizeProperties :
    mapValues (o.map sanitizeProperties) = (mapValues o).map sanitizeJsonSchema := by
  cases o with
  | none => rfl
  | some value =>
    cases value with
    | scalar value | array values => rfl
    | table map =>
      show (sanitizeEntries map).map Prod.snd = (map.map Prod.snd).map sanitizeJsonSchema
      rw [sanitizeEntries_eq, List.map_map, List.map_map]
      rfl

lemma arrayValues_map_sanitize :
    arrayValues (o.map sanitizeJsonSchema) = (arrayValues o).map sanitizeJsonSchema := by
  cases o with
  | none => rfl
  | some value =>
    cases value with
    | scalar value => cases value <;> rfl
    | array values => exact sanitizeValues_eq values
    | table map => rfl

lemma additionalValues_map_sanitize : additionalValues (o.map (sanitizeChild "additionalProperties".toList)) =
    (additionalValues o).map sanitizeJsonSchema := by
  cases o with
  | none => rfl
  | some value =>
    cases value with
    | scalar value => cases value <;> rfl
    | array values | table map => rfl

end

/-- The fields of an object whose children are sanitised. -/
def sanitizedLook (map : JsonMap) (key : Text) : Option JsonValue :=
  (map.lookup key).map (sanitizeChild key)

lemma mapValues_sanitizedLook (map : JsonMap) : mapValues (sanitizedLook map "properties".toList) =
    (mapValues (map.lookup "properties".toList)).map sanitizeJsonSchema :=
  mapValues_map_sanitizeProperties _

lemma childrenOf_sanitizedLook (map : JsonMap) :
    childrenOf (sanitizedLook map) = (childrenOf (List.lookup · map)).map sanitizeJsonSchema := by
  have hitems : present (sanitizedLook map "items".toList) =
      (present (map.lookup "items".toList)).map sanitizeJsonSchema := present_map_sanitize _
  have hadditional : additionalValues (sanitizedLook map "additionalProperties".toList) =
      (additionalValues (map.lookup "additionalProperties".toList)).map sanitizeJsonSchema :=
    additionalValues_map_sanitize _
  have hanyOf : arrayValues (sanitizedLook map "anyOf".toList) =
      (arrayValues (map.lookup "anyOf".toList)).map sanitizeJsonSchema := arrayValues_map_sanitize _
  rw [childrenOf, childrenOf, hitems, mapValues_sanitizedLook, hadditional, hanyOf, List.map_append,
    List.map_append, List.map_append, Option.toList_map]

section

variable {map : JsonMap}

lemma lookup_sanitizeObject_of_keeps (h : keepsAlternatives map = true) {key : Text}
    (hconst : key ≠ "const".toList) (henum : key ≠ "enum".toList) :
    (sanitizeObject (sanitizeChildren map)).lookup key = sanitizedLook map key := by
  rw [sanitizeObject, if_pos ((schemaTypes_sanitizeChildren map).2.trans h),
    lookup_collapseConst _ hconst henum, lookup_sanitizeChildren, sanitizedLook]

section

variable (h : keepsAlternatives map = false)
include h

lemma sanitizeObject_of_not_keeps :
    sanitizeObject (sanitizeChildren map) =
      ensureDefaultChildrenForSchemaTypes
        (writeSchemaTypes (collapseConst (sanitizeChildren map)) (schemaTypes (collapseConst map)))
        (schemaTypes (collapseConst map)) := by
  obtain ⟨htypes, hkeeps⟩ := schemaTypes_sanitizeChildren map
  rw [sanitizeObject, if_neg (by rw [hkeeps, h]; exact Bool.false_ne_true), htypes]

/-- The sanitiser adds missing items and properties, and changes no other field here. -/
lemma lookup_sanitizeObject {key : Text}
    (hconst : key ≠ "const".toList) (henum : key ≠ "enum".toList) (htype : key ≠ "type".toList) :
    (sanitizeObject (sanitizeChildren map)).lookup key =
      if key = "items".toList ∧ .array ∈ schemaTypes (collapseConst map) then
        some ((sanitizedLook map key).getD stringSchema)
      else if key = "properties".toList ∧ .object ∈ schemaTypes (collapseConst map) then
        some ((sanitizedLook map key).getD (.table []))
      else sanitizedLook map key := by
  rw [sanitizeObject_of_not_keeps h, lookup_ensureDefaultChildren, lookup_writeSchemaTypes _ htype,
    lookup_collapseConst _ hconst henum, lookup_sanitizeChildren, sanitizedLook]

lemma lookup_type_sanitizeObject :
    (sanitizeObject (sanitizeChildren map)).lookup "type".toList =
      some (typeValue (writtenType (schemaTypes (collapseConst map)))) := by
  have hitems : "type".toList ≠ "items".toList := by decide
  have hproperties : "type".toList ≠ "properties".toList := by decide
  rw [sanitizeObject_of_not_keeps h, lookup_ensureDefaultChildren, if_neg fun h => hitems h.1,
    if_neg fun h => hproperties h.1, lookup_type_writeSchemaTypes _ (schemaTypes_ne_nil _)]

end

/-- The children of a sanitised object are those of the object, sanitised, and perhaps the default one. -/
lemma childrenOf_sanitizeObject (map : JsonMap) :
    childrenOf (List.lookup · (sanitizeObject (sanitizeChildren map))) =
        (childrenOf (List.lookup · map)).map sanitizeJsonSchema ∨
      childrenOf (List.lookup · (sanitizeObject (sanitizeChildren map))) =
        stringSchema :: (childrenOf (List.lookup · map)).map sanitizeJsonSchema := by
  rw [← childrenOf_sanitizedLook, childrenOf, childrenOf]
  cases hkeeps : keepsAlternatives map with
  | true =>
    left
    have hlook := @lookup_sanitizeObject_of_keeps map hkeeps
    rw [hlook (by decide) (by decide), hlook (by decide) (by decide), hlook (by decide) (by decide),
      hlook (by decide) (by decide)]
  | false =>
    have hlook := @lookup_sanitizeObject map hkeeps
    have hitems := @hlook "items".toList (by decide) (by decide) (by decide)
    have hproperties : mapValues ((sanitizeObject (sanitizeChildren map)).lookup "properties".toList) =
        mapValues (sanitizedLook map "properties".toList) := by
      rw [hlook (by decide) (by decide) (by decide), if_neg fun h => absurd h.1 (by decide)]
      split
      · cases sanitizedLook map "properties".toList <;> rfl
      · rfl
    have hadditional : (sanitizeObject (sanitizeChildren map)).lookup "additionalProperties".toList =
        sanitizedLook map "additionalProperties".toList := by
      rw [hlook (by decide) (by decide) (by decide), if_neg fun h => absurd h.1 (by decide),
        if_neg fun h => absurd h.1 (by decide)]
    have hanyOf : (sanitizeObject (sanitizeChildren map)).lookup "anyOf".toList =
        sanitizedLook map "anyOf".toList := by
      rw [hlook (by decide) (by decide) (by decide), if_neg fun h => absurd h.1 (by decide),
        if_neg fun h => absurd h.1 (by decide)]
    rw [hproperties, hadditional, hanyOf, hitems]
    split
    · cases hvalue : sanitizedLook map "items".toList with
      | none => exact .inr rfl
      | some value => exact .inl rfl
    · rw [if_neg fun h => absurd h.1 (by decide)]
      exact .inl rfl

/-! ## The exact condition -/

/-- The type goes with the children that are there, among the fields of a schema. -/
def CompleteFields (look : Text → Option JsonValue) : Prop :=
  ∀ schemaType, readOption readType (look "type".toList) = some schemaType →
    Complete schemaType (present (look "items".toList)).isSome (present (look "properties".toList)).isSome
      (present (look "anyOf".toList)).isSome

/-- What the sanitiser needs of an object. One that keeps its alternatives is read as it is. In any other,
no child that its types need may be null. -/
def SoundObject (map : JsonMap) : Prop :=
  if keepsAlternatives map then CompleteFields (List.lookup · map)
  else
    (.object ∈ schemaTypes (collapseConst map) →
        map.lookup "properties".toList ≠ some (.scalar .null)) ∧
      (.array ∈ schemaTypes (collapseConst map) → map.lookup "items".toList ≠ some (.scalar .null))

/-- The fields of a struct, taken from the values of an array. -/
def arrayFields (values : List JsonValue) (key : Text) : Option JsonValue := (fieldNames.zip values).lookup key

/-- The schemas among the fields, apart from those of the properties. -/
def schemasOf (look : Text → Option JsonValue) : List JsonValue :=
  (present (look "items".toList)).toList ++ additionalValues (look "additionalProperties".toList) ++
    arrayValues (look "anyOf".toList)

/-- Nothing that is read as a schema escapes the sanitiser. An array is read field by field, after each of its
values was sanitised as if it were a schema: the one for the properties too, so that these must be complete as they
are, and so must be the type with the children. -/
inductive Sound : JsonValue → Prop where
  | bool (value : Bool) : Sound (.scalar (.bool value))
  | object {map : JsonMap} (object : SoundObject map)
    (children : ∀ child ∈ childrenOf (List.lookup · map), Sound child) : Sound (.table map)
  | array {values : List JsonValue} (complete : CompleteFields (arrayFields values))
    (properties : ∀ property ∈ mapValues ((arrayFields values "properties".toList).map sanitizeJsonSchema),
      Whole property)
    (schemas : ∀ schema ∈ schemasOf (arrayFields values), Sound schema) : Sound (.array values)

lemma isSome_of_readOption {read : JsonValue → Option α} {o' : Option α}
    (h : readOption read o = some o') : o'.isSome = (present o).isSome := by
  rw [readOption_eq, traverseOption_eq_some] at h
  exact isSome_of_rel h

lemma complete_writtenType (h : types ≠ [])
    (hasItems hasProperties hasAnyOf : Bool) :
    Complete (some (writtenType types)) hasItems hasProperties hasAnyOf ↔
      (.object ∈ types → hasProperties = true) ∧ (.array ∈ types → hasItems = true) := by
  constructor
  · intro hcomplete
    have hproperties := hcomplete.properties
    have hitems := hcomplete.items
    rw [typesOf_writtenType] at hproperties hitems
    exact ⟨hproperties, hitems⟩
  · rintro ⟨hproperties, hitems⟩
    refine ⟨writtenType_ne_multiple, ?_, ?_, ?_⟩ <;> rw [typesOf_writtenType]
    · exact fun hnil => absurd hnil h
    · exact hproperties
    · exact hitems

lemma isSome_present_getD (o : Option JsonValue) (value : JsonValue) (h : present (some value) = some value) :
    (present (some (o.getD value))).isSome = true ↔ o ≠ some (.scalar .null) := by
  by_cases ho : o = some (.scalar .null)
  · simp [ho, present]
  · cases o with
    | none => simp [h]
    | some value' => simp [present_eq_self ho, ho]

/-- What is read is complete when its type and its children are those of complete fields. -/
lemma complete_iff_completeFields {look seen : Text → Option JsonValue}
    (h : NodeRead seen node) (htype : readOption readType (look "type".toList) = some node.schemaType)
    (hitems : (present (seen "items".toList)).isSome = (present (look "items".toList)).isSome)
    (hproperties : (present (seen "properties".toList)).isSome = (present (look "properties".toList)).isSome)
    (hanyOf : (present (seen "anyOf".toList)).isSome = (present (look "anyOf".toList)).isSome) :
    node.Complete ↔ CompleteFields look := by
  rw [SchemaNode.Complete, isSome_of_readOption h.properties, isSome_of_readOption h.anyOf, ← h.items, hitems,
    hproperties, hanyOf]
  constructor
  · intro hcomplete schemaType hread
    rw [htype] at hread
    exact Option.some.inj hread ▸ hcomplete
  · exact fun hcomplete => hcomplete _ htype

/-- A sanitised object is complete when the sanitiser has what it needs of it. -/
lemma complete_sanitizeObject_iff
    (h : NodeRead (List.lookup · (sanitizeObject (sanitizeChildren map))) node) :
    node.Complete ↔ SoundObject map := by
  rw [SoundObject]
  cases hkeeps : keepsAlternatives map with
  | true =>
    have hlook := @lookup_sanitizeObject_of_keeps map hkeeps
    rw [if_pos rfl]
    refine complete_iff_completeFields h ?_ ?_ ?_ ?_
    · have hsame : sanitizedLook map "type".toList = map.lookup "type".toList := Option.map_id'
      rw [← hsame, ← hlook (by decide) (by decide)]
      exact h.schemaType
    all_goals rw [hlook (by decide) (by decide), sanitizedLook]
    · exact (congrArg _ (present_map_sanitize _)).trans Option.isSome_map
    · exact (congrArg _ (present_map _ sanitizeProperties_eq_null)).trans Option.isSome_map
    · exact (congrArg _ (present_map_sanitize _)).trans Option.isSome_map
  | false =>
    have hlook := @lookup_sanitizeObject map hkeeps
    have htype := h.schemaType
    rw [lookup_type_sanitizeObject hkeeps, readOption_typeValue, Option.some_inj] at htype
    rw [SchemaNode.Complete, isSome_of_readOption h.properties, isSome_of_readOption h.anyOf, ← h.items,
      if_neg Bool.false_ne_true, ← htype, complete_writtenType (schemaTypes_ne_nil _),
      hlook (by decide) (by decide) (by decide), hlook (by decide) (by decide) (by decide)]
    refine and_congr (imp_congr_right fun hobject => ?_) (imp_congr_right fun harray => ?_)
    · rw [if_neg fun h => absurd h.1 (by decide), if_pos ⟨rfl, hobject⟩, isSome_present_getD _ _ rfl]
      exact not_congr (map_eq_null _ sanitizeProperties_eq_null)
    · rw [if_pos ⟨rfl, harray⟩, isSome_present_getD _ _ rfl]
      exact not_congr (map_eq_null _ sanitizeJsonSchema_eq_null)

lemma whole_stringSchema : Whole stringSchema := by
  have hread : readNode stringSchema =
      some ⟨some (.single .string), none, none, none, none, none, none, none⟩ := rfl
  refine .mk hread ⟨?_, ?_, ?_, ?_⟩ ?_
  · exact fun type h => nomatch h
  · exact fun h => nomatch h
  · exact fun h => by simp [typesOf] at h
  · exact fun h => by simp [typesOf] at h
  · exact fun child hchild => nomatch hchild

lemma sanitize_mem_childrenOf_sanitizeObject (h : child ∈ childrenOf (List.lookup · map)) :
    sanitizeJsonSchema child ∈ childrenOf (List.lookup · (sanitizeObject (sanitizeChildren map))) := by
  have hmem := List.mem_map_of_mem (f := sanitizeJsonSchema) h
  obtain heq | heq := childrenOf_sanitizeObject map <;> rw [heq]
  · exact hmem
  · exact List.mem_cons_of_mem _ hmem

lemma whole_childrenOf_sanitizeObject_iff (map : JsonMap) :
    (∀ child ∈ childrenOf (List.lookup · (sanitizeObject (sanitizeChildren map))), Whole child) ↔
      ∀ child ∈ childrenOf (List.lookup · map), Whole (sanitizeJsonSchema child) := by
  obtain heq | heq := childrenOf_sanitizeObject map <;> rw [heq]
  · exact List.forall_mem_map
  · simp [whole_stringSchema]

/-! ## Arrays in the place of schemas -/

lemma arrayFields_map (values : List JsonValue) (key : Text) :
    arrayFields (values.map sanitizeJsonSchema) key = (arrayFields values key).map sanitizeJsonSchema := by
  unfold arrayFields
  generalize fieldNames = names
  induction names generalizing values with
  | nil => rfl
  | cons name names ih =>
    cases values with
    | nil => rfl
    | cons value values =>
      rw [List.map_cons, List.zip_cons_cons, List.zip_cons_cons, lookup_cons_ite, lookup_cons_ite, ih]
      split <;> rfl

lemma exists_name_of_readPrimitiveType {type : JsonSchemaPrimitiveType}
    (h : readPrimitiveType value = some type) :
    ∃ name, schemaTypeFromStr name = some type ∧
      (value = .scalar (.string name) ∨ value = .table [(name, .scalar .null)]) := by
  unfold readPrimitiveType at h
  split at h
  · exact ⟨_, h, .inl rfl⟩
  · exact ⟨_, h, .inr rfl⟩
  · cases h

/-- No sanitised object names a type. -/
lemma readPrimitiveType_sanitize {type : JsonSchemaPrimitiveType}
    (h : readPrimitiveType (sanitizeJsonSchema value) = some type) : readPrimitiveType value = some type := by
  cases value with
  | scalar value =>
    cases value with
    | bool value => cases h
    | _ => exact h
  | array values => cases h
  | table map =>
    obtain ⟨name, hname, heq | heq⟩ := exists_name_of_readPrimitiveType h
    · cases heq
    have hmap : sanitizeObject (sanitizeChildren map) = [(name, .scalar .null)] := by
      rw [sanitizeJsonSchema] at heq
      exact table.inj heq
    cases hkeeps : keepsAlternatives map with
    | true =>
      -- the object has its alternatives, and these are no type
      have hlook := @lookup_sanitizeObject_of_keeps map hkeeps "anyOf".toList (by decide) (by decide)
      rw [keepsAlternatives, Bool.and_eq_true] at hkeeps
      have hanyOf : ((sanitizeObject (sanitizeChildren map)).lookup "anyOf".toList).isSome = true := by
        rw [hlook, sanitizedLook, Option.isSome_map]
        exact hkeeps.2
      rw [hmap, lookup_cons_ite] at hanyOf
      split at hanyOf
      · rename_i hsame
        rw [← hsame] at hname
        cases hname
      · cases hanyOf
    | false =>
      have htype := lookup_type_sanitizeObject hkeeps
      rw [hmap, lookup_cons_ite] at htype
      split at htype
      · cases hwritten : writtenType (schemaTypes (collapseConst map)) <;> rw [hwritten] at htype <;> cases htype
      · cases htype

lemma readType_sanitize {type : JsonSchemaType}
    (h : readType (sanitizeJsonSchema value) = some type) : readType value = some type := by
  cases value with
  | scalar value =>
    cases value with
    | bool value => cases h
    | _ => exact h
  | array values =>
    rw [sanitizeJsonSchema, sanitizeValues_eq] at h
    obtain ⟨types, htypes, rfl⟩ := Option.map_eq_some_iff.mp h
    rw [mapM_eq_some, List.forall₂_map_left_iff] at htypes
    show (values.mapM readPrimitiveType).map _ = _
    rw [mapM_eq_some.mpr (htypes.imp fun _ _ => readPrimitiveType_sanitize)]
    rfl
  | table map =>
    obtain ⟨type, htype, rfl⟩ := Option.map_eq_some_iff.mp (show (readPrimitiveType _).map _ = _ from h)
    show (readPrimitiveType _).map _ = _
    rw [readPrimitiveType_sanitize htype]
    rfl

lemma readOption_readType_sanitize {schemaType : Option JsonSchemaType}
    (h : readOption readType (o.map sanitizeJsonSchema) = some schemaType) :
    readOption readType o = some schemaType := by
  rw [readOption_eq, present_map_sanitize] at h
  rw [readOption_eq]
  cases hpresent : present o with
  | none => rwa [hpresent] at h
  | some value =>
    rw [hpresent] at h
    obtain ⟨type, htype, rfl⟩ := Option.map_eq_some_iff.mp h
    exact Option.map_eq_some_iff.mpr ⟨type, readType_sanitize htype, rfl⟩

lemma additionalValues_sanitize (o : Option JsonValue) :
    additionalValues (o.map sanitizeJsonSchema) = (additionalValues o).map sanitizeJsonSchema ∨
      additionalValues (o.map sanitizeJsonSchema) = [stringSchema] ∧ additionalValues o = [] := by
  cases o with
  | none => exact .inl rfl
  | some value =>
    cases value with
    | scalar value =>
      cases value with
      | bool value => exact .inr ⟨rfl, rfl⟩
      | _ => exact .inl rfl
    | array values | table map => exact .inl rfl

/-- The children of an array whose values are sanitised. -/
lemma whole_childrenOf_iff (values : List JsonValue) :
    (∀ child ∈ childrenOf (arrayFields (values.map sanitizeJsonSchema)), Whole child) ↔
      (∀ property ∈ mapValues ((arrayFields values "properties".toList).map sanitizeJsonSchema), Whole property) ∧
        ∀ schema ∈ schemasOf (arrayFields values), Whole (sanitizeJsonSchema schema) := by
  have hadditional : (∀ child ∈ additionalValues ((arrayFields values "additionalProperties".toList).map
        sanitizeJsonSchema), Whole child) ↔
      ∀ child ∈ additionalValues (arrayFields values "additionalProperties".toList),
        Whole (sanitizeJsonSchema child) := by
    rcases additionalValues_sanitize (arrayFields values "additionalProperties".toList) with heq | ⟨heq, hnone⟩
    · rw [heq, List.forall_mem_map]
    · rw [heq, hnone]
      exact iff_of_true (by simpa using whole_stringSchema) (by simp)
  simp only [childrenOf, schemasOf, List.forall_mem_append, arrayFields_map, present_map_sanitize,
    Option.toList_map, arrayValues_map_sanitize, hadditional, List.forall_mem_map]
  tauto

variable {values : List JsonValue}

lemma sanitize_mem_childrenOf (h : child ∈ schemasOf (arrayFields values)) :
    sanitizeJsonSchema child ∈ childrenOf (arrayFields (values.map sanitizeJsonSchema)) := by
  simp only [childrenOf, schemasOf, List.mem_append, arrayFields_map, present_map_sanitize, Option.toList_map,
    arrayValues_map_sanitize] at h ⊢
  rcases h with (hitems | hadditional) | hanyOf
  · exact .inl (.inl (.inl (List.mem_map_of_mem hitems)))
  · rcases additionalValues_sanitize (arrayFields values "additionalProperties".toList) with heq | ⟨-, hnone⟩
    · rw [heq]
      exact .inl (.inr (List.mem_map_of_mem hadditional))
    · rw [hnone] at hadditional
      cases hadditional
  · exact .inr (List.mem_map_of_mem hanyOf)

lemma complete_array_iff (h : NodeRead (arrayFields (values.map sanitizeJsonSchema)) node) :
    node.Complete ↔ CompleteFields (arrayFields values) := by
  refine complete_iff_completeFields h (readOption_readType_sanitize (arrayFields_map values _ ▸ h.schemaType))
    ?_ ?_ ?_
  all_goals rw [arrayFields_map, present_map_sanitize, Option.isSome_map]

lemma depth_lt_of_mem_schemasOf (h : child ∈ schemasOf (arrayFields values))
    : child.depth < (array values).depth := by
  have hmem : child ∈ childrenOf (arrayFields values) := by
    simp only [childrenOf, schemasOf, List.mem_append] at h ⊢
    tauto
  obtain ⟨key, field, hfield, hle⟩ := exists_field_of_mem_childrenOf hmem
  exact hle.trans_lt (depth_lt_array (List.of_mem_zip (mem_of_lookup_eq_some hfield)).2)

lemma whole_sanitize_array_iff
    (hread : readNode (.array (values.map sanitizeJsonSchema)) = some node)
    (hiff : ∀ schema ∈ schemasOf (arrayFields values), sanitizeJsonSchema schema ∈ node.children →
      (Whole (sanitizeJsonSchema schema) ↔ Sound schema)) :
    Whole (.array (values.map sanitizeJsonSchema)) ↔ Sound (.array values) := by
  obtain ⟨fields, hfields, hnode⟩ := readNode_eq_some.mp hread
  have hlook : (List.lookup · fields) = arrayFields (values.map sanitizeJsonSchema) := by
    rw [structFields] at hfields
    split at hfields
    · cases hfields
      rfl
    · cases hfields
  rw [hlook] at hnode
  have hschemas : (∀ schema ∈ schemasOf (arrayFields values), Whole (sanitizeJsonSchema schema)) ↔
      ∀ schema ∈ schemasOf (arrayFields values), Sound schema :=
    forall₂_congr fun schema hschema => hiff schema hschema (hnode.children ▸ sanitize_mem_childrenOf hschema)
  rw [whole_iff hread, complete_array_iff hnode, hnode.children, whole_childrenOf_iff, hschemas]
  constructor
  · exact fun h => .array h.1 h.2.1 h.2.2
  · intro hsound
    cases hsound with
    | array complete properties schemas => exact ⟨complete, properties, schemas⟩

/-- What a value is sanitised to is complete exactly when the value is sound, where it can be read. -/
theorem whole_sanitize_iff (h : fromValue (sanitizeJsonSchema value) = some schema) :
    Whole (sanitizeJsonSchema value) ↔ Sound value := by
  induction hn : value.depth using Nat.strong_induction_on generalizing value schema with
  | h n ih =>
    obtain ⟨node, hread, hrel⟩ := fromValue_eq_some.mp h
    have hparsed : ∀ child ∈ node.children, ∃ schema, fromValue child = some schema := fun child hchild =>
      ((exists_of_forall₂ hrel.children).1 child hchild).imp fun schema hschema => hschema.2
    cases value with
    | scalar value =>
      cases value with
      | bool value => exact iff_of_true whole_stringSchema (.bool value)
      | null | number literal | string text => cases hread
    | array values =>
      rw [sanitizeJsonSchema, sanitizeValues_eq] at hread ⊢
      refine whole_sanitize_array_iff hread fun child hchild hmem => ?_
      obtain ⟨schema, hschema⟩ := hparsed _ hmem
      have hlt := depth_lt_of_mem_schemasOf hchild
      exact ih _ (by omega) hschema rfl
    | table map =>
      obtain ⟨fields, hfields, hnode⟩ := readNode_eq_some.mp hread
      cases hfields
      rw [sanitizeJsonSchema] at hread ⊢
      rw [whole_iff hread, complete_sanitizeObject_iff hnode, hnode.children, whole_childrenOf_sanitizeObject_iff]
      have hiff : ∀ child ∈ childrenOf (List.lookup · map), (Whole (sanitizeJsonSchema child) ↔ Sound child) := by
        intro child hchild
        obtain ⟨schema, hschema⟩ := hparsed _ (hnode.children ▸ sanitize_mem_childrenOf_sanitizeObject hchild)
        obtain ⟨key, field, hfield, hle⟩ := exists_field_of_mem_childrenOf hchild
        have hlt := depth_lt_table (mem_of_lookup_eq_some hfield)
        exact ih _ (by omega) hschema rfl
      rw [forall₂_congr hiff]
      constructor
      · exact fun h => .object h.1 h.2
      · intro hsound
        cases hsound with
        | object object children => exact ⟨object, children⟩

end

end

/-! ## Writing and reading again -/

/-- `AdditionalProperties` with its schema changed. -/
def AdditionalProperties.map {α β : Type} (f : α → β) : AdditionalProperties α → AdditionalProperties β
  | boolean allowed => boolean allowed
  | schema value => schema (f value)

/-- The value that `AdditionalProperties` is written as. -/
def AdditionalProperties.value : AdditionalProperties JsonValue → JsonValue
  | boolean allowed => .scalar (.bool allowed)
  | schema value => value

/-- The schema with its children changed. -/
def SchemaNode.map {α β : Type} (f : α → β) (node : SchemaNode α) : SchemaNode β where
  schemaType := node.schemaType
  description := node.description
  enumValues := node.enumValues
  items := node.items.map f
  properties := node.properties.map (List.map fun entry => (entry.1, f entry.2))
  required := node.required
  additionalProperties := node.additionalProperties.map (AdditionalProperties.map f)
  anyOf := node.anyOf.map (List.map f)

/-- The fields of a schema whose children are written, in their order. -/
def fieldValues (node : SchemaNode JsonValue) : List (Option JsonValue) :=
  [node.schemaType.map typeValue, node.description.map textValue, node.enumValues.map ValueTree.array,
    node.items, node.properties.map ValueTree.table,
    node.required.map fun names => .array (names.map textValue),
    node.additionalProperties.map AdditionalProperties.value, node.anyOf.map ValueTree.array]

/-- The object of these fields. -/
def writtenFields (node : SchemaNode JsonValue) : JsonMap := presentFields (fieldValues node)

namespace SchemaNode

variable {α β : Type} {f : α → β} {node : SchemaNode α}

lemma children_map : (node.map f).children = node.children.map f := by
  have hproperties : (((node.properties.map (List.map fun entry => (entry.1, f entry.2))).getD []).map Prod.snd) =
      ((node.properties.getD []).map Prod.snd).map f := by
    cases node.properties with
    | none => rfl
    | some properties =>
      show (properties.map fun entry => (entry.1, f entry.2)).map Prod.snd = (properties.map Prod.snd).map f
      rw [List.map_map, List.map_map]
      rfl
  have hadditional : ((node.additionalProperties.map (AdditionalProperties.map f)).map
      AdditionalProperties.children).getD [] =
        ((node.additionalProperties.map AdditionalProperties.children).getD []).map f := by
    cases node.additionalProperties with
    | none => rfl
    | some additional => cases additional <;> rfl
  have hanyOf : (node.anyOf.map (List.map f)).getD [] = (node.anyOf.getD []).map f := by
    cases node.anyOf <;> rfl
  rw [children, children, List.map_append, List.map_append, List.map_append, ← hproperties, ← hadditional,
    ← hanyOf, ← Option.toList_map]
  rfl

lemma map_map {γ : Type} (g : β → γ) : (node.map f).map g = node.map fun a => g (f a) := by
  have hentries : List.map (fun entry : Text × β => (entry.1, g entry.2)) ∘
      List.map (fun entry : Text × α => (entry.1, f entry.2)) = List.map fun entry => (entry.1, g (f entry.2)) := by
    funext entries
    simp
  have hadditional : AdditionalProperties.map g ∘ AdditionalProperties.map f =
      AdditionalProperties.map fun a => g (f a) := by
    funext additional
    cases additional <;> rfl
  simp only [map, Option.map_map, hentries, hadditional, List.map_comp_map]
  rfl

lemma complete_map : (node.map f).Complete ↔ node.Complete := by
  simp only [Complete, map, Option.isSome_map]

lemma rel_map {R : β → α → Prop}
    (h : ∀ child ∈ node.children, R (f child) child) : (node.map f).Rel R node := by
  obtain ⟨schemaType, description, enumValues, items, properties, required, additional, anyOf⟩ := node
  simp only [children, List.mem_append] at h
  refine ⟨rfl, rfl, rfl, ?_, ?_, rfl, ?_, ?_⟩
  · cases items with
    | none => exact .none
    | some schema => exact .some (h schema (by simp))
  · cases properties with
    | none => exact .none
    | some properties =>
      refine .some ?_
      rw [EntriesRel, List.forall₂_map_left_iff, List.forall₂_same]
      exact fun entry hentry => ⟨rfl, h entry.2 (.inl (.inl (.inr (List.mem_map_of_mem hentry))))⟩
  · cases additional with
    | none => exact .none
    | some additional =>
      cases additional with
      | boolean allowed => exact .some (.boolean allowed)
      | schema schema => exact .some (.schema (h schema (by simp [AdditionalProperties.children])))
  · cases anyOf with
    | none => exact .none
    | some schemas =>
      refine .some ?_
      rw [List.forall₂_map_left_iff, List.forall₂_same]
      exact fun schema hschema => h schema (.inr hschema)

end SchemaNode

lemma entriesValue_eq (properties : List (Text × JsonSchema)) :
    entriesValue properties = properties.map fun entry => (entry.1, toValue entry.2) := by
  induction properties with
  | nil => rfl
  | cons entry properties ih => rw [entriesValue, ih, List.map_cons]

lemma schemasValue_eq (schemas : List JsonSchema) : schemasValue schemas = schemas.map toValue := by
  induction schemas with
  | nil => rfl
  | cons schema schemas ih => rw [schemasValue, ih, List.map_cons]

lemma toValue_eq (schema : JsonSchema) :
    toValue schema = .table (writtenFields (schema.node.map toValue)) := by
  obtain ⟨schemaType, description, enumValues, items, properties, required, additional, anyOf⟩ := schema
  have hitems : itemsValue items = items.map toValue := by cases items <;> rfl
  have hproperties : propertiesValue properties = (properties.map
      (List.map fun entry => (entry.1, toValue entry.2))).map table := by
    cases properties with
    | none => rfl
    | some properties => rw [propertiesValue, entriesValue_eq]; rfl
  have hadditional : additionalPropertiesValue additional =
      (additional.map (map toValue)).map value := by
    cases additional with
    | none => rfl
    | some additional => cases additional <;> rfl
  have hanyOf : anyOfValue anyOf = (anyOf.map (List.map toValue)).map array := by
    cases anyOf with
    | none => rfl
    | some schemas => rw [anyOfValue, schemasValue_eq]; rfl
  rw [toValue, hitems, hproperties, hadditional, hanyOf]
  rfl

lemma lookup_presentFields {values : List (Option JsonValue)} (h : fieldNames.length ≤ values.length)
    (key : Text) : (presentFields values).lookup key = ((fieldNames.zip values).lookup key).join := by
  have hnodup : ((fieldNames.zip values).map Prod.fst).Nodup := by
    rw [List.map_fst_zip h]
    decide
  rw [presentFields]
  generalize fieldNames.zip values = fields at hnodup
  induction fields with
  | nil => rfl
  | cons field fields ih =>
    obtain ⟨name, value⟩ := field
    rw [List.map_cons, List.nodup_cons] at hnodup
    rw [lookup_cons_ite]
    cases value with
    | some value =>
      show ((name, value) :: List.filterMap _ fields).lookup key = _
      rw [lookup_cons_ite, ih hnodup.2]
      split <;> rfl
    | none =>
      rw [List.filterMap_cons_none rfl, ih hnodup.2]
      split
      case isTrue h =>
        rw [h, lookup_eq_none_of_not_mem hnodup.1]
        rfl
      case isFalse => rfl

section

variable {node : SchemaNode JsonValue}

lemma lookup_writtenFields (key : Text) :
    (writtenFields node).lookup key = ((fieldNames.zip (fieldValues node)).lookup key).join :=
  lookup_presentFields le_rfl key

lemma normalizedSchemaTypes_writtenFields :
    normalizedSchemaTypes (writtenFields node) = typesOf node.schemaType := by
  have htype : (writtenFields node).lookup "type".toList = node.schemaType.map typeValue :=
    lookup_writtenFields _
  rw [normalizedSchemaTypes, htype]
  cases node.schemaType with
  | none => rfl
  | some schemaType =>
    cases schemaType with
    | single type =>
      show (schemaTypeFromStr (schemaTypeName type)).toList = [type]
      rw [schemaTypeFromStr_name]
      rfl
    | multiple types =>
      show (types.map typeNameValue).filterMap typeFromValue = types
      have hread : typeFromValue ∘ typeNameValue = some := by
        ext type
        simp [typeFromValue, typeNameValue, schemaTypeFromStr_name]
      rw [List.filterMap_map, hread, List.filterMap_some]

lemma containsKey_anyOf_writtenFields :
    containsKey (writtenFields node) "anyOf".toList = node.anyOf.isSome :=
  (congrArg _ (lookup_writtenFields _)).trans Option.isSome_map

lemma writtenType_typesOf {schemaType : JsonSchemaType}
    (h : ∀ type, some schemaType ≠ some (.multiple [type])) : writtenType (typesOf (some schemaType)) = schemaType := by
  cases schemaType with
  | single type => rfl
  | multiple types =>
    match types with
    | [] => rfl
    | [type] => exact absurd rfl (h type)
    | _ :: _ :: _ => rfl

/-- Sanitising changes no field of a complete schema. -/
lemma lookup_sanitize_writtenFields (h : node.Complete) (key : Text) :
    (sanitizeObject (writtenFields node)).lookup key = (writtenFields node).lookup key := by
  have hconst : (writtenFields node).lookup "const".toList = none := lookup_writtenFields _
  have hcollapse : collapseConst (writtenFields node) = writtenFields node := by
    rw [collapseConst, hconst]
  rw [sanitizeObject, hcollapse, keepsAlternatives, schemaTypes, normalizedSchemaTypes_writtenFields,
    containsKey_anyOf_writtenFields]
  by_cases hnil : typesOf node.schemaType = []
  · rw [if_pos]
    rw [h.typed hnil, hnil]
    rfl
  · obtain ⟨schemaType, hschemaType⟩ : ∃ schemaType, node.schemaType = some schemaType := by
      cases hschemaType : node.schemaType with
      | none => rw [hschemaType] at hnil; exact absurd rfl hnil
      | some schemaType => exact ⟨schemaType, rfl⟩
    rw [if_neg (by simp [hnil]), if_neg hnil, lookup_ensureDefaultChildren]
    have hwritten : (writeSchemaTypes (writtenFields node) (typesOf node.schemaType)).lookup key =
        (writtenFields node).lookup key := by
      by_cases hkey : key = "type".toList
      · have hcanonical := h.canonical
        rw [hkey, lookup_type_writeSchemaTypes _ hnil, lookup_writtenFields]
        show _ = node.schemaType.map typeValue
        rw [hschemaType] at hcanonical ⊢
        rw [writtenType_typesOf hcanonical, Option.map_some]
      · exact lookup_writeSchemaTypes _ hkey
    have hthere {value : JsonValue} (hsome : ((writtenFields node).lookup key).isSome) :
        some (((writtenFields node).lookup key).getD value) = (writtenFields node).lookup key := by
      obtain ⟨existing, hexisting⟩ := Option.isSome_iff_exists.mp hsome
      rw [hexisting]
      rfl
    rw [hwritten]
    split
    case isTrue hitems =>
      refine hthere ?_
      rw [hitems.1, lookup_writtenFields]
      exact h.items hitems.2
    case isFalse =>
      split
      case isTrue hproperties =>
        refine hthere ?_
        rw [hproperties.1, lookup_writtenFields]
        exact Option.isSome_map.trans (h.properties hproperties.2)
      case isFalse => rfl

lemma readOption_map {read : JsonValue → Option α} {f : α → JsonValue}
    (hne : ∀ a, f a ≠ .scalar .null) (hread : ∀ a, read (f a) = some a) (o : Option α) :
    readOption read (o.map f) = some o := by
  cases o with
  | none => rfl
  | some a =>
    rw [readOption_eq, present_eq_self (by simp [hne a])]
    show (read (f a)).map some = _
    rw [hread]
    rfl

section

variable (htables : ∀ child ∈ node.children, ∃ map, child = .table map)
include htables

/-- What is written is read back, if the children are objects. -/
lemma nodeRead_writtenFields : NodeRead (List.lookup · (writtenFields node)) node := by
  have hlook : (List.lookup · (writtenFields node)) =
      fun key => ((fieldNames.zip (fieldValues node)).lookup key).join := funext lookup_writtenFields
  have hnames (names : List Text) : (names.map textValue).mapM readString = some names := by
    rw [mapM_eq_some, List.forall₂_map_left_iff, List.forall₂_same]
    exact fun name _ => rfl
  simp only [SchemaNode.children, List.mem_append] at htables
  rw [hlook]
  refine ⟨readOption_map ?_ readType_typeValue _, readOption_map (f := textValue) nofun (fun _ => rfl) _,
    readOption_map (f := array) nofun (fun _ => rfl) _, ?_, readOption_map (f := table) nofun (fun _ => rfl) _,
    readOption_map (f := fun names : List Text => array (names.map textValue)) nofun hnames _, ?_,
    readOption_map (f := array) nofun (fun _ => rfl) _⟩
  · intro type
    cases type <;> nofun
  · show present node.items = node.items
    cases hitems : node.items with
    | none => rfl
    | some child =>
      obtain ⟨map, rfl⟩ := htables child (by simp [hitems])
      rfl
  · show (present (node.additionalProperties.map value)).map readAdditionalProperties = _
    cases hadditional : node.additionalProperties with
    | none => rfl
    | some additional =>
      cases additional with
      | boolean allowed => rfl
      | schema child =>
        obtain ⟨map, rfl⟩ := htables child (by simp [hadditional, AdditionalProperties.children])
        rfl

/-- What is written has no null where the sanitiser needs a value. -/
lemma soundObject_writtenFields : SoundObject (writtenFields node) := by
  have hread := nodeRead_writtenFields htables
  rw [SoundObject]
  split
  case isTrue hkeeps =>
    rw [keepsAlternatives, Bool.and_eq_true, decide_eq_true_eq, normalizedSchemaTypes_writtenFields,
      containsKey_anyOf_writtenFields] at hkeeps
    obtain ⟨hnil, hanyOf⟩ := hkeeps
    refine (complete_iff_completeFields hread hread.schemaType rfl rfl rfl).mp ⟨?_, fun _ => hanyOf, ?_, ?_⟩
    · intro type htype
      rw [htype] at hnil
      cases hnil
    all_goals simp [hnil]
  case isFalse =>
    refine ⟨fun _ => ?_, fun _ => ?_⟩ <;> rw [lookup_writtenFields]
    · show node.properties.map table ≠ _
      cases node.properties <;> nofun
    · show node.items ≠ _
      rw [← hread.items]
      intro hnull
      cases eq_some_of_present hnull ▸ hnull

end

lemma sanitizeChildren_fields (names : List Text) (values : List (Option JsonValue)) :
    sanitizeChildren ((names.zip values).filterMap fun field => field.2.map (field.1, ·)) =
      (names.zip (List.zipWith (fun name value => value.map (sanitizeChild name)) names values)).filterMap
        fun field => field.2.map (field.1, ·) := by
  induction names generalizing values with
  | nil => rfl
  | cons name names ih =>
    cases values with
    | nil => rfl
    | cons value values =>
      cases value with
      | none => exact ih values
      | some value => exact congrArg ((name, sanitizeChild name value) :: ·) (ih values)

/-- Sanitising the children of what is written is writing the sanitised children. -/
lemma sanitizeChildren_writtenFields (h : ∀ child ∈ node.children, isBool child = false) :
    sanitizeChildren (writtenFields node) = writtenFields (node.map sanitizeJsonSchema) := by
  have hproperties : (node.properties.map table).map sanitizeProperties =
      (node.properties.map (List.map fun entry => (entry.1, sanitizeJsonSchema entry.2))).map table := by
    cases node.properties with
    | none => rfl
    | some properties => exact congrArg (fun entries => some (table entries)) (sanitizeEntries_eq properties)
  have hadditional : (node.additionalProperties.map value).map (sanitizeChild "additionalProperties".toList) =
      (node.additionalProperties.map (AdditionalProperties.map sanitizeJsonSchema)).map value := by
    cases hadditional : node.additionalProperties with
    | none => rfl
    | some additional =>
      cases additional with
      | boolean allowed => rfl
      | schema child =>
        have hchild := h child (by simp [SchemaNode.children, hadditional, AdditionalProperties.children])
        show some (if isBool child then child else sanitizeJsonSchema child) = _
        rw [hchild]
        rfl
  have hanyOf : (node.anyOf.map array).map sanitizeJsonSchema =
      (node.anyOf.map (List.map sanitizeJsonSchema)).map array := by
    cases node.anyOf with
    | none => rfl
    | some schemas => exact congrArg (fun values => some (array values)) (sanitizeValues_eq schemas)
  refine (sanitizeChildren_fields fieldNames (fieldValues node)).trans (congrArg presentFields ?_)
  exact congrArg₂ List.cons Option.map_id' <| congrArg₂ List.cons Option.map_id' <|
    congrArg₂ List.cons Option.map_id' <| congrArg₂ List.cons rfl <| congrArg₂ List.cons hproperties <|
    congrArg₂ List.cons Option.map_id' <| congrArg₂ List.cons hadditional <| congrArg₂ List.cons hanyOf rfl

end

/-- A written schema that is sanitised. -/
def rewritten (schema : JsonSchema) : JsonValue := sanitizeJsonSchema (toValue schema)

lemma rewritten_eq (schema : JsonSchema) :
    rewritten schema = .table (sanitizeObject (writtenFields (schema.node.map rewritten))) := by
  rw [rewritten, toValue_eq, sanitizeJsonSchema, sanitizeChildren_writtenFields, SchemaNode.map_map]
  · rfl
  rw [SchemaNode.children_map]
  intro child hchild
  obtain ⟨inner, -, rfl⟩ := List.mem_map.mp hchild
  rw [toValue_eq]
  rfl

/-- A complete schema is read back from what it is written as. -/
theorem fromValue_rewritten {schema : JsonSchema} (h : schema.Forall SchemaNode.Complete) :
    fromValue (rewritten schema) = some schema := by
  induction h with
  | @mk node h children ih =>
    refine fromValue_eq_some.mpr ⟨node.map rewritten, ?_, SchemaNode.rel_map ih⟩
    rw [rewritten_eq, readNode_eq_some]
    refine ⟨_, rfl, ?_⟩
    show NodeRead (List.lookup · (sanitizeObject (writtenFields (node.map rewritten)))) _
    rw [funext (lookup_sanitize_writtenFields (SchemaNode.complete_map.mpr h))]
    refine nodeRead_writtenFields fun child hchild => ?_
    rw [SchemaNode.children_map] at hchild
    obtain ⟨inner, -, rfl⟩ := List.mem_map.mp hchild
    exact ⟨_, rewritten_eq inner⟩

lemma sound_toValue (schema : JsonSchema) : Sound (toValue schema) := by
  induction hn : (toValue schema).depth using Nat.strong_induction_on generalizing schema with
  | h n ih =>
    have htables : ∀ child ∈ (schema.node.map toValue).children, ∃ map, child = .table map := by
      intro child hchild
      rw [SchemaNode.children_map] at hchild
      obtain ⟨inner, -, rfl⟩ := List.mem_map.mp hchild
      exact ⟨_, toValue_eq inner⟩
    rw [toValue_eq] at hn ⊢
    refine .object (soundObject_writtenFields htables) fun child hchild => ?_
    obtain ⟨key, field, hfield, hle⟩ := exists_field_of_mem_childrenOf hchild
    have hlt := depth_lt_table (mem_of_lookup_eq_some hfield)
    rw [← (nodeRead_writtenFields htables).children, SchemaNode.children_map] at hchild
    obtain ⟨inner, -, rfl⟩ := List.mem_map.mp hchild
    exact ih _ (by omega) inner rfl

/-- A parsed schema is normalised throughout and comes back from what it is written as exactly when nothing
in the value that it is parsed from escapes the sanitiser. -/
theorem normalised_iff_sound (value : JsonValue) (schema : JsonSchema)
    (h : parseToolInputSchema value = .ok schema) :
    (schema.Forall SchemaNode.Normalised ∧ parseToolInputSchema (toValue schema) = .ok schema) ↔
      Sound value := by
  obtain ⟨hread, hnull⟩ : fromValue (sanitizeJsonSchema value) = some schema ∧
      schema.node.schemaType ≠ some (.single .null) := by
    rw [parseToolInputSchema] at h
    cases hread : fromValue (sanitizeJsonSchema value) with
    | none => rw [hread] at h; cases h
    | some schema' =>
      rw [hread] at h
      simp only at h
      split_ifs at h with hnull
      cases h
      exact ⟨rfl, hnull⟩
  constructor
  · rintro ⟨-, hagain⟩
    have hagain : fromValue (rewritten schema) = some schema := by
      rw [parseToolInputSchema] at hagain
      cases hread' : fromValue (sanitizeJsonSchema (toValue schema)) with
      | none => rw [hread'] at hagain; cases hagain
      | some schema' =>
        rw [hread'] at hagain
        simp only at hagain
        split_ifs at hagain
        cases hagain
        exact hread'
    have hwhole : Whole (rewritten schema) := (whole_sanitize_iff hagain).mpr (sound_toValue schema)
    have hcomplete := (forall_complete_iff hagain).mpr hwhole
    exact (whole_sanitize_iff hread).mp ((forall_complete_iff hread).mp hcomplete)
  · intro hsound
    have hcomplete := (forall_complete_iff hread).mpr ((whole_sanitize_iff hread).mpr hsound)
    refine ⟨hcomplete.imp fun node hnode => hnode.normalised, ?_⟩
    rw [parseToolInputSchema, show fromValue (sanitizeJsonSchema (toValue schema)) = some schema from
      fromValue_rewritten hcomplete]
    exact if_neg hnull

/-- An object type with null properties. -/
def nullProperties : JsonValue :=
  .table [("type".toList, typeNameValue .object), ("properties".toList, .scalar .null)]

/-- Null properties count as given and are then read as absent. -/
theorem nullProperties_not_normalised : ∃ schema, parseToolInputSchema nullProperties = .ok schema ∧
    ¬(schema.Forall SchemaNode.Normalised ∧ parseToolInputSchema (toValue schema) = .ok schema) := by
  have hparse : parseToolInputSchema nullProperties =
      .ok (.mk ⟨some (.single .object), none, none, none, none, none, none, none⟩) := rfl
  refine ⟨_, hparse, fun h => ?_⟩
  cases h.1 with
  | mk hnode children =>
    have hproperties := hnode.properties (by simp [typesOf])
    cases hproperties

/-- An array type without items. -/
def missingItems : JsonValue := .table [("type".toList, typeNameValue .array)]

/-- A schema that is given by its eight fields: a string, or one of the alternatives. -/
def fieldsInOrder : JsonValue := .array [typeNameValue .string, .scalar .null, .scalar .null, .scalar .null,
  .scalar .null, .scalar .null, .scalar (.bool false), .array [.scalar (.bool true), missingItems]]

/-- Schemas inside each other: `true`, an array type without items, and eight fields in order. -/
def nestedSchemas : JsonValue := .table [("properties".toList, .table [("flag".toList, .scalar (.bool true)),
  ("list".toList, missingItems)]), ("additionalProperties".toList, fieldsInOrder)]

lemma sound_missingItems : Sound missingItems := by
  refine .object ?_ fun child hchild => nomatch hchild
  rw [SoundObject, if_neg (by decide)]
  exact ⟨fun _ h => (nomatch h), fun _ h => (nomatch h)⟩

lemma sound_fieldsInOrder : Sound fieldsInOrder := by
  refine .array ?_ (fun property hproperty => nomatch hproperty) ?_
  · intro schemaType hread
    cases hread
    exact ⟨fun type h => (nomatch h), fun h => (nomatch h), fun h => (by simp [typesOf] at h),
      fun h => by simp [typesOf] at h⟩
  · intro schema hschema
    have hschemas : schemasOf (arrayFields [typeNameValue .string, .scalar .null, .scalar .null, .scalar .null,
        .scalar .null, .scalar .null, .scalar (.bool false), .array [.scalar (.bool true), missingItems]]) =
          [.scalar (.bool true), missingItems] := rfl
    rw [hschemas, List.mem_pair] at hschema
    rcases hschema with rfl | rfl
    · exact .bool true
    · exact sound_missingItems

/-- Missing types and items are given by default, at every depth. -/
theorem nestedSchemas_normalised : ∃ schema, parseToolInputSchema nestedSchemas = .ok schema ∧
    schema.Forall SchemaNode.Normalised ∧ parseToolInputSchema (toValue schema) = .ok schema := by
  obtain ⟨schema, hparse⟩ : ∃ schema, parseToolInputSchema nestedSchemas = .ok schema := ⟨_, rfl⟩
  refine ⟨schema, hparse, (normalised_iff_sound nestedSchemas schema hparse).mpr (.object ?_ ?_)⟩
  · rw [SoundObject, if_neg (by decide)]
    exact ⟨fun _ h => (nomatch h), fun _ h => (nomatch h)⟩
  · intro child hchild
    have hchildren : childrenOf (List.lookup · [("properties".toList, .table [("flag".toList, .scalar (.bool true)),
        ("list".toList, missingItems)]), ("additionalProperties".toList, fieldsInOrder)]) =
          [.scalar (.bool true), missingItems, fieldsInOrder] := rfl
    rw [hchildren] at hchild
    simp only [List.mem_cons, List.not_mem_nil, or_false] at hchild
    rcases hchild with rfl | rfl | rfl
    · exact .bool true
    · exact sound_missingItems
    · exact sound_fieldsInOrder

end Supercodex.Tools
