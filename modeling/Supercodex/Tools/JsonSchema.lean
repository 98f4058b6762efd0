import Supercodex.Library.ValueTree

/-!
# Tool schemas (`tools/src/json_schema.rs`)

The input schema of a tool is any JSON value. It is first rewritten in place, so that every schema in it
has a type or a list of alternatives and the children that its types need, and is then read into the
subset of JSON Schema that tool definitions use. Reading follows the derived `Deserialize`: a struct is
read from an object or from an array of its fields, `null` is an absent field, and a unit variant is its
name or an object of its name with `null`.
-/

namespace Supercodex.Tools

/-- A JSON value that is no array and no object. -/
inductive JsonScalar where
  | null
  | bool (value : Bool)
  | number (literal : Text)
  | string (value : Text)
deriving DecidableEq

/-- `serde_json::Value`. -/
abbrev JsonValue := ValueTree JsonScalar

/-- `serde_json::Map`. -/
abbrev JsonMap := List (Text × JsonValue)

/-- `JsonSchemaPrimitiveType`. -/
inductive JsonSchemaPrimitiveType where
  | string
  | number
  | boolean
  | integer
  | object
  | array
  | null
deriving DecidableEq

/-- `JsonSchemaType`. -/
inductive JsonSchemaType where
  | single (type : JsonSchemaPrimitiveType)
  | multiple (types : List JsonSchemaPrimitiveType)
deriving DecidableEq

/-- `AdditionalProperties`, over some kind of schema. -/
inductive AdditionalProperties (S : Type) where
  | boolean (allowed : Bool)
  | schema (schema : S)

/-- The fields of `JsonSchema`, over some kind of children. -/
structure SchemaNode (S : Type) where
  schemaType : Option JsonSchemaType
  description : Option Text
  enumValues : Option (List JsonValue)
  items : Option S
  properties : Option (List (Text × S))
  required : Option (List Text)
  additionalProperties : Option (AdditionalProperties S)
  anyOf : Option (List S)

/-- `JsonSchema`. -/
inductive JsonSchema where
  | mk (node : SchemaNode JsonSchema)

/-- The fields of a schema. -/
def JsonSchema.node : JsonSchema → SchemaNode JsonSchema
  | mk node => node

/-! ## Types -/

/-- `schema_type_name`. -/
def schemaTypeName : JsonSchemaPrimitiveType → Text
  | .string => "string".toList
  | .number => "number".toList
  | .boolean => "boolean".toList
  | .integer => "integer".toList
  | .object => "object".toList
  | .array => "array".toList
  | .null => "null".toList

/-- `schema_type_from_str`. -/
def schemaTypeFromStr (schemaType : Text) : Option JsonSchemaPrimitiveType :=
  if schemaType = "string".toList then some .string
  else if schemaType = "number".toList then some .number
  else if schemaType = "boolean".toList then some .boolean
  else if schemaType = "integer".toList then some .integer
  else if schemaType = "object".toList then some .object
  else if schemaType = "array".toList then some .array
  else if schemaType = "null".toList then some .null
  else none

lemma schemaTypeFromStr_name (schemaType : JsonSchemaPrimitiveType) :
    schemaTypeFromStr (schemaTypeName schemaType) = some schemaType := by
  cases schemaType <;> rfl

/-- A type's name as a JSON value. -/
def typeNameValue (schemaType : JsonSchemaPrimitiveType) : JsonValue :=
  .scalar (.string (schemaTypeName schemaType))

/-- `map.contains_key`. -/
def containsKey (map : JsonMap) (key : Text) : Bool := (map.lookup key).isSome

/-- `JsonValue::as_str`, and then the type of that name. -/
def typeFromValue : JsonValue → Option JsonSchemaPrimitiveType
  | .scalar (.string name) => schemaTypeFromStr name
  | _ => none

/-- `normalized_schema_types`. -/
def normalizedSchemaTypes (map : JsonMap) : List JsonSchemaPrimitiveType :=
  match map.lookup "type".toList with
  | some (.scalar (.string name)) => (schemaTypeFromStr name).toList
  | some (.array schemaTypes) => schemaTypes.filterMap typeFromValue
  | _ => []

/-- `write_schema_types`. -/
def writeSchemaTypes (map : JsonMap) : List JsonSchemaPrimitiveType → JsonMap
  | [] => ValueTree.removeEntry map "type".toList
  | [schemaType] => ValueTree.insertEntry map "type".toList (typeNameValue schemaType)
  | schemaTypes => ValueTree.insertEntry map "type".toList (.array (schemaTypes.map typeNameValue))

/-! ## Sanitising -/

/-- `json!({ "type": "string" })`. -/
def stringSchema : JsonValue := .table [("type".toList, typeNameValue .string)]

/-- `ensure_default_children_for_schema_types`. -/
def ensureDefaultChildrenForSchemaTypes (map : JsonMap) (schemaTypes : List JsonSchemaPrimitiveType) :
    JsonMap :=
  let map :=
    if .object ∈ schemaTypes ∧ ¬containsKey map "properties".toList then
      ValueTree.insertEntry map "properties".toList (.table [])
    else map
  if .array ∈ schemaTypes ∧ ¬containsKey map "items".toList then
    ValueTree.insertEntry map "items".toList stringSchema
  else map

/-- `const` becomes an `enum` of one value. -/
def collapseConst (map : JsonMap) : JsonMap :=
  match map.lookup "const".toList with
  | some constValue =>
    ValueTree.insertEntry (ValueTree.removeEntry map "const".toList) "enum".toList (.array [constValue])
  | none => map

/-- The type of a schema that names none. -/
def inferredSchemaType (map : JsonMap) : JsonSchemaPrimitiveType :=
  if containsKey map "properties".toList || containsKey map "required".toList ||
      containsKey map "additionalProperties".toList then .object
  else if containsKey map "items".toList || containsKey map "prefixItems".toList then .array
  else if containsKey map "enum".toList || containsKey map "format".toList then .string
  else if containsKey map "minimum".toList || containsKey map "maximum".toList ||
      containsKey map "exclusiveMinimum".toList || containsKey map "exclusiveMaximum".toList ||
      containsKey map "multipleOf".toList then .number
  else .string

/-- The types that a schema is given, unless it keeps its alternatives alone. -/
def schemaTypes (map : JsonMap) : List JsonSchemaPrimitiveType :=
  if normalizedSchemaTypes map = [] then [inferredSchemaType map] else normalizedSchemaTypes map

/-- Does the schema keep its alternatives without a type? -/
def keepsAlternatives (map : JsonMap) : Bool :=
  normalizedSchemaTypes map = [] && containsKey map "anyOf".toList

/-- What `sanitize_json_schema` does to an object whose children are sanitised. -/
def sanitizeObject (map : JsonMap) : JsonMap :=
  let map := collapseConst map
  if keepsAlternatives map then map
  else ensureDefaultChildrenForSchemaTypes (writeSchemaTypes map (schemaTypes map)) (schemaTypes map)

/-- Is this the value `true` or `false`? -/
def isBool : JsonValue → Bool
  | .scalar (.bool _) => true
  | _ => false

mutual

/-- `sanitize_json_schema`. -/
def sanitizeJsonSchema : JsonValue → JsonValue
  | .scalar (.bool _) => stringSchema
  | .scalar value => .scalar value
  | .array values => .array (sanitizeValues values)
  | .table map => .table (sanitizeObject (sanitizeChildren map))

/-- The values of an array. -/
def sanitizeValues : List JsonValue → List JsonValue
  | [] => []
  | value :: values => sanitizeJsonSchema value :: sanitizeValues values

/-- The children of an object, under the keys that hold schemas. -/
def sanitizeChildren : JsonMap → JsonMap
  | [] => []
  | (key, value) :: map =>
    (key,
      if key = "properties".toList then sanitizeProperties value
      else if key = "items".toList ∨ key = "prefixItems".toList ∨ key = "anyOf".toList then
        sanitizeJsonSchema value
      else if key = "additionalProperties".toList then
        if isBool value then value else sanitizeJsonSchema value
      else value) :: sanitizeChildren map

/-- The value of `properties`. -/
def sanitizeProperties : JsonValue → JsonValue
  | .table map => .table (sanitizeEntries map)
  | value => value

/-- The values of the object under `properties`. -/
def sanitizeEntries : JsonMap → JsonMap
  | [] => []
  | (key, value) :: map => (key, sanitizeJsonSchema value) :: sanitizeEntries map

end

/-! ## Reading -/

/-- The names of the fields of `JsonSchema`, in their order. -/
def fieldNames : List Text :=
  ["type".toList, "description".toList, "enum".toList, "items".toList, "properties".toList,
    "required".toList, "additionalProperties".toList, "anyOf".toList]

/-- The fields that a struct is read from. -/
def structFields : JsonValue → Option JsonMap
  | .table map => some map
  | .array values => if values.length = fieldNames.length then some (fieldNames.zip values) else none
  | .scalar _ => none

/-- `Deserialize` of an optional field. -/
def readOption {α : Type} (read : JsonValue → Option α) : Option JsonValue → Option (Option α)
  | none | some (.scalar .null) => some none
  | some value => (read value).map some

/-- `Deserialize` of `JsonSchemaPrimitiveType`. -/
def readPrimitiveType : JsonValue → Option JsonSchemaPrimitiveType
  | .scalar (.string name) | .table [(name, .scalar .null)] => schemaTypeFromStr name
  | _ => none

/-- `Deserialize` of `JsonSchemaType`. -/
def readType : JsonValue → Option JsonSchemaType
  | .array values => (values.mapM readPrimitiveType).map .multiple
  | value => (readPrimitiveType value).map .single

/-- `Deserialize` of a text. -/
def readString : JsonValue → Option Text
  | .scalar (.string value) => some value
  | _ => none

/-- `Deserialize` of a vector, before its items are read. -/
def readArray : JsonValue → Option (List JsonValue)
  | .array values => some values
  | _ => none

/-- `Deserialize` of a map, before its values are read. -/
def readMap : JsonValue → Option JsonMap
  | .table map => some map
  | _ => none

/-- `Deserialize` of `AdditionalProperties`, before a schema is read. -/
def readAdditionalProperties : JsonValue → AdditionalProperties JsonValue
  | .scalar (.bool allowed) => .boolean allowed
  | value => .schema value

/-- `Deserialize` of `JsonSchema`, before its children are read. -/
def readNode (value : JsonValue) : Option (SchemaNode JsonValue) := do
  let fields ← structFields value
  let schemaType ← readOption readType (fields.lookup "type".toList)
  let description ← readOption readString (fields.lookup "description".toList)
  let enumValues ← readOption readArray (fields.lookup "enum".toList)
  let items ← readOption some (fields.lookup "items".toList)
  let properties ← readOption readMap (fields.lookup "properties".toList)
  let required ← readOption (fun value => (readArray value).bind (·.mapM readString))
    (fields.lookup "required".toList)
  let additionalProperties ← readOption (fun value => some (readAdditionalProperties value))
    (fields.lookup "additionalProperties".toList)
  let anyOf ← readOption readArray (fields.lookup "anyOf".toList)
  return { schemaType, description, enumValues, items, properties, required, additionalProperties, anyOf }

/-- An optional field with its value read. -/
def traverseOption {α β : Type} (f : α → Option β) : Option α → Option (Option β)
  | none => some none
  | some value => (f value).map some

/-- The entries of a map with their values read. -/
def traverseEntries {α β : Type} (f : α → Option β) (map : List (Text × α)) : Option (List (Text × β)) :=
  map.mapM fun (key, value) => (f value).map fun value => (key, value)

/-- `AdditionalProperties` with its schema read. -/
def AdditionalProperties.traverse {α β : Type} (f : α → Option β) :
    AdditionalProperties α → Option (AdditionalProperties β)
  | boolean allowed => some (boolean allowed)
  | schema value => (f value).map schema

/-- The schema that additional properties must have. -/
def AdditionalProperties.children {α : Type} : AdditionalProperties α → List α
  | boolean _ => []
  | schema value => [value]

namespace SchemaNode

variable {α β : Type}

/-- The children of a schema. -/
def children (node : SchemaNode α) : List α :=
  node.items.toList ++ (node.properties.getD []).map Prod.snd ++
    (node.additionalProperties.map AdditionalProperties.children).getD [] ++ node.anyOf.getD []

/-- The schema with its children read. -/
def traverse (f : α → Option β) (node : SchemaNode α) : Option (SchemaNode β) := do
  let items ← traverseOption f node.items
  let properties ← traverseOption (traverseEntries f) node.properties
  let additionalProperties ← traverseOption (AdditionalProperties.traverse f) node.additionalProperties
  let anyOf ← traverseOption (List.mapM f) node.anyOf
  return ⟨node.schemaType, node.description, node.enumValues, items, properties, node.required,
    additionalProperties, anyOf⟩

end SchemaNode

/-- `Deserialize` of `JsonSchema`, for values up to some depth. -/
def readSchema : ℕ → JsonValue → Option JsonSchema
  | 0, _ => none
  | depth + 1, value => do
    let node ← readNode value
    let node ← node.traverse (readSchema depth)
    return .mk node

/-- `serde_json::from_value`. -/
def fromValue (value : JsonValue) : Option JsonSchema := readSchema (value.depth + 1) value

/-- The errors of `parse_tool_input_schema`. -/
inductive SchemaError where
  /-- From `serde_json::from_value`. -/
  | deserialize
  /-- `singleton_null_schema_error`. -/
  | invalidInput (message : Text)
deriving DecidableEq

/-- `parse_tool_input_schema`. -/
def parseToolInputSchema (inputSchema : JsonValue) : Except SchemaError JsonSchema :=
  match fromValue (sanitizeJsonSchema inputSchema) with
  | none => .error .deserialize
  | some schema =>
    if schema.node.schemaType = some (.single .null) then
      .error (.invalidInput "tool input schema must not be a singleton null type".toList)
    else .ok schema

/-! ## Writing -/

/-- `Serialize` of `JsonSchemaType`. -/
def typeValue : JsonSchemaType → JsonValue
  | .single schemaType => typeNameValue schemaType
  | .multiple schemaTypes => .array (schemaTypes.map typeNameValue)

/-- The object of the fields that are present. -/
def presentFields (values : List (Option JsonValue)) : JsonMap :=
  (fieldNames.zip values).filterMap fun field => field.2.map (field.1, ·)

/-- A text as a JSON value. -/
def textValue (text : Text) : JsonValue := .scalar (.string text)

mutual

/-- `serde_json::to_value`. -/
def toValue : JsonSchema → JsonValue
  | .mk ⟨schemaType, description, enumValues, items, properties, required, additionalProperties, anyOf⟩ =>
    .table (presentFields [schemaType.map typeValue, description.map textValue,
      enumValues.map ValueTree.array, itemsValue items, propertiesValue properties,
      required.map fun names => .array (names.map textValue),
      additionalPropertiesValue additionalProperties, anyOfValue anyOf])

/-- The value of `items`. -/
def itemsValue : Option JsonSchema → Option JsonValue
  | none => none
  | some schema => some (toValue schema)

/-- The value of `properties`. -/
def propertiesValue : Option (List (Text × JsonSchema)) → Option JsonValue
  | none => none
  | some properties => some (.table (entriesValue properties))

/-- The values of the object under `properties`. -/
def entriesValue : List (Text × JsonSchema) → JsonMap
  | [] => []
  | (key, schema) :: properties => (key, toValue schema) :: entriesValue properties

/-- The value of `additionalProperties`. -/
def additionalPropertiesValue : Option (AdditionalProperties JsonSchema) → Option JsonValue
  | none => none
  | some (.boolean allowed) => some (.scalar (.bool allowed))
  | some (.schema schema) => some (toValue schema)

/-- The value of `anyOf`. -/
def anyOfValue : Option (List JsonSchema) → Option JsonValue
  | none => none
  | some schemas => some (.array (schemasValue schemas))

/-- The values of an array. -/
def schemasValue : List JsonSchema → List JsonValue
  | [] => []
  | schema :: schemas => toValue schema :: schemasValue schemas

end

end Supercodex.Tools
