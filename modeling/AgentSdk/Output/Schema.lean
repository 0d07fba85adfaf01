import AgentSdk.Lib.JsonMeasure

/-!
# Structured output schemas

The closed JSON schemas that a host may ask an agent to follow: their admission
from JSON data, the smallest value a schema lets through, and what it means that
a value satisfies one.

Numbers are a parameter.  Their order, their text and the lower bound of a number
schema are taken from the runtime; every size is a natural number, which is what a
runtime number holds exactly for any text it can build.

## Main definitions

* `node`, `admitOutputSchema` — the admission of a schema.
* `minimumValueSize` — a lower bound for the values of a schema.
* `satisfies` — the value has no mismatch with the schema.
-/

namespace AgentSdk.Output

open AgentSdk.Text

def AGENT_OUTPUT_SCHEMA_BYTES_LIMIT : Nat := 16384
def AGENT_OUTPUT_SCHEMA_NODES_LIMIT : Nat := 256
def AGENT_OUTPUT_SCHEMA_DEPTH_LIMIT : Nat := 8
def AGENT_OUTPUT_SCHEMA_PROPERTY_NAME_MAX_LENGTH : Nat := 128
def AGENT_OUTPUT_SCHEMA_DESCRIPTION_MAX_LENGTH : Nat := 2000
def AGENT_OUTPUT_SCHEMA_ENUM_VALUES_LIMIT : Nat := 100
def AGENT_OUTPUT_SCHEMA_LENGTH_BOUND_LIMIT : Nat := 16384
def AGENT_OUTPUT_VALUE_BYTES_LIMIT : Nat := 16384
def AGENT_OUTPUT_VALUE_NODES_LIMIT : Nat := 1024
def AGENT_OUTPUT_VALUE_DEPTH_LIMIT : Nat := 16
def AGENT_OUTPUT_VALUE_COLLECTION_LIMIT : Nat := 100

def AGENT_OUTPUT_SCHEMA_DIALECT : JsString := js "https://json-schema.org/draft/2020-12/schema"

/-! ## Schemas -/

/-- A number or an integer schema. -/
structure NumberSchema (ν : Type) where
  integer : Bool
  minimum : Option ν
  maximum : Option ν

structure StringSchema where
  enum : Option (List JsString)
  minLength : Option Nat
  maxLength : Option Nat

/-- A schema node; `nullable` is the pair under `anyOf`, and the last argument is the
description. -/
inductive SchemaNode (ν : Type) where
  | nullable (first second : SchemaNode ν) (description : Option JsString)
  | object (properties : List (JsString × SchemaNode ν)) (description : Option JsString)
  | array (items : SchemaNode ν) (minItems maxItems : Option Nat) (description : Option JsString)
  | string (schema : StringSchema) (description : Option JsString)
  | number (schema : NumberSchema ν) (description : Option JsString)
  | boolean (description : Option JsString)
  | null (description : Option JsString)

/-- The finite numbers of the runtime. -/
structure Numbers (ν : Type) where
  /-- `JSON.stringify` -/
  spell : ν → JsString
  ascii : ∀ n, ∀ u ∈ spell n, u.toNat < 0x80
  /-- `<=` -/
  le : ν → ν → Bool
  /-- `Number.isInteger` -/
  isInteger : ν → Bool
  /-- The nonnegative safe integer that a number is. -/
  safeNat : ν → Option Nat
  /-- `Math.ceil(minimum) <= Math.floor(maximum)` -/
  integerWithin : ν → ν → Bool
  /-- The lower bound for the text of the numbers of a schema. -/
  minimumNumberBytes : NumberSchema ν → Nat

variable {ν : Type} (N : Numbers ν)

/-! ## Strings -/

/-- `codePointLength` -/
def codePointLength (value : JsString) : Nat := (characters value).length

/-- Bytes of a code unit that is not half of a pair. -/
def serializedUnitBytes (unit : UInt16) : Nat :=
  if unit = 0x22 ∨ unit = 0x5c then 2
  else if unit.toNat ≤ 0x1f then (if unit ∈ ([8, 9, 10, 12, 13] : List UInt16) then 2 else 6)
  else if unit.toNat ≤ 0x7f then 1
  else if unit.toNat ≤ 0x7ff then 2
  else if isSurrogate unit = true then 6
  else 3

/-- The loop of `serializedStringBytes`, which ends once the count is above `stopAfter`. -/
def serializedBytesFrom (stopAfter bytes : Nat) : JsString → Nat
  | [] => bytes
  | [unit] => bytes + serializedUnitBytes unit
  | unit :: next :: rest =>
    if isHighSurrogate unit && isLowSurrogate next then
      if stopAfter < bytes + 4 then bytes + 4
      else serializedBytesFrom stopAfter (bytes + 4) rest
    else if stopAfter < bytes + serializedUnitBytes unit then bytes + serializedUnitBytes unit
    else serializedBytesFrom stopAfter (bytes + serializedUnitBytes unit) (next :: rest)

def serializedStringBytes (value : JsString) (stopAfter : Nat) : Nat :=
  serializedBytesFrom stopAfter 2 value

/-! ## Admission of a node -/

inductive PathSegment
  | key (name : JsString)
  | index (index : Nat)
  deriving DecidableEq

abbrev Path := List PathSegment

structure StructuredOutputSchemaError where
  message : String
  path : Path
  deriving DecidableEq

/-- What a step of the admission returns. -/
abbrev Admit (α : Type) := Except StructuredOutputSchemaError α

abbrev Fields (ν : Type) := List (JsString × JsonData ν)

/-- The path of a keyword below a path. -/
def Path.at (path : Path) (name : String) : Path := path ++ [.key (js name)]

def invalid {α : Type} (message : String) (path : Path) : Admit α := .error ⟨message, path⟩

def object (value : Option (JsonData ν)) (path : Path) :
    Admit (Fields ν) :=
  match value with
  | some (.obj fields) => .ok fields
  | _ => invalid "A schema node must be a plain object." path

def keys (value : Fields ν) (allowed : List JsString) (path : Path) :
    Admit Unit :=
  if value.any (fun field => !decide (field.1 ∈ allowed)) then
    invalid "Schema contains an unsupported keyword." path
  else .ok ()

def description (value : Fields ν) (path : Path) :
    Admit (Option JsString) :=
  match value.lookup (js "description") with
  | none => .ok none
  | some (.str text) =>
    if AGENT_OUTPUT_SCHEMA_DESCRIPTION_MAX_LENGTH < codePointLength text then
      invalid "Schema descriptions must be strings within the code-point limit."
        (path.at "description")
    else .ok (some text)
  | some _ =>
    invalid "Schema descriptions must be strings within the code-point limit."
      (path.at "description")

/-- `bound` with integer values. -/
def lengthBound (value : Fields ν) (key : String) (path : Path) :
    Admit (Option Nat) :=
  match value.lookup (js key) with
  | none => .ok none
  | some (.num candidate) =>
    match N.safeNat candidate with
    | some length =>
      if AGENT_OUTPUT_SCHEMA_LENGTH_BOUND_LIMIT < length then
        invalid "Length bounds must be nonnegative safe integers within the profile ceiling."
          (path.at key)
      else .ok (some length)
    | none =>
      invalid "Length bounds must be nonnegative safe integers within the profile ceiling."
        (path.at key)
  | some _ =>
    invalid "Length bounds must be nonnegative safe integers within the profile ceiling."
      (path.at key)

/-- `bound` with any finite value. -/
def numberBound (value : Fields ν) (key : String) (path : Path) :
    Admit (Option ν) :=
  match value.lookup (js key) with
  | none => .ok none
  | some (.num candidate) => .ok (some candidate)
  | some _ => invalid "Numeric bounds must be finite numbers." (path.at key)

/-- `ordered`, where `le` is the order of the bounds. -/
def ordered {α : Type} (le : α → α → Bool) (minimum maximum : Option α) (path : Path) :
    Admit Unit :=
  match minimum, maximum with
  | some minimum, some maximum =>
    if le minimum maximum = true then .ok ()
    else invalid "Schema minimum must not exceed maximum." path
  | _, _ => .ok ()

def isNullSchema : SchemaNode ν → Bool
  | .null _ => true
  | _ => false

def isNonNullSchema : SchemaNode ν → Bool
  | .null _ | .nullable _ _ _ => false
  | _ => true

/-- The loop over `required`. -/
def requiredNames (properties : Fields ν) (path : Path) :
    List JsString → List (JsonData ν) → Admit (List JsString)
  | names, [] => .ok names
  | names, .str candidate :: rest =>
    if candidate ∈ names ∨ (properties.lookup candidate).isNone = true then
      invalid "Required keys must name every property exactly once." (path.at "required")
    else requiredNames properties path (names ++ [candidate]) rest
  | _, _ :: _ =>
    invalid "Required keys must name every property exactly once." (path.at "required")

section Nodes

variable (child : Nat → JsonData ν → Path → Admit (SchemaNode ν × Nat))

/-- The loop over the properties of an object schema. -/
def propertyNodes (path : Path) : Nat → Fields ν →
    Admit (List (JsString × SchemaNode ν) × Nat)
  | nodes, [] => .ok ([], nodes)
  | nodes, (name, value) :: rest => do
      let first ← child nodes value (path.at "properties" ++ [.key name])
      let others ← propertyNodes path first.2 rest
      pure ((name, first.1) :: others.1, others.2)

def objectNode (source : Fields ν) (nodes : Nat) (path : Path) (dialect : List JsString)
    (described : Option JsString) : Admit (SchemaNode ν × Nat) := do
  keys source ([js "type", js "properties", js "required", js "additionalProperties",
    js "description"] ++ dialect) path
  let properties ← object (source.lookup (js "properties")) (path.at "properties")
  match source.lookup (js "additionalProperties"), source.lookup (js "required") with
  | some (.bool false), some (.arr required) => do
      let names ← requiredNames properties path [] required
      if names.length ≠ properties.length then
        invalid "Required keys must name every property exactly once." (path.at "required")
      else do
        let parsed ← propertyNodes child path nodes properties
        pure (.object parsed.1 described, parsed.2)
  | _, _ =>
    invalid "Object schemas must be closed and explicitly require every property." path

def arrayNode (source : Fields ν) (nodes : Nat) (path : Path) (described : Option JsString) :
    Admit (SchemaNode ν × Nat) := do
  keys source [js "type", js "items", js "minItems", js "maxItems", js "description"] path
  let minItems ← lengthBound N source "minItems" path
  let maxItems ← lengthBound N source "maxItems" path
  ordered (fun minimum maximum => decide (minimum ≤ maximum)) minItems maxItems path
  if minItems.any (fun minimum => decide (AGENT_OUTPUT_VALUE_COLLECTION_LIMIT < minimum)) then
    invalid "Array minimum cannot exceed the value collection limit." (path.at "minItems")
  else
    match source.lookup (js "items") with
    | none => invalid "Array schemas require one homogeneous item schema." (path.at "items")
    | some item => do
        let items ← child nodes item (path.at "items")
        pure (.array items.1 minItems maxItems described, items.2)

/-- The loop over the values of an enum. -/
def enumValues (minLength maxLength : Option Nat) (path : Path) :
    List JsString → List (JsonData ν) → Admit (List JsString)
  | strings, [] => .ok strings
  | strings, .str candidate :: rest =>
    if candidate ∈ strings then invalid "String enums require unique strings." (path.at "enum")
    else if minLength.any (fun minimum => decide (codePointLength candidate < minimum)) ||
        maxLength.any (fun maximum => decide (maximum < codePointLength candidate)) then
      invalid "Every enum value must satisfy the string length bounds." (path.at "enum")
    else enumValues minLength maxLength path (strings ++ [candidate]) rest
  | _, _ :: _ => invalid "String enums require unique strings." (path.at "enum")

def enumNode (source : Fields ν) (minLength maxLength : Option Nat) (path : Path) :
    Admit (Option (List JsString)) :=
  match source.lookup (js "enum") with
  | none => .ok none
  | some (.arr candidates) =>
    if candidates.isEmpty = true ∨
        AGENT_OUTPUT_SCHEMA_ENUM_VALUES_LIMIT < candidates.length then
      invalid "String enums must be nonempty and bounded." (path.at "enum")
    else (enumValues minLength maxLength path [] candidates).map some
  | some _ => invalid "String enums must be nonempty and bounded." (path.at "enum")

def stringNode (source : Fields ν) (nodes : Nat) (path : Path) (described : Option JsString) :
    Admit (SchemaNode ν × Nat) := do
  keys source [js "type", js "enum", js "minLength", js "maxLength", js "description"] path
  let minLength ← lengthBound N source "minLength" path
  let maxLength ← lengthBound N source "maxLength" path
  ordered (fun minimum maximum => decide (minimum ≤ maximum)) minLength maxLength path
  let enum ← enumNode source minLength maxLength path
  pure (.string ⟨enum, minLength, maxLength⟩ described, nodes)

def numberNode (source : Fields ν) (integer : Bool) (nodes : Nat) (path : Path)
    (described : Option JsString) : Admit (SchemaNode ν × Nat) := do
  keys source [js "type", js "minimum", js "maximum", js "description"] path
  let minimum ← numberBound source "minimum" path
  let maximum ← numberBound source "maximum" path
  ordered N.le minimum maximum path
  match integer, minimum, maximum with
  | true, some lower, some upper =>
    if N.integerWithin lower upper = true then
      pure (.number ⟨integer, minimum, maximum⟩ described, nodes)
    else invalid "Integer bounds admit no integer value." path
  | _, _, _ => pure (.number ⟨integer, minimum, maximum⟩ described, nodes)

/-- A node without `anyOf`. -/
def typedNode (source : Fields ν) (nodes : Nat) (path : Path) (root : Bool)
    (described : Option JsString) : Admit (SchemaNode ν × Nat) :=
  match source.lookup (js "type") with
  | some (.str type) =>
    if root = true ∧ type ≠ js "object" then
      invalid "The output schema root must be an object." path
    else if root = true ∧ foreignDialect (source.lookup (js "$schema")) = true then
      invalid "Only JSON Schema draft 2020-12 is supported." (path.at "$schema")
    else if type = js "object" then
      objectNode child source nodes path (if root = true then [js "$schema"] else []) described
    else if type = js "array" then arrayNode N child source nodes path described
    else if type = js "string" then stringNode N source nodes path described
    else if type = js "number" then numberNode N source false nodes path described
    else if type = js "integer" then numberNode N source true nodes path described
    else if type = js "boolean" then do
      keys source [js "type", js "description"] path
      pure (.boolean described, nodes)
    else if type = js "null" then do
      keys source [js "type", js "description"] path
      pure (.null described, nodes)
    else invalid "Schema node type is unsupported." (path.at "type")
  | _ =>
    if root = true then invalid "The output schema root must be an object." path
    else invalid "Schema node type is unsupported." (path.at "type")
where
  /-- The dialect is given and is not the supported one. -/
  foreignDialect : Option (JsonData ν) → Bool
    | none => false
    | some (.str dialect) => !decide (dialect = AGENT_OUTPUT_SCHEMA_DIALECT)
    | some _ => true

/-- A node with `anyOf`. -/
def nullableNode (source : Fields ν) (branches : JsonData ν) (nodes : Nat) (path : Path)
    (root : Bool) (described : Option JsString) : Admit (SchemaNode ν × Nat) := do
  keys source [js "anyOf", js "description"] path
  if root = true then invalid "The output schema root must be an object." path
  else
    match branches with
    | .arr [firstValue, secondValue] => do
        let first ← child nodes firstValue (path.at "anyOf" ++ [.index 0])
        let second ← child first.2 secondValue (path.at "anyOf" ++ [.index 1])
        if isNonNullSchema first.1 = true ∧ isNullSchema second.1 = true then
          pure (.nullable first.1 second.1 described, second.2)
        else if isNullSchema first.1 = true ∧ isNonNullSchema second.1 = true then
          pure (.nullable second.1 first.1 described, second.2)
        else
          invalid
            ("Nullable schemas require one non-null branch and " ++
              "prohibit nested nullable wrappers.") (path.at "anyOf")
    | _ =>
      invalid "Nullable schemas require exactly one non-null and one null branch."
        (path.at "anyOf")

end Nodes

/-- `node`: `room` is how many more levels the depth limit allows, and `nodes` how many
nodes were read before. -/
def node : Nat → Nat → JsonData ν → Path → Bool → Admit (SchemaNode ν × Nat)
  | 0, _, _, path, _ => invalid "Schema exceeds the node or depth limit." path
  | room + 1, nodes, value, path, root =>
    if AGENT_OUTPUT_SCHEMA_NODES_LIMIT < nodes + 1 then
      invalid "Schema exceeds the node or depth limit." path
    else do
      let source ← object (some value) path
      let described ← description source path
      match source.lookup (js "anyOf") with
      | some branches =>
        nullableNode (fun nodes value path => node room nodes value path false)
          source branches (nodes + 1) path root described
      | none =>
        typedNode N (fun nodes value path => node room nodes value path false)
          source (nodes + 1) path root described

/-! ## The smallest value -/

structure MinimumValueSize where
  bytes : Nat
  nodes : Nat
  depth : Nat

/-- `Math.min(...values)` over the values of an enum. -/
def minimumOf : List Nat → Nat
  | [] => 0
  | [bytes] => bytes
  | bytes :: rest => min bytes (minimumOf rest)

def minimumStringBytes (schema : StringSchema) : Nat :=
  match schema.enum with
  | some values =>
    minimumOf (values.map fun value =>
      serializedStringBytes value AGENT_OUTPUT_SCHEMA_BYTES_LIMIT)
  | none => 2 + schema.minLength.getD 0

mutual

def minimumValueSize : SchemaNode ν → MinimumValueSize
  | .nullable first _ _ =>
    { bytes := min 4 (minimumValueSize first).bytes, nodes := 1, depth := 1 }
  | .object properties _ =>
    addProperties properties
      { bytes := 2 + (properties.length - 1), nodes := 1, depth := 1 }
  | .array items minItems _ _ =>
    { bytes := 2 + (minItems.getD 0 - 1) + minItems.getD 0 * (minimumValueSize items).bytes
      nodes := 1 + minItems.getD 0 * (minimumValueSize items).nodes
      depth := if minItems.getD 0 = 0 then 1 else 1 + (minimumValueSize items).depth }
  | .string schema _ =>
    { bytes := minimumStringBytes schema, nodes := 1, depth := 1 }
  | .boolean _ | .null _ => { bytes := 4, nodes := 1, depth := 1 }
  | .number schema _ => { bytes := N.minimumNumberBytes schema, nodes := 1, depth := 1 }

/-- The loop over the properties. -/
def addProperties : List (JsString × SchemaNode ν) → MinimumValueSize → MinimumValueSize
  | [], size => size
  | (name, child) :: rest, size =>
    addProperties rest
      { bytes := size.bytes +
          (serializedStringBytes name AGENT_OUTPUT_SCHEMA_BYTES_LIMIT + 1 +
            (minimumValueSize child).bytes)
        nodes := size.nodes + (minimumValueSize child).nodes
        depth := max size.depth (1 + (minimumValueSize child).depth) }

end

/-! ## Admission of a schema -/

/-- The root of an admitted schema is an object. -/
def isObjectSchema : SchemaNode ν → Bool
  | .object _ _ => true
  | _ => false

def admitOutputSchema (input : JsonData ν) (maxOutputBytes : Nat) :
    Admit (SchemaNode ν) :=
  match node N AGENT_OUTPUT_SCHEMA_DEPTH_LIMIT 0 input [] true with
  | .error error => .error error
  | .ok (schema, _) =>
    if isObjectSchema schema = false then
      invalid "The output schema root must be an object." []
    else if AGENT_OUTPUT_VALUE_BYTES_LIMIT < (minimumValueSize N schema).bytes ∨
        AGENT_OUTPUT_VALUE_NODES_LIMIT < (minimumValueSize N schema).nodes ∨
        AGENT_OUTPUT_VALUE_DEPTH_LIMIT < (minimumValueSize N schema).depth then
      invalid "Schema cannot produce a value within the profile capacity limits." []
    else if maxOutputBytes < (minimumValueSize N schema).bytes then
      invalid "Schema cannot produce a value within the configured output byte limit." []
    else .ok schema

/-! ## Values -/

/-- A number has the type of a number schema and lies within its bounds. -/
def admits (schema : NumberSchema ν) (value : ν) : Bool :=
  (!schema.integer || N.isInteger value) &&
    schema.minimum.all (fun minimum => N.le minimum value) &&
    schema.maximum.all (fun maximum => N.le value maximum)

/-- A string has no mismatch with a string schema. -/
def stringSatisfies (schema : StringSchema) (value : JsString) : Bool :=
  schema.minLength.all (fun minimum => decide (minimum ≤ codePointLength value)) &&
    schema.maxLength.all (fun maximum => decide (codePointLength value ≤ maximum)) &&
    schema.enum.all (fun values => decide (value ∈ values))

mutual

/-- `matches` reports no issue. -/
def satisfies : SchemaNode ν → JsonData ν → Bool
  | .nullable _ _ _, .null => true
  | .nullable first _ _, value => satisfies first value
  | .object properties _, .obj fields =>
    fields.all (fun field => (properties.lookup field.1).isSome) &&
      satisfiesProperties properties fields
  | .array items minItems maxItems _, .arr values =>
    minItems.all (fun minimum => decide (minimum ≤ values.length)) &&
      maxItems.all (fun maximum => decide (values.length ≤ maximum)) &&
      values.all (fun value => satisfies items value)
  | .string schema _, .str value => stringSatisfies schema value
  | .number schema _, .num value => admits N schema value
  | .boolean _, .bool _ => true
  | .null _, .null => true
  | _, _ => false

/-- The loop over the properties of an object schema. -/
def satisfiesProperties : List (JsString × SchemaNode ν) → Fields ν → Bool
  | [], _ => true
  | (key, child) :: rest, fields =>
    (fields.lookup key).any (fun value => satisfies child value) &&
      satisfiesProperties rest fields

end

end AgentSdk.Output
