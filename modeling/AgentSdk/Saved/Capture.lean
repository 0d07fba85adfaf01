import AgentSdk.Lib.Metered
import AgentSdk.Output.Snapshot

/-!
# Counting the bytes of JSON

The two counters that never build the text of a value, and the capture of history
data, which counts what it retains as it walks through a graph of objects.

## Main definitions

* `serializedAgentJsonValueBytes` — the count of a value.
* `captureHistoryData` — the capture of history data.
-/

namespace AgentSdk.Saved

open AgentSdk.Text AgentSdk.Outcome

/-- The numbers of the runtime. -/
structure Numbers (ν : Type) where
  /-- The text of a finite number. -/
  spell : ν → JsString
  ascii : ∀ n, ∀ u ∈ spell n, u.toNat < 0x80
  /-- `Number.isFinite` -/
  isFinite : ν → Bool
  /-- The nonnegative safe integer that a number is. -/
  safeNat : ν → Option Nat

variable {ν ρ : Type} (N : Numbers ν)

/-! ## The count of a value -/

/-- Bytes of a code unit that is not half of a pair. -/
def serializedJsonUnitBytes (codeUnit : UInt16) : Nat :=
  if codeUnit = 0x22 ∨ codeUnit = 0x5c then 2
  else if codeUnit ∈ ([0x08, 0x09, 0x0a, 0x0c, 0x0d] : List UInt16) then 2
  else if codeUnit.toNat < 0x20 then 6
  else if codeUnit.toNat < 0x80 then 1
  else if codeUnit.toNat < 0x800 then 2
  else if isSurrogate codeUnit = true then 6
  else 3

/-- The loop of `serializedJsonStringBytes`. -/
def serializedJsonUnits (bytes : Nat) : JsString → Nat
  | [] => bytes
  | [codeUnit] => bytes + serializedJsonUnitBytes codeUnit
  | codeUnit :: nextCodeUnit :: rest =>
    if isHighSurrogate codeUnit && isLowSurrogate nextCodeUnit then
      serializedJsonUnits (bytes + 4) rest
    else serializedJsonUnits (bytes + serializedJsonUnitBytes codeUnit) (nextCodeUnit :: rest)

def serializedJsonStringBytes (value : JsString) : Nat := serializedJsonUnits 2 value

mutual

def serializedAgentJsonValueBytes : JsonData ν → Nat
  | .null => 4
  | .str value => serializedJsonStringBytes value
  | .num value => (N.spell value).length
  | .bool value => if value then 4 else 5
  | .arr items => serializedItems 2 true items
  | .obj fields => serializedFields 2 true fields

/-- The bytes of an array behind some of its elements. -/
def serializedItems (bytes : Nat) (first : Bool) : List (JsonData ν) → Nat
  | [] => bytes
  | item :: rest =>
    serializedItems (bytes + serializedAgentJsonValueBytes item + if first then 0 else 1) false
      rest

/-- The bytes of an object behind some of its members. -/
def serializedFields (bytes : Nat) (first : Bool) : List (JsString × JsonData ν) → Nat
  | [] => bytes
  | (key, item) :: rest =>
    serializedFields (bytes + serializedJsonStringBytes key + 1 +
      serializedAgentJsonValueBytes item + if first then 0 else 1) false rest

end

/-! ## The capture of history data -/

def AGENT_HISTORY_MAX_CONTENT_BLOCKS : Nat := 1000
def MAX_VALUES : Nat := 50000
inductive HistoryPart where
  | name (key : JsString)
  | index (position : Nat)

structure HistoryError where
  code : String
  path : List HistoryPart
  message : String

/-- A part of a path as an issue keeps it. -/
def HistoryPart.kept : HistoryPart → HistoryPart
  | name key => name (key.take 128)
  | index position => index position

def invalidHistoryData {α : Type} (code : String) (path : List HistoryPart) (message : String) :
    Except HistoryError α :=
  .error { code, path := (path.take 16).map HistoryPart.kept, message }

/-- A value of the runtime; an object is a reference, and what is neither data nor an object is
`other`. -/
inductive HistoryValue (ν ρ : Type) where
  | undefined
  | null
  | bool (value : Bool)
  | num (value : ν)
  | str (value : JsString)
  | other
  | object (reference : ρ)

inductive PropertyKey where
  | text (key : JsString)
  | symbol
  deriving DecidableEq

inductive Descriptor (ν ρ : Type) where
  | data (value : HistoryValue ν ρ) (enumerable : Bool)
  | accessor

inductive ObjectPrototype where
  | array
  | object
  | null
  | other
  deriving DecidableEq

/-- What an inspection of an object finds; the properties are in the order of `Reflect.ownKeys`,
which has the indices of an array first and ascending. -/
structure Inspected (ν ρ : Type) where
  array : Bool
  prototype : ObjectPrototype
  properties : List (PropertyKey × Descriptor ν ρ)

/-- The objects of the runtime; some reject inspection. -/
abbrev Heap (ν ρ : Type) := ρ → Option (Inspected ν ρ)

/-- The running counts of a capture. -/
structure Tally where
  bytes : Nat
  values : Nat

section Walk

variable (limit : Nat)

def reserve (tally : Tally) (size : Nat) (path : List HistoryPart) : Except HistoryError Tally :=
  if limit < tally.bytes + size then
    invalidHistoryData "byte_limit" path "History data exceeds 1 MiB of serialized UTF-8 JSON."
  else .ok { tally with bytes := tally.bytes + size }

/-- The `length` of an array, if it is a number. -/
def arrayLength (inspected : Inspected ν ρ) : Option Nat :=
  match inspected.properties.find? fun property => property.1 = .text (js "length") with
  | some (_, .data (.num length) _) => N.safeNat length
  | _ => none

/-- The length of an array, or none for a record: the checks ahead of the properties. -/
def inspect (heap : Heap ν ρ) (reference : ρ) (path : List HistoryPart) :
    Except HistoryError (Option Nat × List (PropertyKey × Descriptor ν ρ)) :=
  match heap reference with
  | none =>
    invalidHistoryData "invalid_data" path
      "History data cannot contain objects that reject inspection."
  | some inspected =>
    if inspected.prototype ≠ (if inspected.array then .array else .object) ∧
        inspected.prototype ≠ .null then
      invalidHistoryData "invalid_data" path "History data must use plain records and arrays."
    else if inspected.array then
      match arrayLength N inspected with
      | some length =>
        if AGENT_HISTORY_MAX_CONTENT_BLOCKS < length ∨
            inspected.properties.length ≠ length + 1 then
          invalidHistoryData "entry_limit" path
            "History arrays must be dense, bounded and free of extra properties."
        else .ok (some length, inspected.properties)
      | none =>
        invalidHistoryData "entry_limit" path
          "History arrays must be dense, bounded and free of extra properties."
    else if AGENT_HISTORY_MAX_CONTENT_BLOCKS < inspected.properties.length then
      invalidHistoryData "entry_limit" path "History record has too many properties."
    else .ok (none, inspected.properties)

/-- The index below a length that a key spells: digits without a leading zero. -/
def keyIndex? (length : Nat) (key : JsString) : Option Nat :=
  (List.range length).find? fun index => key = natDecimal index

/-- The part of a path that a key names, after the checks of the key. -/
def propertyPart (length : Option Nat) (key : PropertyKey) (path : List HistoryPart) :
    Except HistoryError (JsString × HistoryPart) :=
  match key with
  | .symbol =>
    invalidHistoryData "invalid_data" path "History property names must be safe strings."
  | .text key =>
    if 128 < key.length ∨ key ∈ [js "__proto__", js "constructor", js "prototype"] then
      invalidHistoryData "invalid_data" path "History property names must be safe strings."
    else
      match length with
      | none => .ok (key, .name key)
      | some length =>
        match keyIndex? length key with
        | some index => .ok (key, .index index)
        | none =>
          invalidHistoryData "invalid_data" path
            "History arrays cannot contain extra properties."

/-- The value of a property that is enumerable data. -/
def propertyValue (descriptor : Descriptor ν ρ) (path : List HistoryPart) (key : JsString) :
    Except HistoryError (HistoryValue ν ρ) :=
  match descriptor with
  | .data value true => .ok value
  | _ =>
    invalidHistoryData "invalid_data" (path ++ [.name key])
      "History properties must be enumerable data properties."

/-- The separator in front of a member behind others. -/
def separator (retained : Bool) (path : List HistoryPart) (tally : Tally) :
    Except HistoryError (Tally × Unit) :=
  if retained then (reserve limit tally 1 path).map fun tally => (tally, ()) else .ok (tally, ())

/-- The name of a member; the elements of an array have none. -/
def memberName (length : Option Nat) (key : JsString) (path : List HistoryPart) (tally : Tally) :
    Except HistoryError (Tally × Unit) :=
  match length with
  | none =>
    (reserve limit tally (utf8Length (Json.quote key) + 1) path).map fun tally => (tally, ())
  | some _ => .ok (tally, ())

/-- The properties of an object, whose values are visited by `child`. -/
def visitProperties
    (child : HistoryValue ν ρ → List HistoryPart → Tally → Except HistoryError (Tally × JsonData ν))
    (length : Option Nat) (path : List HistoryPart) (retained : Bool) (tally : Tally) :
    List (PropertyKey × Descriptor ν ρ) →
      Except HistoryError (Tally × List (JsString × JsonData ν))
  | [] => .ok (tally, [])
  | (key, descriptor) :: rest =>
    if length.isSome = true ∧ key = .text (js "length") then
      visitProperties child length path retained tally rest
    else do
      let (name, part) ← propertyPart length key path
      match ← propertyValue descriptor path name, length with
      | .undefined, none => visitProperties child length path retained tally rest
      | value, _ => do
          let (tally, _) ← separator limit retained path tally
          let (tally, _) ← memberName limit length name path tally
          let (tally, data) ← child value (path ++ [part]) tally
          let (tally, members) ← visitProperties child length path true tally rest
          .ok (tally, (name, data) :: members)

/-- One more value is visited. -/
def countValue (path : List HistoryPart) (tally : Tally) : Except HistoryError (Tally × Unit) :=
  if MAX_VALUES < tally.values + 1 then
    invalidHistoryData "value_limit" path "History data contains too many values."
  else .ok ({ tally with values := tally.values + 1 }, ())

/-- A text; one that is longer than the limit is not encoded. -/
def visitText (text : JsString) (path : List HistoryPart) (tally : Tally) :
    Except HistoryError (Tally × JsonData ν) :=
  if limit < text.length then
    invalidHistoryData "byte_limit" path "History text exceeds its byte ceiling."
  else (reserve limit tally (utf8Length (Json.quote text)) path).map fun tally => (tally, .str text)

/-- A value whose text has no escapes. -/
def visitWord (data : JsonData ν) (word : JsString) (path : List HistoryPart) (tally : Tally) :
    Except HistoryError (Tally × JsonData ν) :=
  (reserve limit tally word.length path).map fun tally => (tally, data)

variable [DecidableEq ρ] (heap : Heap ν ρ)

/-- The visit of a value with so many levels left; none are left below `MAX_DEPTH`. -/
def visit : Nat → List ρ → HistoryValue ν ρ → List HistoryPart → Tally →
    Except HistoryError (Tally × JsonData ν)
  | 0, _, _, path, tally => do
      let _ ← countValue path tally
      invalidHistoryData "depth_limit" path "History data exceeds its nesting limit."
  | room + 1, ancestors, value, path, tally => do
      let (tally, _) ← countValue path tally
      match value with
      | .str text => visitText limit text path tally
      | .null => visitWord limit .null (js "null") path tally
      | .bool flag =>
        visitWord limit (.bool flag) (if flag then js "true" else js "false") path tally
      | .num number =>
        if N.isFinite number then visitWord limit (.num number) (N.spell number) path tally
        else
          invalidHistoryData "invalid_data" path "History data must contain finite JSON values."
      | .undefined | .other =>
        invalidHistoryData "invalid_data" path "History data must contain finite JSON values."
      | .object reference =>
        if reference ∈ ancestors then
          invalidHistoryData "invalid_data" path "History data cannot contain cycles."
        else do
          let (length, properties) ← inspect N heap reference path
          let (tally, _) ← (reserve limit tally 2 path).map fun tally => (tally, ())
          let (tally, members) ← visitProperties limit
            (visit room (reference :: ancestors)) length path false tally properties
          .ok (tally, if length.isSome then .arr (members.map Prod.snd) else .obj members)

end Walk

end AgentSdk.Saved
