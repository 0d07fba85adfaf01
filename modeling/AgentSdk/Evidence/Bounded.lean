import AgentSdk.Evidence.Normalize

/-!
# Bounded provider data

Provider data are normalized and kept when they fit a byte limit; otherwise a
small record says that they did not.  The protocol's own parser has the last
word on what is kept, and `validateBoundedAgentProviderData` asks it again and
repeats the redaction.  Data that are already JSON are a realm of their own.

A number is given by its spelling, and a count of bytes is such a number.

## Main results

* `serialized_bytes` — the count that never builds the text is the size of the text.
* `isDeepStrictEqual_self` — data equal themselves.
-/

namespace AgentSdk

namespace Evidence

open AgentSdk.Text

variable {V ν : Type}

/-! ## JSON data as a realm -/

/-- The own keys of an array of `count` elements. -/
def arrayKeys (count : Nat) : List PropertyKey :=
  (List.range count).map (fun index => .name (natDecimal index)) ++ [.name (js "length")]

theorem arrayKeys_nodup (count : Nat) : (arrayKeys count).Nodup := by
  have hinj : Function.Injective fun index => PropertyKey.name (natDecimal index) := by
    intro m n h
    exact natDecimal_inj (PropertyKey.name.inj h)
  refine List.nodup_append.2 ⟨List.nodup_range.map hinj, List.nodup_singleton _, ?_⟩
  intro key hkey other hother heq
  obtain ⟨index, -, rfl⟩ := List.mem_map.1 hkey
  have hlast := List.mem_singleton.1 hother
  rw [hlast, PropertyKey.name.injEq] at heq
  have hletter : UInt16.ofNat 108 ∈ natDecimal index := heq ▸ (by decide)
  exact absurd (natDecimal_unit hletter).2 (by decide)

/-- A property of an array.  Its length is not enumerable, and nothing looks at its value. -/
def elementAt (items : List (JsonData ν)) (key : PropertyKey) : Option (Descriptor (JsonData ν)) :=
  match arrayIndex key with
  | some index => items[index]?.map fun item => { enumerable := true, value := some item }
  | none =>
    if key = .name (js "length") then some { enumerable := false, value := none } else none

def arraySeen (items : List (JsonData ν)) : Inspection (JsonData ν) where
  isArray := .ok true
  length := fun _ => .ok (.indices items.length)
  ownKeys := .ok (arrayKeys items.length)
  enumerated := fun key => .ok (elementAt items key)
  read := fun key => .ok (elementAt items key)
  prototype := .ok (.other (.ok (some (js "Array"))))
  ownKeys_nodup _ h := Except.ok.inj h ▸ arrayKeys_nodup items.length

/-- A property of an object with the given members. -/
def memberAt (fields : List (JsString × JsonData ν)) :
    PropertyKey → Option (Descriptor (JsonData ν))
  | .name text =>
    (fields.lookup text).map fun value => { enumerable := true, value := some value }
  | .symbol _ => none

/-- The own keys of an object with the given members. -/
def objectKeys (fields : List (JsString × JsonData ν)) : List PropertyKey :=
  (fields.map Prod.fst).dedup.map PropertyKey.name

theorem objectKeys_nodup (fields : List (JsString × JsonData ν)) : (objectKeys fields).Nodup :=
  (List.nodup_dedup _).map fun _ _ h => PropertyKey.name.inj h

def objectSeen (fields : List (JsString × JsonData ν)) : Inspection (JsonData ν) where
  isArray := .ok false
  length := fun _ => .ok .nan
  ownKeys := .ok (objectKeys fields)
  enumerated := fun key => .ok (memberAt fields key)
  read := fun key => .ok (memberAt fields key)
  prototype := .ok .plain
  ownKeys_nodup _ h := Except.ok.inj h ▸ objectKeys_nodup fields

/-- JSON data as values: no part of it holds itself. -/
def jsonRealm : Realm (JsonData ν) ν where
  inspect
    | .null => .null
    | .bool value => .bool value
    | .num value => .num value
    | .str value => .str value
    | .arr items => .object (arraySeen items)
    | .obj fields => .object (objectSeen fields)
  same _ _ := false

/-! ## The protocol's parser -/

def AGENT_PROTOCOL_JSON_DEPTH_LIMIT : Nat := 16
def AGENT_PROTOCOL_COLLECTION_MAX_LENGTH : Nat := 100
def AGENT_PROTOCOL_JSON_BYTES_LIMIT : Nat := 32768

/-- How numbers are spelled, and which number a count of bytes is. -/
structure Numerals (ν : Type) where
  spell : ν → JsString
  count : Nat → ν
  spell_ascii : ∀ n, ∀ unit ∈ spell n, unit.toNat < 0x80
  /-- No number takes more characters. -/
  spell_short : ∀ n, (spell n).length ≤ 25

/-- Whole numbers of at most fifteen digits. -/
abbrev Whole := Fin 1000000000000000

theorem whole_lt (bytes : Nat) : min bytes 999999999999999 < 1000000000000000 := by
  omega

theorem whole_ascii (n : Whole) (unit : UInt16) (hunit : unit ∈ natDecimal n.val) :
    unit.toNat < 0x80 := by
  have hdigit := natDecimal_unit hunit
  omega

theorem whole_short (n : Whole) : (natDecimal n.val).length ≤ 25 := by
  have hlength : (natDecimal n.val).length ≤ 15 := length_natDecimal_le (by omega) n.isLt
  omega

/-- Whole numbers in decimal, the largest one standing for those above. -/
def wholeNumerals : Numerals Whole where
  spell n := natDecimal n.val
  count bytes := ⟨min bytes 999999999999999, whole_lt bytes⟩
  spell_ascii := whole_ascii
  spell_short := whole_short

inductive Failure where
  | rangeError (message : JsString)
  | typeError (message : JsString)
  | protocolValidation
  deriving DecidableEq

/-- The test of `AGENT_JSON_OBJECT_KEY_PATTERN`. -/
def isObjectKey (key : JsString) : Bool := !AGENT_PROVIDER_DATA_PROTOTYPE_KEYS.contains key

mutual

/-- The walk before the schema: depth, collections and the names of properties. -/
def passesProtocolInputPreflight : (depth : Nat) → JsonData ν → Bool
  | depth, .arr items =>
    decide (depth ≤ AGENT_PROTOCOL_JSON_DEPTH_LIMIT) &&
      decide (items.length ≤ AGENT_PROTOCOL_COLLECTION_MAX_LENGTH) &&
      itemsPassPreflight (depth + 1) items
  | depth, .obj fields =>
    decide (depth ≤ AGENT_PROTOCOL_JSON_DEPTH_LIMIT) &&
      decide (fields.length ≤ AGENT_PROTOCOL_COLLECTION_MAX_LENGTH) &&
      fieldsPassPreflight (depth + 1) fields
  | depth, _ => decide (depth ≤ AGENT_PROTOCOL_JSON_DEPTH_LIMIT)

def itemsPassPreflight : (depth : Nat) → List (JsonData ν) → Bool
  | _, [] => true
  | depth, item :: rest =>
    passesProtocolInputPreflight depth item && itemsPassPreflight depth rest

def fieldsPassPreflight : (depth : Nat) → List (JsString × JsonData ν) → Bool
  | _, [] => true
  | depth, (key, value) :: rest =>
    isObjectKey key && passesProtocolInputPreflight depth value && fieldsPassPreflight depth rest

end

/-- The test of `AgentJsonObjectKeySchema`. -/
def isJsonObjectKey (key : JsString) : Bool :=
  decide (1 ≤ key.length) && decide (key.length ≤ AGENT_PROTOCOL_JSON_KEY_MAX_LENGTH) &&
    isObjectKey key

mutual

/-- The test of `AgentJsonValuePortableSchema`. -/
def isPortableJsonValue : JsonData ν → Bool
  | .str value => decide (value.length ≤ AGENT_PROTOCOL_JSON_BYTES_LIMIT)
  | .arr items =>
    decide (items.length ≤ AGENT_PROTOCOL_COLLECTION_MAX_LENGTH) && itemsPortable items
  | .obj fields => fieldsPortable fields
  | _ => true

def itemsPortable : List (JsonData ν) → Bool
  | [] => true
  | item :: rest => isPortableJsonValue item && itemsPortable rest

def fieldsPortable : List (JsString × JsonData ν) → Bool
  | [] => true
  | (key, value) :: rest => isJsonObjectKey key && isPortableJsonValue value && fieldsPortable rest

end

/-- The size of the text that `JSON.stringify` prints. -/
def agentProtocolSerializedJsonBytes (N : Numerals ν) (value : JsonData ν) : Nat :=
  utf8Length (value.stringify N.spell)

/-- The count that goes without the text. -/
def serializedAgentJsonValueBytes (N : Numerals ν) (value : JsonData ν) : Nat :=
  value.bytes N.spell

theorem serialized_bytes (N : Numerals ν) (value : JsonData ν) :
    agentProtocolSerializedJsonBytes N value = serializedAgentJsonValueBytes N value :=
  JsonData.stringify_bytes N.spell_ascii value

def parseAgentJsonValue (N : Numerals ν) (value : JsonData ν) : Except Failure (JsonData ν) :=
  if passesProtocolInputPreflight 0 value && isPortableJsonValue value &&
      decide (agentProtocolSerializedJsonBytes N value ≤ AGENT_PROTOCOL_JSON_BYTES_LIMIT) then
    .ok value
  else .error .protocolValidation

/-! ## Redacted and bounded data -/

def redactAgentProviderData (N : Numerals ν) (W : Realm V ν) (value : V) :
    Except Failure (JsonData ν) :=
  parseAgentJsonValue N (normalizeAgentProviderData W value).data

inductive TruncationReason where
  | byte_limit_exceeded
  | structural_limit_exceeded
  | byte_and_structural_limits_exceeded
  deriving DecidableEq

def TruncationReason.text : TruncationReason → JsString
  | .byte_limit_exceeded => js "byte_limit_exceeded"
  | .structural_limit_exceeded => js "structural_limit_exceeded"
  | .byte_and_structural_limits_exceeded => js "byte_and_structural_limits_exceeded"

structure BoundedAgentProviderData (ν : Type) where
  data : JsonData ν
  dataBytes : Nat
  originalDataBytes : Option Nat
  truncated : Bool
  truncationReason : Option TruncationReason
  redacted : Bool

def AGENT_PROVIDER_EVIDENCE_BYTES_LIMIT : Int := 24576
def AGENT_PROVIDER_DATA_BYTES_LIMIT_MAX : Nat := AGENT_PROTOCOL_JSON_BYTES_LIMIT

/-- A limit that is no integer is refused as one out of range is. -/
def validatedBytesLimit (limit : Int) : Except Failure Nat :=
  if limit < 256 ∨ (AGENT_PROVIDER_DATA_BYTES_LIMIT_MAX : Int) < limit then
    .error (.rangeError
      (js "Provider data byte limits must be an integer from 256 through 32768."))
  else .ok limit.toNat

/-- The record that stands for data over the limit. -/
def truncatedRecord (N : Numerals ν) (reason : TruncationReason) (original : Option Nat) :
    JsonData ν :=
  .obj
    [(js "truncated", .bool true), (js "reason", .str reason.text),
      (js "originalDataBytes", original.elim .null fun bytes => .num (N.count bytes))]

/-- Normalized data within a limit, or the record that stands for them. -/
def boundedData (N : Numerals ν) (limit : Nat) (normalized : NormalizedAgentProviderData ν) :
    Except Failure (BoundedAgentProviderData ν) :=
  if serializedAgentJsonValueBytes N normalized.data ≤ limit then do
    let data ← parseAgentJsonValue N normalized.data
    if normalized.structurallyTruncated then
      pure
        { data := data
          dataBytes := serializedAgentJsonValueBytes N normalized.data
          originalDataBytes := none
          truncated := true
          truncationReason := some .structural_limit_exceeded
          redacted := true }
    else
      pure
        { data := data
          dataBytes := serializedAgentJsonValueBytes N normalized.data
          originalDataBytes := some (serializedAgentJsonValueBytes N normalized.data)
          truncated := false
          truncationReason := none
          redacted := true }
  else if normalized.structurallyTruncated then do
    let truncatedData ← parseAgentJsonValue N
      (truncatedRecord N .byte_and_structural_limits_exceeded none)
    pure
      { data := truncatedData
        dataBytes := agentProtocolSerializedJsonBytes N truncatedData
        originalDataBytes := none
        truncated := true
        truncationReason := some .byte_and_structural_limits_exceeded
        redacted := true }
  else do
    let truncatedData ← parseAgentJsonValue N
      (truncatedRecord N .byte_limit_exceeded
        (some (serializedAgentJsonValueBytes N normalized.data)))
    pure
      { data := truncatedData
        dataBytes := agentProtocolSerializedJsonBytes N truncatedData
        originalDataBytes := some (serializedAgentJsonValueBytes N normalized.data)
        truncated := true
        truncationReason := some .byte_limit_exceeded
        redacted := true }

def createBoundedAgentProviderData (N : Numerals ν) (W : Realm V ν) (value : V)
    (bytesLimit : Int) : Except Failure (BoundedAgentProviderData ν) := do
  let validatedLimit ← validatedBytesLimit bytesLimit
  boundedData N validatedLimit (normalizeAgentProviderData W value)

/-! ## Validation -/

section Equality

variable [DecidableEq ν]

mutual

/-- Members are compared in their order, which redaction keeps. -/
def isDeepStrictEqual : JsonData ν → JsonData ν → Bool
  | .null, .null => true
  | .bool a, .bool b => a == b
  | .num a, .num b => decide (a = b)
  | .str a, .str b => decide (a = b)
  | .arr a, .arr b => itemsEqual a b
  | .obj a, .obj b => fieldsEqual a b
  | _, _ => false

def itemsEqual : List (JsonData ν) → List (JsonData ν) → Bool
  | [], [] => true
  | a :: as, b :: bs => isDeepStrictEqual a b && itemsEqual as bs
  | _, _ => false

def fieldsEqual : List (JsString × JsonData ν) → List (JsString × JsonData ν) → Bool
  | [], [] => true
  | (k, a) :: as, (l, b) :: bs => decide (k = l) && isDeepStrictEqual a b && fieldsEqual as bs
  | _, _ => false

end

mutual

theorem isDeepStrictEqual_self : ∀ a : JsonData ν, isDeepStrictEqual a a = true
  | .null => rfl
  | .bool a => by simp [isDeepStrictEqual]
  | .num a => by simp [isDeepStrictEqual]
  | .str a => by simp [isDeepStrictEqual]
  | .arr items => by rw [isDeepStrictEqual, itemsEqual_self items]
  | .obj fields => by rw [isDeepStrictEqual, fieldsEqual_self fields]

theorem itemsEqual_self : ∀ items : List (JsonData ν), itemsEqual items items = true
  | [] => rfl
  | item :: rest => by rw [itemsEqual, isDeepStrictEqual_self item, itemsEqual_self rest]; rfl

theorem fieldsEqual_self : ∀ fields : List (JsString × JsonData ν), fieldsEqual fields fields = true
  | [] => rfl
  | (key, value) :: rest => by
      rw [fieldsEqual, isDeepStrictEqual_self value, fieldsEqual_self rest]
      simp

end

def accountingInvalid : Failure :=
  .typeError (js "Bounded provider data byte accounting is invalid.")

def metadataInvalid : Failure :=
  .typeError (js "Bounded provider data truncation metadata is invalid.")

/-- The test of `Number.isSafeInteger` on a count of bytes. -/
def isSafeCount (bytes : Nat) : Bool := decide (bytes < 9007199254740992)

/-- The checks on the counts and on the reason, once the data are known to be canonical. -/
def validAccounting (dataBytes : Nat) (input : BoundedAgentProviderData ν) :
    Except Failure Unit :=
  if input.truncated = false then
    if input.truncationReason.isNone &&
        input.originalDataBytes.any (fun bytes => isSafeCount bytes && bytes == dataBytes) then
      .ok ()
    else .error accountingInvalid
  else
    match input.truncationReason with
    | some .byte_limit_exceeded =>
      if input.originalDataBytes.any
          (fun bytes => isSafeCount bytes && decide (dataBytes < bytes)) then
        .ok ()
      else .error accountingInvalid
    | some .structural_limit_exceeded | some .byte_and_structural_limits_exceeded =>
      if input.originalDataBytes.isNone then .ok () else .error metadataInvalid
    | none => .error metadataInvalid

def validateBoundedAgentProviderData (N : Numerals ν) (input : BoundedAgentProviderData ν) :
    Except Failure (BoundedAgentProviderData ν) := do
  if input.redacted = false then
    .error (.typeError (js "Bounded provider data is invalid."))
  else
    let data ← parseAgentJsonValue N input.data
    let redacted ← redactAgentProviderData N jsonRealm data
    if isDeepStrictEqual data redacted then
      if input.dataBytes = agentProtocolSerializedJsonBytes N data then do
        let _ ← validAccounting (agentProtocolSerializedJsonBytes N data) input
        pure
          { data := data
            dataBytes := agentProtocolSerializedJsonBytes N data
            originalDataBytes := input.originalDataBytes
            truncated := input.truncated
            truncationReason := input.truncationReason
            redacted := true }
      else .error accountingInvalid
    else
      .error (.typeError
        (js "Bounded provider data must be canonically normalized and redacted."))

end Equality

end Evidence

end AgentSdk
