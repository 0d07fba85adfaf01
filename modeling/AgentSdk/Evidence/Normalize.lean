import AgentSdk.Evidence.Values
import AgentSdk.Lib.Radix

/-!
# The normalization of provider data

`normalizedProviderValue` walks a value of any realm and builds JSON data from
it.  The walk recurses on the depth that is left; below the depth limit it sees
nothing.  The flag that the source shares between all calls only ever goes up,
so every call returns its own and the caller joins them.  A member under a
sensitive key is replaced without a look at its value.
-/

namespace AgentSdk

namespace Evidence

open AgentSdk.Text

structure NormalizedAgentProviderData (ν : Type) where
  data : JsonData ν
  structurallyTruncated : Bool

section Walk

variable {V ν : Type}

/-- A marker that stands for something left out. -/
def marked (text : JsString) : NormalizedAgentProviderData ν :=
  { data := .str text, structurallyTruncated := true }

def kept (data : JsonData ν) : NormalizedAgentProviderData ν :=
  { data := data, structurallyTruncated := false }

/-! ## Arrays -/

/-- The index that a key spells, as long as it is exact. -/
def arrayIndex : PropertyKey → Option Nat
  | .name text =>
    if natDecimal (readRadix 10 text) = text ∧ readRadix 10 text < 9007199254740992 then
      some (readRadix 10 text)
    else none
  | .symbol _ => none

/-- Whether an own key of an array is enumerable and no index below its length. -/
def isForeignKey (seen : Inspection V) (key : PropertyKey) : Attempt Bool := do
  match ← seen.enumerated key with
  | none => pure false
  | some descriptor =>
    if descriptor.enumerable then
      match arrayIndex key with
      | none => pure true
      | some index => do
          let length ← seen.length (.key key)
          pure (length.endsBy index)
    else pure false

def anyForeignKey (seen : Inspection V) : List PropertyKey → Attempt Bool
  | [] => pure false
  | key :: rest => do
      let foreign ← isForeignKey seen key
      let others ← anyForeignKey seen rest
      pure (foreign || others)

/-- An element by the descriptor of its index; a hole becomes `null`. -/
def normalizedElement (next : V → NormalizedAgentProviderData ν) :
    Option (Descriptor V) → NormalizedAgentProviderData ν
  | none => kept .null
  | some descriptor =>
    match descriptor.value with
    | none => marked (js "[Accessor]")
    | some value => next value

def normalizedElements (next : V → NormalizedAgentProviderData ν) (seen : Inspection V) :
    List Nat → Attempt (List (NormalizedAgentProviderData ν))
  | [] => pure []
  | index :: rest => do
      let descriptor ← seen.read (.name (natDecimal index))
      let others ← normalizedElements next seen rest
      pure (normalizedElement next descriptor :: others)

def normalizedArray (next : V → NormalizedAgentProviderData ν) (seen : Inspection V) :
    Attempt (NormalizedAgentProviderData ν) := do
  let limit ← seen.length .limit
  let keys ← seen.ownKeys
  let foreign ← anyForeignKey seen keys
  let length ← seen.length .loop
  let items ← normalizedElements next seen
    (List.range (length.rounds AGENT_PROVIDER_DATA_COLLECTION_LIMIT))
  pure
    { data := .arr (items.map (·.data))
      structurallyTruncated := limit.exceeds AGENT_PROVIDER_DATA_COLLECTION_LIMIT || foreign ||
        items.any (·.structurallyTruncated) }

/-! ## Objects -/

/-- The name that a marker gives a foreign object: an empty name counts as none. -/
def constructorName (name : Option JsString) : JsString :=
  match name with
  | none => js "Object"
  | some [] => js "Object"
  | some text => text

def enumerableKeys (seen : Inspection V) : List PropertyKey → Attempt (List PropertyKey)
  | [] => pure []
  | key :: rest => do
      let descriptor ← seen.enumerated key
      let others ← enumerableKeys seen rest
      pure (if descriptor.any (·.enumerable) then key :: others else others)

def PropertyKey.text? : PropertyKey → Option JsString
  | .name text => some text
  | .symbol _ => none

/-- The members written so far, and what was left out of them. -/
structure NormalizedMembers (ν : Type) where
  fields : List (JsString × JsonData ν)
  structurallyTruncated : Bool

def normalizedMember (next : V → NormalizedAgentProviderData ν) (key : JsString)
    (descriptor : Descriptor V) : NormalizedAgentProviderData ν :=
  match descriptor.value with
  | none => marked (js "[Accessor]")
  | some value =>
    if isSensitiveKey key then kept (.str AGENT_PROVIDER_DATA_REDACTION_REPLACEMENT)
    else next value

/-- The selected members from `index` on.  A property that has gone since it was enumerated is
passed over. -/
def normalizedMembers (next : V → NormalizedAgentProviderData ν) (seen : Inspection V)
    (preservedKeys : List JsString) :
    (index : Nat) → (usedKeys : List JsString) → List JsString → Attempt (NormalizedMembers ν)
  | _, _, [] => pure { fields := [], structurallyTruncated := false }
  | index, usedKeys, key :: rest => do
      match ← seen.read (.name key) with
      | none => normalizedMembers next seen preservedKeys (index + 1) usedKeys rest
      | some descriptor => do
          let normalizedKey := normalizedObjectKey key index preservedKeys usedKeys
          let value := normalizedMember next key descriptor
          let others ← normalizedMembers next seen preservedKeys (index + 1)
            (normalizedKey.key :: usedKeys) rest
          pure
            { fields := (normalizedKey.key, value.data) :: others.fields
              structurallyTruncated := normalizedKey.rewritten || value.structurallyTruncated ||
                others.structurallyTruncated }

/-- The string keys whose members are looked at. -/
def selectedKeys (enumerable : List PropertyKey) : List JsString :=
  (enumerable.filterMap PropertyKey.text?).take AGENT_PROVIDER_DATA_COLLECTION_LIMIT

def normalizedRecord (next : V → NormalizedAgentProviderData ν) (seen : Inspection V) :
    Attempt (NormalizedAgentProviderData ν) := do
  let keys ← seen.ownKeys
  let enumerable ← enumerableKeys seen keys
  let members ← normalizedMembers next seen
    ((selectedKeys enumerable).filter isPortableAgentProviderDataKey) 0 []
    (selectedKeys enumerable)
  pure
    { data := .obj members.fields
      structurallyTruncated := enumerable.any (·.text?.isNone) ||
        decide (AGENT_PROVIDER_DATA_COLLECTION_LIMIT < enumerable.length) ||
        members.structurallyTruncated }

/-! ## The walk -/

def normalizedObject (next : V → NormalizedAgentProviderData ν) (seen : Inspection V) :
    Attempt (NormalizedAgentProviderData ν) := do
  if ← seen.isArray then normalizedArray next seen
  else
    match ← seen.prototype with
    | .plain => normalizedRecord next seen
    | .other name => do
        let name ← name
        pure (marked (js "[Unsupported:" ++ constructorName name ++ js "]"))

/-- The value at a depth with `room` levels left, its own included. -/
def normalizedProviderValue (W : Realm V ν) :
    (room : Nat) → (ancestors : List V) → V → NormalizedAgentProviderData ν
  | 0, _, _ => marked (js "[MaxDepth]")
  | room + 1, ancestors, value =>
    match W.inspect value with
    | .null => kept .null
    | .bool value => kept (.bool value)
    | .num value => kept (.num value)
    | .nonFinite => marked (js "[NonFiniteNumber]")
    | .str value => kept (.str value)
    | .foreign value => marked (js "[Unsupported:" ++ value.typeof ++ js "]")
    | .object seen =>
      if ancestors.any (W.same value) then marked (js "[Circular]")
      else
        match normalizedObject (normalizedProviderValue W room (value :: ancestors)) seen with
        | .ok normalized => normalized
        | .error _ => marked (js "[Uninspectable]")

def normalizeAgentProviderData (W : Realm V ν) (value : V) : NormalizedAgentProviderData ν :=
  normalizedProviderValue W (AGENT_PROVIDER_DATA_DEPTH_LIMIT + 1) [] value

end Walk

end Evidence

end AgentSdk
