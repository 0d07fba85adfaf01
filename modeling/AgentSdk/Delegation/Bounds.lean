import AgentSdk.Lib.JsonSize
import AgentSdk.Lib.Outcome

/-!
# Errors and the bounded capture of plain data

What a function of the delegation package can throw, and the walk that copies
its inputs: at most 1 MiB of serialized JSON, sixteen levels and a thousand
entries for each array or object.

## Main results

* `copyBoundedDelegationData_eq_ok` — the walk accepts exactly the values that
  are small, shallow and narrow enough.
-/

namespace AgentSdk.Delegation

open AgentSdk.Text AgentSdk.Outcome

/-! ## Errors -/

/-- Codes of operational failures. -/
inductive ErrorCode
  | delegationDisabled | policyDenied | targetUnavailable | staleTarget
  | unsupportedOperation | capacityExceeded | operationConflict | staleRevision
  | ownerLost | requestUnavailable | deliveryUncertain | recoveryRequired | storeFailed
  deriving DecidableEq

/-- Codes of validation failures; `schema` stands for any schema issue. -/
inductive ValidationCode
  | byteLimit | depthLimit | entryLimit | invalidData | invalidCeiling | schema
  deriving DecidableEq

/-- What a delegation function can throw; `range` is the error of printing a
date that is none. -/
inductive Failure
  | operation (code : ErrorCode) (message : JsString)
  | invalid (code : ValidationCode)
  | range
  deriving DecidableEq

abbrev Result := Except Failure

/-- `failDelegation` behind a condition. -/
abbrev failWhen (c : Prop) [Decidable c] (code : ErrorCode) (message : String) : Result Unit :=
  failIf c (Failure.operation code (js message))

/-- A parser's failure behind a condition. -/
abbrev invalidWhen (c : Prop) [Decidable c] (code : ValidationCode) : Result Unit :=
  failIf c (Failure.invalid code)

/-! ## Bounded capture -/

def DELEGATION_DOCUMENT_BYTES : Nat := 1048576
def DELEGATION_ENTRIES : Nat := 1000

/-- Property names that are refused. -/
def unsafeKeys : List JsString := [js "__proto__", js "constructor", js "prototype"]

/-- Count serialized bytes against the document limit. -/
def reserve (bytes count : Nat) : Result Nat := do
  invalidWhen (bytes + count > DELEGATION_DOCUMENT_BYTES) .byteLimit
  pure (bytes + count)

mutual

/-- The capture walk; its result is the number of bytes counted so far. -/
def visit : Json → Nat → Nat → Result Nat
  | .str value, depth, bytes => do
      invalidWhen (depth > 16) .depthLimit
      invalidWhen (value.length > DELEGATION_DOCUMENT_BYTES) .byteLimit
      reserve bytes (utf8Length (Json.quote value))
  | .null, depth, bytes => do
      invalidWhen (depth > 16) .depthLimit
      reserve bytes (Json.stringify .null).length
  | .bool value, depth, bytes => do
      invalidWhen (depth > 16) .depthLimit
      reserve bytes (Json.stringify (.bool value)).length
  | .num value, depth, bytes => do
      invalidWhen (depth > 16) .depthLimit
      reserve bytes (Json.stringify (.num value)).length
  | .arr items, depth, bytes => do
      invalidWhen (depth > 16) .depthLimit
      invalidWhen (items.length > DELEGATION_ENTRIES) .invalidData
      let bytes ← reserve bytes (2 + (items.length - 1))
      visitItems items (depth + 1) bytes
  | .obj fields, depth, bytes => do
      invalidWhen (depth > 16) .depthLimit
      invalidWhen (fields.length > DELEGATION_ENTRIES) .entryLimit
      invalidWhen (∃ field ∈ fields, field.1 ∈ unsafeKeys) .invalidData
      let bytes ← reserve bytes (2 + (fields.length - 1))
      visitFields fields (depth + 1) bytes

/-- `visit` over the entries of an array. -/
def visitItems : List Json → Nat → Nat → Result Nat
  | [], _, bytes => pure bytes
  | item :: rest, depth, bytes => do
      let bytes ← visit item depth bytes
      visitItems rest depth bytes

/-- `visit` over the properties of an object. -/
def visitFields : List (JsString × Json) → Nat → Nat → Result Nat
  | [], _, bytes => pure bytes
  | (key, value) :: rest, depth, bytes => do
      let bytes ← reserve bytes (utf8Length (Json.quote key) + 1)
      let bytes ← visit value depth bytes
      visitFields rest depth bytes

end

/-- Capture of plain data: the value itself, or the first bound it breaks. -/
def copyBoundedDelegationData (input : Json) : Result Unit := do
  let _ ← visit input 0 0
  pure ()

mutual

/-- Narrow, safely named and at most `room` levels deep. -/
def shallow : Nat → Json → Bool
  | room, .arr items =>
    decide (items.length ≤ DELEGATION_ENTRIES) && shallowItems room items
  | room, .obj fields =>
    decide (fields.length ≤ DELEGATION_ENTRIES) &&
      (fields.all fun field => decide (field.1 ∉ unsafeKeys)) && shallowFields room fields
  | _, .null => true
  | _, .bool _ => true
  | _, .num _ => true
  | _, .str _ => true

/-- `shallow`, one level down, for every entry of an array. -/
def shallowItems : Nat → List Json → Bool
  | _, [] => true
  | 0, _ :: _ => false
  | room + 1, item :: rest => shallow room item && shallowItems (room + 1) rest

/-- `shallow`, one level down, for every property of an object. -/
def shallowFields : Nat → List (JsString × Json) → Bool
  | _, [] => true
  | 0, _ :: _ => false
  | room + 1, (_, value) :: rest => shallow room value && shallowFields (room + 1) rest

end

theorem reserve_eq_ok {bytes count n : Nat} :
    reserve bytes count = .ok n ↔ n = bytes + count ∧ n ≤ DELEGATION_DOCUMENT_BYTES := by
  simp only [reserve, failIf_bind_eq_ok, pure_eq_ok, Except.ok.injEq]
  constructor
  · rintro ⟨hle, rfl⟩
    exact ⟨rfl, by omega⟩
  · rintro ⟨rfl, hle⟩
    exact ⟨by omega, rfl⟩

private theorem stringify_length (v : Json) (h : ∀ s, v ≠ .str s)
    (harr : ∀ items, v ≠ .arr items) (hobj : ∀ fields, v ≠ .obj fields) :
    (Json.stringify v).length = Json.jsonBytes v := by
  cases v with
  | null => rw [Json.stringify, Json.jsonBytes]; decide
  | bool b => cases b <;> rw [Json.stringify, Json.jsonBytes] <;> decide
  | num n => rw [Json.stringify, Json.jsonBytes]
  | str s => exact absurd rfl (h s)
  | arr items => exact absurd rfl (harr items)
  | obj fields => exact absurd rfl (hobj fields)

mutual

/-- The walk accepts a value exactly when it is shallow and its bytes fit. -/
theorem visit_eq_ok : ∀ (v : Json) (depth bytes n : Nat),
    visit v depth bytes = .ok n ↔ depth ≤ 16 ∧ shallow (16 - depth) v = true ∧
      n = bytes + Json.jsonBytes v ∧ n ≤ DELEGATION_DOCUMENT_BYTES
  | .null, depth, bytes, n | .bool _, depth, bytes, n | .num _, depth, bytes, n => by
      rw [← stringify_length _ (by simp) (by simp) (by simp)]
      simp only [visit, failIf_bind_eq_ok, reserve_eq_ok, shallow]
      grind
  | .str s, depth, bytes, n => by
      have hlen := Json.length_le_escapeBytes s
      simp only [visit, failIf_bind_eq_ok, reserve_eq_ok, shallow, (Json.quote_size s).2,
        Json.jsonBytes, Json.quoteBytes]
      constructor
      · rintro ⟨hdepth, _, rfl, hle⟩
        exact ⟨by omega, trivial, rfl, hle⟩
      · rintro ⟨hdepth, _, rfl, hle⟩
        exact ⟨by omega, by omega, rfl, hle⟩
  | .arr items, depth, bytes, n => by
      simp only [visit, bind_eq_ok, failIf_eq_ok, exists_const, reserve_eq_ok, shallow, Json.jsonBytes,
        Bool.and_eq_true, decide_eq_true_eq]
      constructor
      · rintro ⟨hdepth, hlen, m, ⟨rfl, hm⟩, hitems⟩
        obtain ⟨hshallow, rfl, hle⟩ := (visitItems_eq_ok items (depth + 1) _ n hm).1 hitems
        rw [show 17 - (depth + 1) = 16 - depth by omega] at hshallow
        exact ⟨by omega, ⟨by omega, hshallow⟩, by omega, hle⟩
      · rintro ⟨hdepth, ⟨hlen, hshallow⟩, rfl, hle⟩
        have hm : bytes + (2 + (items.length - 1)) ≤ DELEGATION_DOCUMENT_BYTES := by omega
        refine ⟨by omega, by omega, _, ⟨rfl, hm⟩, ?_⟩
        refine (visitItems_eq_ok items (depth + 1) _ _ hm).2 ⟨?_, by omega, hle⟩
        rwa [show 17 - (depth + 1) = 16 - depth by omega]
  | .obj fields, depth, bytes, n => by
      simp only [visit, bind_eq_ok, failIf_eq_ok, exists_const, reserve_eq_ok, shallow, Json.jsonBytes,
        Bool.and_eq_true, decide_eq_true_eq, List.all_eq_true, not_exists, not_and]
      constructor
      · rintro ⟨hdepth, hlen, hkeys, m, ⟨rfl, hm⟩, hfields⟩
        obtain ⟨hshallow, rfl, hle⟩ := (visitFields_eq_ok fields (depth + 1) _ n hm).1 hfields
        rw [show 17 - (depth + 1) = 16 - depth by omega] at hshallow
        exact ⟨by omega, ⟨⟨by omega, hkeys⟩, hshallow⟩, by omega, hle⟩
      · rintro ⟨hdepth, ⟨⟨hlen, hkeys⟩, hshallow⟩, rfl, hle⟩
        have hm : bytes + (2 + (fields.length - 1)) ≤ DELEGATION_DOCUMENT_BYTES := by omega
        refine ⟨by omega, by omega, hkeys, _, ⟨rfl, hm⟩, ?_⟩
        refine (visitFields_eq_ok fields (depth + 1) _ _ hm).2 ⟨?_, by omega, hle⟩
        rwa [show 17 - (depth + 1) = 16 - depth by omega]

theorem visitItems_eq_ok : ∀ (items : List Json) (depth bytes n : Nat),
    bytes ≤ DELEGATION_DOCUMENT_BYTES →
    (visitItems items depth bytes = .ok n ↔ shallowItems (17 - depth) items = true ∧
      n = bytes + Json.itemsBytes items ∧ n ≤ DELEGATION_DOCUMENT_BYTES)
  | [], depth, bytes, n, hb => by
      simp only [visitItems, pure_eq_ok, Except.ok.injEq, Json.itemsBytes]
      cases 17 - depth <;> simp only [shallowItems] <;> grind
  | item :: rest, depth, bytes, n, _ => by
      simp only [visitItems, bind_eq_ok, Json.itemsBytes]
      constructor
      · rintro ⟨m, hitem, hrest⟩
        obtain ⟨hdepth, hshallow, rfl, hm⟩ := (visit_eq_ok item depth bytes m).1 hitem
        obtain ⟨hshallows, rfl, hle⟩ := (visitItems_eq_ok rest depth _ n hm).1 hrest
        rw [show 17 - depth = (16 - depth) + 1 by omega] at hshallows ⊢
        exact ⟨by simp only [shallowItems, hshallow, hshallows, Bool.and_self], by omega, hle⟩
      · rintro ⟨hshallow, rfl, hle⟩
        cases hroom : 17 - depth with
        | zero => simp [hroom, shallowItems] at hshallow
        | succ room =>
          rw [hroom] at hshallow
          simp only [shallowItems, Bool.and_eq_true] at hshallow
          have hm : bytes + Json.jsonBytes item ≤ DELEGATION_DOCUMENT_BYTES := by omega
          refine ⟨_, (visit_eq_ok item depth bytes _).2 ⟨by omega, ?_, rfl, hm⟩,
            (visitItems_eq_ok rest depth _ _ hm).2 ⟨?_, by omega, hle⟩⟩
          · rw [show 16 - depth = room by omega]
            exact hshallow.1
          · rw [hroom]
            exact hshallow.2

theorem visitFields_eq_ok : ∀ (fields : List (JsString × Json)) (depth bytes n : Nat),
    bytes ≤ DELEGATION_DOCUMENT_BYTES →
    (visitFields fields depth bytes = .ok n ↔ shallowFields (17 - depth) fields = true ∧
      n = bytes + Json.fieldsBytes fields ∧ n ≤ DELEGATION_DOCUMENT_BYTES)
  | [], depth, bytes, n, hb => by
      simp only [visitFields, pure_eq_ok, Except.ok.injEq, Json.fieldsBytes]
      cases 17 - depth <;> simp only [shallowFields] <;> grind
  | (key, value) :: rest, depth, bytes, n, _ => by
      simp only [visitFields, bind_eq_ok, reserve_eq_ok, Json.fieldsBytes, (Json.quote_size key).2]
      constructor
      · rintro ⟨k, ⟨rfl, -⟩, m, hvalue, hrest⟩
        obtain ⟨hdepth, hshallow, rfl, hm⟩ := (visit_eq_ok value depth _ m).1 hvalue
        obtain ⟨hshallows, rfl, hle⟩ := (visitFields_eq_ok rest depth _ n hm).1 hrest
        rw [show 17 - depth = (16 - depth) + 1 by omega] at hshallows ⊢
        exact ⟨by simp only [shallowFields, hshallow, hshallows, Bool.and_self], by omega, hle⟩
      · rintro ⟨hshallow, rfl, hle⟩
        cases hroom : 17 - depth with
        | zero => simp [hroom, shallowFields] at hshallow
        | succ room =>
          rw [hroom] at hshallow
          simp only [shallowFields, Bool.and_eq_true] at hshallow
          have hm : bytes + (Json.quoteBytes key + 1) + Json.jsonBytes value ≤
              DELEGATION_DOCUMENT_BYTES := by omega
          refine ⟨_, ⟨rfl, by omega⟩, _,
            (visit_eq_ok value depth _ _).2 ⟨by omega, ?_, rfl, hm⟩,
            (visitFields_eq_ok rest depth _ _ hm).2 ⟨?_, by omega, hle⟩⟩
          · rw [show 16 - depth = room by omega]
            exact hshallow.1
          · rw [hroom]
            exact hshallow.2

end

/-- **Capture** accepts exactly the shallow values of at most 1 MiB. -/
theorem copyBoundedDelegationData_eq_ok {v : Json} {u : Unit} :
    copyBoundedDelegationData v = .ok u ↔
      shallow 16 v = true ∧ Json.jsonBytes v ≤ DELEGATION_DOCUMENT_BYTES := by
  simp only [copyBoundedDelegationData, bind_eq_ok, visit_eq_ok, pure_eq_ok, and_true]
  constructor
  · rintro ⟨n, _, hshallow, rfl, hle⟩
    exact ⟨hshallow, by omega⟩
  · rintro ⟨hshallow, hle⟩
    exact ⟨_, by omega, hshallow, rfl, by omega⟩

attribute [irreducible] copyBoundedDelegationData

end AgentSdk.Delegation
