import AgentSdk.Lib.JsonMeasure
import AgentSdk.Lib.Fresh
import Mathlib.Data.List.Infix

/-!
# Provider values as they are inspected

A provider may hand over any JavaScript value: cyclic, sparse, with accessors,
or a proxy whose traps throw or contradict each other.  A value is therefore
what inspecting it answers.  `Realm` gives those answers for values of any type,
and JSON data is one such realm.

The members of an object stand in the order in which they are written, and an
index spelled with 2^53 or more is past the length of every array.

## Main results

* `normalizedObjectKey_free` — the key a member gets was not used before.
* `normalizedObjectKey_portable` — and it is portable.
* `candidate_not_sensitive` — a rewritten key is never a sensitive one.
-/

namespace AgentSdk

namespace Evidence

open AgentSdk.Text

/-! ## Inspection -/

/-- A value thrown by a trap; it is never read. -/
inductive Thrown where
  | thrown
  deriving DecidableEq

/-- An operation that can throw. -/
abbrev Attempt (α : Type) := Except Thrown α

/-- The key of a property. -/
inductive PropertyKey where
  | name (text : JsString)
  | symbol (id : Nat)
  deriving DecidableEq

/-- A property descriptor; an accessor has no value. -/
structure Descriptor (V : Type) where
  enumerable : Bool
  value : Option V

/-- A length by the indices below it. -/
inductive Length where
  | nan
  | indices (count : Nat)
  | endless
  deriving DecidableEq

/-- The comparison `length > count`. -/
def Length.exceeds (count : Nat) : Length → Bool
  | .nan => false
  | .indices n => decide (count < n)
  | .endless => true

/-- The comparison `index >= length`. -/
def Length.endsBy (index : Nat) : Length → Bool
  | .nan => false
  | .indices n => decide (n ≤ index)
  | .endless => false

/-- How often a loop runs below `Math.min(length, count)`. -/
def Length.rounds (count : Nat) : Length → Nat
  | .nan => 0
  | .indices n => min n count
  | .endless => count

/-- The places that read the length of an array. -/
inductive LengthRead where
  | limit
  | key (key : PropertyKey)
  | loop

/-- The prototype of an object: `Object.prototype` or `null`, or another one with
the name of its constructor, when its constructor is a function held as a value. -/
inductive Prototype where
  | plain
  | other (constructorName : Attempt (Option JsString))

/-- What one visit of an object sees.  The first look at a property decides whether it is
enumerated and the second one what it holds; a proxy may answer them differently. -/
structure Inspection (V : Type) where
  isArray : Attempt Bool
  length : LengthRead → Attempt Length
  ownKeys : Attempt (List PropertyKey)
  enumerated : PropertyKey → Attempt (Option (Descriptor V))
  read : PropertyKey → Attempt (Option (Descriptor V))
  prototype : Attempt Prototype
  /-- No list of own keys names a key twice. -/
  ownKeys_nodup : ∀ keys, ownKeys = .ok keys → keys.Nodup

/-- The values that are neither JSON data nor objects. -/
inductive Foreign where
  | undefined
  | function
  | symbol
  | bigint
  deriving DecidableEq

/-- The result of `typeof`. -/
def Foreign.typeof : Foreign → JsString
  | .undefined => js "undefined"
  | .function => js "function"
  | .symbol => js "symbol"
  | .bigint => js "bigint"

/-- A value by its kind. -/
inductive Value (V ν : Type) where
  | null
  | bool (value : Bool)
  | num (value : ν)
  | nonFinite
  | str (value : JsString)
  | foreign (value : Foreign)
  | object (seen : Inspection V)

/-- Values with their inspection and their identity as objects. -/
structure Realm (V ν : Type) where
  inspect : V → Value V ν
  same : V → V → Bool

/-! ## Keys -/

def AGENT_PROVIDER_DATA_DEPTH_LIMIT : Nat := 8
def AGENT_PROVIDER_DATA_COLLECTION_LIMIT : Nat := 100
def AGENT_PROTOCOL_JSON_KEY_MAX_LENGTH : Nat := 128
def AGENT_PROVIDER_DATA_REDACTION_REPLACEMENT : JsString := js "[REDACTED]"

def AGENT_PROVIDER_DATA_PROTOTYPE_KEYS : List JsString :=
  [js "__proto__", js "constructor", js "prototype"]

/-- Simple case folding onto the ASCII letters, the Kelvin sign and the long s included. -/
def foldCase (unit : UInt16) : UInt16 :=
  if 65 ≤ unit.toNat ∧ unit.toNat ≤ 90 then unit + 32
  else if unit = 0x212A then 107
  else if unit = 0x017F then 115
  else unit

/-- The words that `SENSITIVE_KEY_PATTERN` finds, its optional separators written out. -/
def sensitiveWords : List JsString :=
  [js "token", js "secret", js "password", js "privatekey", js "private_key", js "private-key",
    js "credential", js "authorization", js "apikey", js "api_key", js "api-key"]

/-- The test of `SENSITIVE_KEY_PATTERN`. -/
def isSensitiveKey (key : JsString) : Bool :=
  sensitiveWords.any fun word => decide (word <:+: key.map foldCase)

def isPortableAgentProviderDataKey (key : JsString) : Bool :=
  decide (0 < key.length) && decide (key.length ≤ AGENT_PROTOCOL_JSON_KEY_MAX_LENGTH) &&
    !AGENT_PROVIDER_DATA_PROTOTYPE_KEYS.contains key

/-- The key that stands for the member at `index` after `collision` failed tries. -/
def candidate (index collision : Nat) : JsString :=
  js "truncated_key_" ++ (natDecimal index ++
    (if collision = 0 then [] else js "_" ++ natDecimal collision))

structure NormalizedKey where
  key : JsString
  rewritten : Bool

/-- The search ends within as many tries as there are keys to avoid. -/
def normalizedObjectKey (key : JsString) (index : Nat) (preservedKeys usedKeys : List JsString) :
    NormalizedKey :=
  if isPortableAgentProviderDataKey key && !usedKeys.contains key then
    { key := key, rewritten := false }
  else
    { key := firstFree (preservedKeys ++ usedKeys) (candidate index)
        (preservedKeys ++ usedKeys).length 0
      rewritten := true }

theorem isPortable_iff (key : JsString) : isPortableAgentProviderDataKey key = true ↔
    0 < key.length ∧ key.length ≤ AGENT_PROTOCOL_JSON_KEY_MAX_LENGTH ∧
      key ∉ AGENT_PROVIDER_DATA_PROTOTYPE_KEYS := by
  simp only [isPortableAgentProviderDataKey, Bool.and_eq_true, decide_eq_true_eq,
    Bool.not_eq_true', List.contains_eq_mem, decide_eq_false_iff_not, and_assoc]

/-! ### Rewritten keys -/

variable {unit : UInt16} {index : Nat} {key : JsString} {preservedKeys usedKeys : List JsString}

theorem natDecimal_unit {n : Nat} (h : unit ∈ natDecimal n) :
    48 ≤ unit.toNat ∧ unit.toNat ≤ 57 := by
  have hdigit := isDigit_of_mem_natDecimal h
  simpa only [isDigit, Bool.and_eq_true, decide_eq_true_eq] using hdigit

/-- The units of a rewritten key: those of its first word, digits and underscores. -/
theorem candidate_unit {collision : Nat} (h : unit ∈ candidate index collision) :
    unit ∈ js "truncated_key_" ∨ 48 ≤ unit.toNat ∧ unit.toNat ≤ 57 := by
  have hmark : ∀ u ∈ js "_", u ∈ js "truncated_key_" := forall_of_all (by decide)
  rw [candidate, List.mem_append, List.mem_append] at h
  rcases h with hword | hindex | hrest
  · exact .inl hword
  · exact .inr (natDecimal_unit hindex)
  · by_cases hfirst : collision = 0
    · simp [hfirst] at hrest
    · rw [if_neg hfirst, List.mem_append] at hrest
      exact hrest.elim (fun h => .inl (hmark unit h)) fun h => .inr (natDecimal_unit h)

/-- Letters of which every sensitive word has one: `o`, `s`, `p` and `i`. -/
def tellingLetters : List UInt16 := [111, 115, 112, 105]

theorem not_sensitive_of_units (h : ∀ unit ∈ key, foldCase unit ∉ tellingLetters) :
    isSensitiveKey key = false := by
  have hletter : ∀ word ∈ sensitiveWords, ∃ unit ∈ word, unit ∈ tellingLetters := by decide
  rw [isSensitiveKey, List.any_eq_false]
  intro word hin hfound
  obtain ⟨letter, hletter, htelling⟩ := hletter word hin
  obtain ⟨unit, hunit, rfl⟩ := List.mem_map.1 ((of_decide_eq_true hfound).subset hletter)
  exact h unit hunit htelling

theorem digit_not_telling (h : unit.toNat ≤ 57) : foldCase unit ∉ tellingLetters := by
  have hkelvin : unit ≠ 0x212A := by
    rintro rfl
    exact absurd h (by decide)
  have hlong : unit ≠ 0x017F := by
    rintro rfl
    exact absurd h (by decide)
  rw [foldCase, if_neg (by omega), if_neg hkelvin, if_neg hlong]
  intro htelling
  simp only [tellingLetters, List.mem_cons, List.not_mem_nil, or_false] at htelling
  rcases htelling with rfl | rfl | rfl | rfl <;> exact absurd h (by decide)

theorem candidate_not_sensitive (index collision : Nat) :
    isSensitiveKey (candidate index collision) = false := by
  have hword : ∀ unit ∈ js "truncated_key_", foldCase unit ∉ tellingLetters :=
    forall_of_all (by decide)
  refine not_sensitive_of_units fun unit hunit => ?_
  rcases candidate_unit hunit with h | h
  · exact hword unit h
  · exact digit_not_telling h.2

/-- No index is a sensitive key. -/
theorem index_not_sensitive (index : Nat) : isSensitiveKey (natDecimal index) = false :=
  not_sensitive_of_units fun _ hunit => digit_not_telling (natDecimal_unit hunit).2

theorem candidate_injective (index : Nat) : Function.Injective (candidate index) := by
  intro m n h
  have hrest := List.append_cancel_left (List.append_cancel_left h)
  by_cases hm : m = 0
  · by_cases hn : n = 0
    · rw [hm, hn]
    · rw [if_pos hm, if_neg hn] at hrest
      exact absurd hrest (by simp [js, encodeChar])
  · by_cases hn : n = 0
    · rw [if_neg hm, if_pos hn] at hrest
      exact absurd hrest (by simp [js, encodeChar])
    · rw [if_neg hm, if_neg hn] at hrest
      exact natDecimal_inj (List.append_cancel_left hrest)

theorem candidate_portable {collision : Nat} (hindex : index < 100)
    (hcollision : collision < 1000) :
    isPortableAgentProviderDataKey (candidate index collision) = true := by
  have hhead : ∀ key ∈ AGENT_PROVIDER_DATA_PROTOTYPE_KEYS,
      key.head? ≠ some (UInt16.ofNat 116) := by decide
  have hfirst : (candidate index collision).head? = some (UInt16.ofNat 116) := rfl
  have hword : (js "truncated_key_").length = 14 := by decide
  have hmark : (js "_").length = 1 := by decide
  have hdigits : (natDecimal index).length ≤ 2 := length_natDecimal_le (by omega) hindex
  have hmore : (natDecimal collision).length ≤ 3 := length_natDecimal_le (by omega) hcollision
  have hlength : 14 ≤ (candidate index collision).length ∧
      (candidate index collision).length ≤ 20 := by
    simp only [candidate, List.length_append, hword]
    by_cases hzero : collision = 0
    · simp only [hzero, if_true, List.length_nil]
      omega
    · simp only [hzero, if_false, List.length_append, hmark]
      omega
  rw [isPortable_iff, AGENT_PROTOCOL_JSON_KEY_MAX_LENGTH]
  exact ⟨by omega, by omega, fun hin => hhead _ hin hfirst⟩

/-- The key of a member is one that no member before it has. -/
theorem normalizedObjectKey_free (key : JsString) (index : Nat)
    (preservedKeys usedKeys : List JsString) :
    (normalizedObjectKey key index preservedKeys usedKeys).key ∉ usedKeys := by
  unfold normalizedObjectKey
  by_cases h : (isPortableAgentProviderDataKey key && !usedKeys.contains key) = true
  · rw [if_pos h]
    simp only [Bool.and_eq_true, Bool.not_eq_true', List.contains_eq_mem, decide_eq_false_iff_not]
      at h
    exact h.2
  · rw [if_neg h]
    have hfree := firstFree_not_mem (candidate_injective index)
      (Nat.le_refl (preservedKeys ++ usedKeys).length)
    exact fun hused => hfree (List.mem_append_right preservedKeys hused)

/-- The key of a member is portable, as the first hundred members are looked at. -/
theorem normalizedObjectKey_portable (hindex : index < 100)
    (hkeys : (preservedKeys ++ usedKeys).length < 1000) :
    isPortableAgentProviderDataKey
      (normalizedObjectKey key index preservedKeys usedKeys).key = true := by
  unfold normalizedObjectKey
  by_cases h : (isPortableAgentProviderDataKey key && !usedKeys.contains key) = true
  · rw [if_pos h]
    exact (Bool.and_eq_true _ _ ▸ h).1
  · rw [if_neg h]
    obtain ⟨n, hn, heq⟩ := firstFree_eq (preservedKeys ++ usedKeys) (candidate index)
      (preservedKeys ++ usedKeys).length 0
    simp only [heq]
    exact candidate_portable hindex (by omega)

/-- A rewritten key is not sensitive. -/
theorem normalizedObjectKey_not_sensitive
    (h : (normalizedObjectKey key index preservedKeys usedKeys).rewritten = true) :
    isSensitiveKey (normalizedObjectKey key index preservedKeys usedKeys).key = false := by
  unfold normalizedObjectKey at h ⊢
  by_cases hkept : (isPortableAgentProviderDataKey key && !usedKeys.contains key) = true
  · rw [if_pos hkept] at h
    cases h
  · rw [if_neg hkept]
    obtain ⟨n, -, heq⟩ := firstFree_eq (preservedKeys ++ usedKeys) (candidate index)
      (preservedKeys ++ usedKeys).length 0
    simp only [heq]
    exact candidate_not_sensitive index n

/-- A key that is not rewritten is the member's own. -/
theorem normalizedObjectKey_kept
    (h : (normalizedObjectKey key index preservedKeys usedKeys).rewritten = false) :
    (normalizedObjectKey key index preservedKeys usedKeys).key = key := by
  unfold normalizedObjectKey at h ⊢
  by_cases hkept : (isPortableAgentProviderDataKey key && !usedKeys.contains key) = true
  · rw [if_pos hkept]
  · rw [if_neg hkept] at h
    cases h

end Evidence

end AgentSdk
