import AgentSdk.Lib.JsonText
import AgentSdk.Lib.Calendar
import AgentSdk.Lib.Sha256
import AgentSdk.Delegation.Bounds

/-!
# Scalars, identities and limits

Data enters the delegation package as typed records.  What its schemas check
about the type of a property, and about unknown properties, is the typing of
these records; what they check about a value is a predicate of this module or
of `Tasks`.

Digests are SHA-256 over canonical JSON.  The hash and the URL parser belong to
the runtime and are the two functions of `Platform`.

## Main results

* `same_iff` — two values are the same exactly when they agree up to the order
  of keys.
-/

namespace AgentSdk.Delegation

open AgentSdk.Text AgentSdk.Calendar AgentSdk.Outcome

/-! ## Character classes -/

def isLowerHex (u : UInt16) : Bool :=
  isDigit u || (decide (97 ≤ u.toNat) && decide (u.toNat ≤ 102))

def isHex (u : UInt16) : Bool :=
  isLowerHex u || (decide (65 ≤ u.toNat) && decide (u.toNat ≤ 70))

/-- C0 and C1 control characters. -/
def isControl (u : UInt16) : Bool :=
  decide (u.toNat ≤ 0x1F) || (decide (0x7F ≤ u.toNat) && decide (u.toNat ≤ 0x9F))

/-- White space and line terminators. -/
def isSpace (u : UInt16) : Bool :=
  (decide (9 ≤ u.toNat) && decide (u.toNat ≤ 13)) || u == 0x20 || u == 0xA0 || u == 0x1680 ||
    (decide (0x2000 ≤ u.toNat) && decide (u.toNat ≤ 0x200A)) || u == 0x2028 || u == 0x2029 ||
    u == 0x202F || u == 0x205F || u == 0x3000 || u == 0xFEFF

/-- A string matches a list of character classes, unit by unit. -/
def matchesUnits : List (UInt16 → Bool) → JsString → Bool
  | [], [] => true
  | p :: ps, u :: us => p u && matchesUnits ps us
  | _, _ => false

/-! ## Scalar schemas -/

def MAX_SAFE_INTEGER : Nat := 9007199254740991

/-- `RevisionSchema`: a positive safe integer. -/
def isRevision (n : Nat) : Bool := decide (1 ≤ n) && decide (n ≤ MAX_SAFE_INTEGER)

/-- `CountSchema`: a non-negative safe integer. -/
def isCount (n : Nat) : Bool := decide (n ≤ MAX_SAFE_INTEGER)

private def dash (u : UInt16) : Bool := u == 45

/-- Eight, four, four, four and twelve digits with version and variant. -/
def uuidPattern : List (UInt16 → Bool) :=
  List.replicate 8 isHex ++ ([dash] ++ (List.replicate 4 isHex ++ ([dash] ++
    ([fun u => decide (49 ≤ u.toNat) && decide (u.toNat ≤ 56)] ++ (List.replicate 3 isHex ++
    ([dash] ++ ([fun u => u == 56 || u == 57 || u == 97 || u == 98 || u == 65 || u == 66] ++
    (List.replicate 3 isHex ++ ([dash] ++ List.replicate 12 isHex)))))))))

/-- `z.uuid()`. -/
def isUuid (s : JsString) : Bool :=
  matchesUnits uuidPattern s || s == js "00000000-0000-0000-0000-000000000000" ||
    s == js "ffffffff-ffff-ffff-ffff-ffffffffffff"

/-- `DigestSchema`: 64 lower-case hexadecimal digits. -/
def isDigest (s : JsString) : Bool := decide (s.length = 64) && s.all isLowerHex

/-- `AtSchema`: an ISO date-time in UTC, of any length. -/
def isAt (s : JsString) : Bool := (parseIso s).isSome

/-- No surrounding white space, and not empty. -/
def isTrimmed (s : JsString) : Bool :=
  match s.head?, s.getLast? with
  | some u, some v => !isSpace u && !isSpace v
  | _, _ => false

/-- Canonical text of bounded length: trimmed and without control characters. -/
def isCanonical (max : Nat) (s : JsString) : Bool :=
  decide (s.length ≤ max) && s.all (fun u => !isControl u) && isTrimmed s

/-- `CanonicalIdSchema`. -/
def isCanonicalId (s : JsString) : Bool := isCanonical 256 s

/-- `OpaqueIdSchema`. -/
def isOpaqueId (s : JsString) : Bool :=
  isCanonicalId s && decide (s.length ≤ 128) && decide (utf8Length s ≤ 128)

/-! ## Canonical JSON -/

/-- Values that are plain JSON data. -/
class Data (α : Type) where
  json : α → Json

/-- An object property that is present only when it has a value. -/
def optional {α : Type} (key : String) (value : Option α) (f : α → Json) :
    List (JsString × Json) :=
  match value with
  | some v => [(js key, f v)]
  | none => []

def textJson (s : JsString) : Json := .str s

def countJson (n : Nat) : Json := .num n

def wordJson (s : String) : Json := .str (js s)

/-- `same`: equal canonical JSON. -/
def same {α : Type} [Data α] (left right : α) : Bool :=
  Json.canonicalText (Data.json left) == Json.canonicalText (Data.json right)

theorem same_iff {α : Type} [Data α] {a b : α} :
    same a b = true ↔ Json.canonicalize (Data.json a) = Json.canonicalize (Data.json b) := by
  simp only [same, beq_iff_eq]
  constructor
  · exact Json.canonicalText_inj
  · intro h
    rw [Json.canonicalText, h, Json.canonicalText]

theorem same_refl {α : Type} [Data α] (a : α) : same a a = true := by simp [same]

/-- The size of captured data. -/
def dataBytes {α : Type} [Data α] (input : α) : Nat := Json.canonicalBytes (Data.json input)

/-- `delegationDataBytes`: capture, then count. -/
def delegationDataBytes (input : Json) : Result Nat := do
  copyBoundedDelegationData input
  pure (Json.canonicalBytes input)

/-! ## Digests -/

/-- The functions of the runtime that the package calls. -/
class Platform where
  /-- SHA-256 of the UTF-8 encoding, in hexadecimal. -/
  sha256 : JsString → JsString
  sha256_digest : ∀ s, isDigest (sha256 s) = true
  /-- Whether the URL parser accepts a string. -/
  isUrl : JsString → Bool

/-- A platform with the hash of the runtime.  It accepts no URL. -/
@[reducible] def hashPlatform : Platform where
  sha256 := Sha256.hexDigest
  sha256_digest text := by
    simp only [isDigest, Bool.and_eq_true, decide_eq_true_eq, List.all_eq_true]
    refine ⟨Sha256.length_hexDigest text, fun u hu => ?_⟩
    simpa only [isLowerHex, isDigit, Bool.or_eq_true, Bool.and_eq_true, decide_eq_true_eq] using
      Sha256.hexDigest_units hu
  isUrl _ := false

section Digests

variable [Platform]

/-- `delegationInputDigest` of captured data. -/
def delegationInputDigest (input : Json) : JsString :=
  Platform.sha256 (Json.canonicalText input)

/-- `delegationSubordinateId`: an identity derived from another one. -/
def delegationSubordinateId (runId : JsString) (kind : JsString) : JsString :=
  let hex := delegationInputDigest (.obj [(js "runId", .str runId), (js "kind", .str kind)])
  let slice (first last : Nat) : JsString := (hex.drop first).take (last - first)
  slice 0 8 ++ (js "-" ++ (slice 8 12 ++ (js "-4" ++ (slice 13 16 ++ (js "-a" ++ (slice 17 20 ++
    (js "-" ++ slice 20 32)))))))

theorem isDigest_delegationInputDigest (input : Json) :
    isDigest (delegationInputDigest input) = true := Platform.sha256_digest _

end Digests

/-! ## Limits -/

def DELEGATION_FINAL_RESERVATION_BYTES : Nat := 32768
def DELEGATION_FAILURE_BYTES : Nat := 2048
def DELEGATION_CRITICAL_SLOT_BYTES : Nat := 2048
def DELEGATION_CRITICAL_SLOTS : Nat := 4
def DELEGATION_RUN_RESERVATION_BYTES : Nat := 40960

/-- `DelegationLimits`, with the defaults of `DEFAULT_DELEGATION_LIMITS`. -/
structure Limits where
  maxActiveRuns : Nat := 4
  maxQueuedRuns : Nat := 32
  maxDepth : Nat := 2
  maxTasks : Nat := 256
  maxRuns : Nat := 1024
  maxRunsPerTask : Nat := 8
  maxInputBytes : Nat := 24576
  maxInputTextCharacters : Nat := 16000
  maxRetainedInputBytes : Nat := 16777216
  maxObservationBytes : Nat := 8192
  maxRunObservationBytes : Nat := 1048576
  maxRunObservations : Nat := 2048
  maxRetainedObservationBytes : Nat := 33554432
  maxOrdinaryOperationsPerRun : Nat := 32
  maxOrdinaryOperations : Nat := 8192
  runTimeoutMs : Nat := 1800000
  queuedStartTimeoutMs : Nat := 300000
  maxWaitMs : Nat := 30000
  controlTimeoutMs : Nat := 10000
  notificationTtlMs : Nat := 86400000
  maxPageRecords : Nat := 100
  maxPageBytes : Nat := 65536

/-- Every limit of the record. -/
def Limits.values (l : Limits) : List Nat :=
  [l.maxActiveRuns, l.maxQueuedRuns, l.maxDepth, l.maxTasks, l.maxRuns, l.maxRunsPerTask,
    l.maxInputBytes, l.maxInputTextCharacters, l.maxRetainedInputBytes, l.maxObservationBytes,
    l.maxRunObservationBytes, l.maxRunObservations, l.maxRetainedObservationBytes,
    l.maxOrdinaryOperationsPerRun, l.maxOrdinaryOperations, l.runTimeoutMs,
    l.queuedStartTimeoutMs, l.maxWaitMs, l.controlTimeoutMs, l.notificationTtlMs,
    l.maxPageRecords, l.maxPageBytes]

/-- What `parseDelegationLimits` checks. -/
structure Limits.Valid (l : Limits) : Prop where
  finite : ∀ n ∈ l.values, isRevision n = true
  ordered : l.maxActiveRuns ≤ l.maxRuns ∧ l.maxQueuedRuns ≤ l.maxRuns ∧ l.maxTasks ≤ l.maxRuns ∧
    l.maxRunsPerTask ≤ l.maxRuns ∧ l.maxInputBytes ≤ l.maxRetainedInputBytes
  format : l.maxPageRecords ≤ 100 ∧ l.maxPageBytes ≤ 65536 ∧ l.maxInputBytes ≤ 24576 ∧
    l.maxInputTextCharacters ≤ 16000 ∧ l.maxObservationBytes ≤ 8192
  derived : l.maxRuns ≤ MAX_SAFE_INTEGER / DELEGATION_RUN_RESERVATION_BYTES ∧
    l.maxOrdinaryOperations ≤ MAX_SAFE_INTEGER / DELEGATION_CRITICAL_SLOT_BYTES ∧
    l.maxRunObservations ≤ MAX_SAFE_INTEGER / l.maxObservationBytes
  durations : ∀ n ∈ [l.runTimeoutMs, l.queuedStartTimeoutMs, l.maxWaitMs, l.controlTimeoutMs,
    l.notificationTtlMs], n ≤ 2147483647

/-- What one store is created with: limits that passed their check and a
well-formed identity. -/
structure StoreOptions where
  storeId : JsString
  limits : Limits
  storeId_uuid : isUuid storeId = true
  limits_valid : limits.Valid

end AgentSdk.Delegation
