import AgentSdk.Delegation.Fit
import AgentSdk.Delegation.Tasks
import AgentSdk.Lib.JsonSize

/-!
# Failures that a parent may see

A child reports its failure as an error of the agent protocol.  The parent sees a
smaller record: the category, the code, a recovery hint without quota evidence and as
much of the message as fits two kilobytes of canonical JSON.

The protocol bounds an error in UTF-16 units, the record is bounded in bytes, and an
escaped unit takes up to six of them.  The code leaves room all the same, so every
error of the protocol has a record.

## Main results

* `projectDelegationFailure_total` — every error of the protocol is projected to a
  record of the public schema with the longest message that fits.
-/

namespace AgentSdk.Delegation

open AgentSdk.Text AgentSdk.Calendar AgentSdk.Outcome

/-! ## Errors of the protocol -/

def AGENT_PROTOCOL_CODE_MAX_LENGTH : Nat := 120
def AGENT_PROTOCOL_TEXT_MAX_LENGTH : Nat := 4000
def AGENT_PROTOCOL_JSON_BYTES_LIMIT : Nat := 32768
def AGENT_ERROR_CONTEXT_MAX_LENGTH : Nat := 160

/-- `createAgentCanonicalNonBlankStringSchema`: bounded, not blank and trimmed. -/
def isNonBlank (maxLength : Nat) (s : JsString) : Bool :=
  decide (s.length ≤ maxLength) && isTrimmed s

/-- `Date.parse` of a date-time whose zone is `Z` or a numeric offset. -/
def offsetDateParse (s : JsString) : Option Int :=
  match parseIso s with
  | some time => some time.toMillis
  | none =>
    match s.drop (s.length - 6) with
    | [sign, h1, h2, _, m1, m2] => do
        let hours ← number? [h1, h2]
        let minutes ← number? [m1, m2]
        let time ← parseIso (s.take (s.length - 6) ++ [90])
        let offset : Int := (hours * 60 + minutes) * 60000
        some (if sign = 45 then time.toMillis + offset else time.toMillis - offset)
    | _ => none

/-- The first time is later than the second one; a text that is no time is not. -/
def isLater (left right : JsString) : Bool :=
  match offsetDateParse left, offsetDateParse right with
  | some left, some right => decide (right < left)
  | _, _ => false

inductive ResetPrecision
  | reported | estimated
  deriving DecidableEq

def ResetPrecision.name : ResetPrecision → String
  | .reported => "reported"
  | .estimated => "estimated"

structure AccountQuotaReset where
  at_ : JsString
  precision : ResetPrecision
  observedAt : JsString

instance : Data AccountQuotaReset where
  json r := .obj [(js "at", textJson r.at_), (js "precision", wordJson r.precision.name),
    (js "observedAt", textJson r.observedAt)]

def AccountQuotaReset.schema (r : AccountQuotaReset) : Bool :=
  isOffsetDateTime r.at_ && isOffsetDateTime r.observedAt

structure FailureQuotaReference where
  sourceId : JsString
  poolId : JsString
  windowId : JsString
  observedAt : JsString
  reset : Option AccountQuotaReset

instance : Data FailureQuotaReference where
  json q := .obj ([(js "sourceId", textJson q.sourceId), (js "poolId", textJson q.poolId),
    (js "windowId", textJson q.windowId), (js "observedAt", textJson q.observedAt)] ++
    optional "reset" q.reset Data.json)

def FailureQuotaReference.schema (q : FailureQuotaReference) : Bool :=
  isCanonicalId q.sourceId && isCanonicalId q.poolId && isCanonicalId q.windowId &&
    isOffsetDateTime q.observedAt && q.reset.all AccountQuotaReset.schema &&
    q.reset.all fun reset => !isLater reset.observedAt q.observedAt

/-- A recovery hint of the protocol. -/
inductive AgentRecoveryHint
  | unknown
  | none
  | retry (notBefore : Option JsString)
  | waitForQuota (quota : Option FailureQuotaReference)
  | userAction (action : UserAction)

instance : Data AgentRecoveryHint where
  json
    | .unknown => .obj [(js "kind", wordJson "unknown")]
    | .none => .obj [(js "kind", wordJson "none")]
    | .retry notBefore =>
      .obj ([(js "kind", wordJson "retry")] ++ optional "notBefore" notBefore textJson)
    | .waitForQuota quota =>
      .obj ([(js "kind", wordJson "wait_for_quota")] ++ optional "quota" quota Data.json)
    | .userAction action =>
      .obj [(js "kind", wordJson "user_action"), (js "action", wordJson action.name)]

def AgentRecoveryHint.schema : AgentRecoveryHint → Bool
  | .retry notBefore => notBefore.all isOffsetDateTime
  | .waitForQuota quota => quota.all FailureQuotaReference.schema
  | .unknown => true
  | .none => true
  | .userAction _ => true

structure AgentErrorContext where
  operation : Option JsString
  component : Option JsString
  status : Option JsString

instance : Data AgentErrorContext where
  json c := .obj (optional "operation" c.operation textJson ++
    optional "component" c.component textJson ++ optional "status" c.status textJson)

def AgentErrorContext.schema (c : AgentErrorContext) : Bool :=
  c.operation.all (isNonBlank AGENT_ERROR_CONTEXT_MAX_LENGTH) &&
    c.component.all (isNonBlank AGENT_ERROR_CONTEXT_MAX_LENGTH) &&
    c.status.all (isNonBlank AGENT_ERROR_CONTEXT_MAX_LENGTH)

structure AgentError where
  category : FailureCategory
  code : JsString
  message : JsString
  recovery : AgentRecoveryHint
  context : Option AgentErrorContext

instance : Data AgentError where
  json e := .obj ([(js "category", wordJson e.category.name), (js "code", textJson e.code),
    (js "message", textJson e.message), (js "recovery", Data.json e.recovery)] ++
    optional "context" e.context Data.json)

/-- Quota evidence belongs to the failures that a quota causes. -/
def AgentError.quotaApplies (e : AgentError) : Bool :=
  match e.recovery with
  | .waitForQuota (some _) =>
    decide (e.category = .rateLimited) || decide (e.category = .quotaExhausted)
  | _ => true

/-- `AgentErrorSchema`. -/
def AgentError.schema (e : AgentError) : Bool :=
  isNonBlank AGENT_PROTOCOL_CODE_MAX_LENGTH e.code &&
    isNonBlank AGENT_PROTOCOL_TEXT_MAX_LENGTH e.message && e.recovery.schema &&
    e.context.all AgentErrorContext.schema && e.quotaApplies &&
    decide (utf8Length (Json.stringify (Data.json e)) ≤ AGENT_PROTOCOL_JSON_BYTES_LIMIT)

/-! ## The projection -/

/-- The hint that a parent may see. -/
def AgentRecoveryHint.visible : AgentRecoveryHint → RecoveryHint
  | .unknown => .unknown
  | .none => .none
  | .retry notBefore => .retry notBefore
  | .waitForQuota _ => .waitForQuota
  | .userAction action => .userAction action

def RecoveryHint.isRetry : RecoveryHint → Bool
  | .retry _ => true
  | _ => false

/-- The hint of a record that leaves out its optional timing when not even the empty
message fits with it. -/
def fitRecovery (failure : PublicFailure) : Result RecoveryHint :=
  if failure.recovery.isRetry then do
    let bytes ← delegationDataBytes (Data.json failure)
    pure (if bytes > DELEGATION_FAILURE_BYTES then .retry none else failure.recovery)
  else pure failure.recovery

/-- Whether a record fits the budget with a message. -/
def fitsFailure (failure : PublicFailure) (message : JsString) : Result Bool := do
  let bytes ← delegationDataBytes (Data.json ({ failure with message } : PublicFailure))
  pure (decide (bytes ≤ DELEGATION_FAILURE_BYTES))

def projectDelegationFailure : Option AgentError → Result PublicFailure
  | none => pure
      { category := .unknown, code := js "child_failed"
        message := js "The managed child reported an unsuccessful terminal outcome."
        recovery := .unknown }
  | some error => do
      let failure : PublicFailure :=
        { category := error.category, code := error.code, message := []
          recovery := error.recovery.visible }
      let recovery ← fitRecovery failure
      let failure := { failure with recovery }
      let message ← fitDelegationText error.message (fitsFailure failure)
      pure { failure with message }

/-! ## Sizes -/

/-- The record has room for a message. -/
def FailureRoom (failure : PublicFailure) (message : JsString) : Prop :=
  dataBytes ({ failure with message } : PublicFailure) ≤ DELEGATION_FAILURE_BYTES

instance failureRoomDecidable (failure : PublicFailure) (message : JsString) :
    Decidable (FailureRoom failure message) := inferInstanceAs (Decidable (_ ≤ _))

section Sizes

variable {failure : PublicFailure} {error : AgentError}

theorem failure_bytes (failure : PublicFailure) :
    dataBytes failure = 50 + Json.escapeBytes (js failure.category.name) +
      Json.escapeBytes failure.code + Json.escapeBytes failure.message +
      Json.jsonBytes (Data.json failure.recovery) := by
  have hkeys : Json.quoteBytes (js "category") = 10 ∧ Json.quoteBytes (js "code") = 6 ∧
      Json.quoteBytes (js "message") = 9 ∧ Json.quoteBytes (js "recovery") = 10 := by decide
  rw [dataBytes, Json.canonicalBytes_eq]
  change Json.jsonBytes (.obj [(js "category", wordJson failure.category.name),
    (js "code", textJson failure.code), (js "message", textJson failure.message),
    (js "recovery", Data.json failure.recovery)]) = _
  simp only [wordJson, textJson, Json.jsonBytes, Json.fieldsBytes, hkeys, List.length_cons,
    List.length_nil]
  simp only [Json.quoteBytes]
  omega

theorem failure_shallow (failure : PublicFailure) : shallow 16 (Data.json failure) = true := by
  obtain ⟨category, code, message, recovery⟩ := failure
  cases recovery with
  | unknown | none | waitForQuota | userAction => rfl
  | retry notBefore =>
    cases notBefore with
    | none | some => rfl

theorem FailureCategory.bytes_le (category : FailureCategory) :
    Json.escapeBytes (js category.name) ≤ 16 := by
  cases category <;> decide

/-- A hint without timing is short. -/
theorem visible_bytes_le (hint : AgentRecoveryHint) (h : hint.visible.isRetry = false) :
    Json.jsonBytes (Data.json hint.visible) ≤ 64 := by
  cases hint with
  | unknown | none => decide
  | retry notBefore => cases h
  | waitForQuota quota =>
    show Json.jsonBytes (Data.json RecoveryHint.waitForQuota) ≤ 64
    decide
  | userAction action => cases action <;> decide

/-- The visible hint is no larger than the hint. -/
theorem visible_bytes (hint : AgentRecoveryHint) :
    Json.jsonBytes (Data.json hint.visible) ≤ Json.jsonBytes (Data.json hint) := by
  cases hint with
  | unknown | none | retry | userAction => exact Nat.le_refl _
  | waitForQuota quota =>
    cases quota with
    | none => exact Nat.le_refl _
    | some quota =>
      simp only [Data.json, AgentRecoveryHint.visible, optional, Json.jsonBytes,
        Json.fieldsBytes, List.cons_append, List.nil_append, List.length_cons, List.length_nil]
      omega

theorem recovery_bytes_le (error : AgentError) :
    Json.jsonBytes (Data.json error.recovery) ≤ Json.jsonBytes (Data.json error) := by
  change _ ≤ Json.jsonBytes (.obj ([(js "category", wordJson error.category.name),
    (js "code", textJson error.code), (js "message", textJson error.message),
    (js "recovery", Data.json error.recovery)] ++ optional "context" error.context Data.json))
  simp only [List.cons_append, List.nil_append, Json.jsonBytes, Json.fieldsBytes]
  omega

/-- The record of a failure before the message is fitted. -/
def AgentError.unfitted (error : AgentError) : PublicFailure :=
  { category := error.category, code := error.code, message := []
    recovery := error.recovery.visible }

/-- The parts of an error are bounded. -/
structure AgentError.Bounded (error : AgentError) : Prop where
  code : Json.escapeBytes error.code ≤ 720
  message : Json.escapeBytes error.message ≤ 24000
  recovery : Json.jsonBytes (Data.json error.recovery.visible) ≤ 32768

theorem AgentError.bounded (h : error.schema = true) : error.Bounded := by
  simp only [AgentError.schema, isNonBlank, Bool.and_eq_true, decide_eq_true_eq] at h
  obtain ⟨⟨⟨⟨⟨⟨hcode, -⟩, hmessage, -⟩, -⟩, -⟩, -⟩, hbytes⟩ := h
  have hcode' := Json.escapeBytes_le_length error.code
  have hmessage' := Json.escapeBytes_le_length error.message
  have hvisible := visible_bytes error.recovery
  have hrecovery := recovery_bytes_le error
  rw [(Json.stringify_size _).2] at hbytes
  unfold AGENT_PROTOCOL_CODE_MAX_LENGTH at hcode
  unfold AGENT_PROTOCOL_TEXT_MAX_LENGTH at hmessage
  unfold AGENT_PROTOCOL_JSON_BYTES_LIMIT at hbytes
  exact ⟨by omega, by omega, by omega⟩

theorem delegationDataBytes_failure (hbytes : dataBytes failure ≤ DELEGATION_DOCUMENT_BYTES) :
    delegationDataBytes (Data.json failure) = .ok (dataBytes failure) := by
  rw [dataBytes, Json.canonicalBytes_eq] at hbytes ⊢
  exact delegationDataBytes_eq (failure_shallow failure) hbytes

theorem FailureRoom.of_isCharPrefix {p q : JsString} (h : IsCharPrefix p q)
    (hq : FailureRoom failure q) : FailureRoom failure p := by
  unfold FailureRoom at hq ⊢
  have := h.escapeBytes_le
  rw [failure_bytes] at hq ⊢
  simp only at hq ⊢
  omega

/-! ## Every error has a record -/

/-- What a record tells of an error. -/
structure Projects (error : AgentError) (failure : PublicFailure) : Prop where
  schema : failure.schema = true
  category : failure.category = error.category
  code : failure.code = error.code
  fits : FailureRoom failure failure.message
  message : Longest (FailureRoom failure) error.message failure.message
  /-- The hint is the visible part of the hint of the error; the timing of a retry is
  left out only when the record would not even fit with an empty message. -/
  recovery : failure.recovery = error.recovery.visible ∨
    failure.recovery = .retry none ∧ error.recovery.visible.isRetry = true ∧
      DELEGATION_FAILURE_BYTES < dataBytes error.unfitted

theorem fitRecovery_ok (h : error.schema = true) :
    ∃ recovery, fitRecovery error.unfitted = .ok recovery ∧
      dataBytes { error.unfitted with recovery } ≤ DELEGATION_FAILURE_BYTES ∧
      recovery.schema = true ∧
      (recovery = error.recovery.visible ∨ recovery = .retry none ∧
        error.recovery.visible.isRetry = true ∧
        DELEGATION_FAILURE_BYTES < dataBytes error.unfitted) := by
  have hbounded := error.bounded h
  have hcode := hbounded.code
  have hname := error.category.bytes_le
  have hrecovery := hbounded.recovery
  have hsmall : dataBytes error.unfitted ≤ DELEGATION_DOCUMENT_BYTES := by
    rw [failure_bytes]
    simp only [AgentError.unfitted, Json.escapeBytes]
    unfold DELEGATION_DOCUMENT_BYTES
    omega
  have hschema : error.recovery.visible.schema = true := by
    simp only [AgentError.schema, Bool.and_eq_true] at h
    have hhint := h.1.1.1.2
    cases hkind : error.recovery with
    | retry notBefore =>
      rw [hkind] at hhint
      exact hhint
    | unknown | none | waitForQuota | userAction => rfl
  unfold fitRecovery
  cases hretry : error.unfitted.recovery.isRetry with
  | false =>
    refine ⟨error.recovery.visible, rfl, ?_, hschema, .inl rfl⟩
    have hshort := visible_bytes_le error.recovery hretry
    rw [failure_bytes]
    simp only [AgentError.unfitted, Json.escapeBytes]
    unfold DELEGATION_FAILURE_BYTES
    omega
  | true =>
    simp only [if_true, delegationDataBytes_failure hsmall, ok_bind, pure_eq_ok]
    by_cases hlarge : dataBytes error.unfitted > DELEGATION_FAILURE_BYTES
    · refine ⟨.retry none, by rw [if_pos hlarge], ?_, rfl, .inr ⟨rfl, hretry, hlarge⟩⟩
      have hshort : Json.jsonBytes (Data.json (RecoveryHint.retry none)) ≤ 64 := by decide
      rw [failure_bytes]
      simp only [AgentError.unfitted, Json.escapeBytes]
      unfold DELEGATION_FAILURE_BYTES
      omega
    · refine ⟨error.recovery.visible, by rw [if_neg hlarge]; rfl, ?_, hschema, .inl rfl⟩
      exact Nat.le_of_not_lt hlarge

/-- The fitted record is compared with the budget without a failure. -/
theorem fitsFailure_eq {q : JsString} (hbounded : error.Bounded) (hnil : failure.message = [])
    (hempty : dataBytes failure ≤ DELEGATION_FAILURE_BYTES) (hq : IsCharPrefix q error.message) :
    fitsFailure failure q = .ok (decide (FailureRoom failure q)) := by
  have hmessage := hbounded.message
  have hbegin := hq.escapeBytes_le
  have hsmall : dataBytes ({ failure with message := q } : PublicFailure) ≤
      DELEGATION_DOCUMENT_BYTES := by
    rw [failure_bytes] at hempty ⊢
    simp only [hnil, Json.escapeBytes] at hempty ⊢
    unfold DELEGATION_FAILURE_BYTES at hempty
    unfold DELEGATION_DOCUMENT_BYTES
    omega
  unfold fitsFailure
  simp only [delegationDataBytes_failure hsmall, ok_bind, pure_eq_ok]
  rfl

/-- A record within its budget passes the public schema. -/
theorem schema_of_room {message : JsString} (h : error.schema = true)
    (hcode : failure.code = error.code) (hschema : failure.recovery.schema = true)
    (hroom : FailureRoom failure message) :
    ({ failure with message } : PublicFailure).schema = true := by
  simp only [AgentError.schema, isNonBlank, Bool.and_eq_true, decide_eq_true_eq] at h
  obtain ⟨⟨⟨⟨⟨⟨hlength, htrimmed⟩, -⟩, -⟩, -⟩, -⟩, -⟩ := h
  unfold AGENT_PROTOCOL_CODE_MAX_LENGTH at hlength
  have hshort : message.length ≤ DELEGATION_FAILURE_BYTES := by
    have hmessage := Json.length_le_escapeBytes message
    have hsize := hroom
    unfold FailureRoom at hsize
    rw [failure_bytes] at hsize
    simp only at hsize
    omega
  simp only [PublicFailure.schema, Bool.and_eq_true, decide_eq_true_eq]
  refine ⟨⟨⟨⟨?_, ?_⟩, hshort⟩, hschema⟩, hroom⟩
  · rw [hcode]
    omega
  · rw [hcode]
    exact htrimmed

/-- **Every error of the protocol has a record** of the public schema: category and
code are kept, the message is the longest beginning that fits, and the timing of a
retry is left out only when it has to be. -/
theorem projectDelegationFailure_total (error : AgentError) (h : error.schema = true) :
    ∃ failure, projectDelegationFailure (some error) = .ok failure ∧ Projects error failure := by
  obtain ⟨recovery, hfitted, hempty, hschema, hcause⟩ := fitRecovery_ok h
  have hbounded := error.bounded h
  generalize hfailure : ({ error.unfitted with recovery } : PublicFailure) = failure at hempty
  have hcategory : failure.category = error.category := by rw [← hfailure]; rfl
  have hcode : failure.code = error.code := by rw [← hfailure]; rfl
  have hnil : failure.message = [] := by rw [← hfailure]; rfl
  have hrecovery : failure.recovery = recovery := by rw [← hfailure]
  obtain ⟨message, hmessage, hlongest⟩ := fitDelegationText_spec
    (fun _ => fitsFailure_eq hbounded hnil hempty)
    fun _ _ hpq _ hq => FailureRoom.of_isCharPrefix hpq hq
  have hroom : FailureRoom failure message := by
    rcases hlongest.fits with hnone | hyes
    · rw [hnone, FailureRoom, ← hnil]
      exact hempty
    · exact hyes
  rw [← hrecovery] at hschema hcause
  refine ⟨{ failure with message }, ?_, schema_of_room h hcode hschema hroom, hcategory, hcode,
    hroom, hlongest, hcause⟩
  change (fitRecovery error.unfitted >>= fun recovery =>
    fitDelegationText error.message (fitsFailure { error.unfitted with recovery }) >>=
      fun message => pure { ({ error.unfitted with recovery } : PublicFailure) with message }) = _
  rw [hfitted, ok_bind, hfailure, hmessage]
  rfl

end Sizes

namespace FailureSample

/-- A message with a surrogate that is no pair. -/
def error : AgentError :=
  { category := .overloaded, code := js "busy", message := [97, 0xD800, 98]
    recovery := .retry (some (js "2026-01-01T00:00:00.000+02:00")), context := none }

end FailureSample

set_option maxRecDepth 4000 in
/-- The theorem at an error whose message JSON has to escape. -/
theorem projectDelegationFailure_total_lone_surrogate : ∃ failure,
    projectDelegationFailure (some FailureSample.error) = .ok failure ∧
      Projects FailureSample.error failure :=
  projectDelegationFailure_total FailureSample.error (by decide)

end AgentSdk.Delegation
