import AgentSdk.Delegation.Identity

/-!
# Delegation records

The records of tasks, runs, observations and notifications, their JSON form and
their schemas.  A schema is a predicate over a record: it holds when the parser
of that record returns it.
-/

namespace AgentSdk.Delegation

open AgentSdk.Text AgentSdk.Calendar AgentSdk.Outcome

/-! ## Scopes, owners, targets and ceilings -/

structure ParentScope where
  parentId : JsString
  scopeId : JsString
  revision : Nat
  deriving DecidableEq

instance : Data ParentScope where
  json p := .obj [(js "parentId", textJson p.parentId), (js "scopeId", textJson p.scopeId),
    (js "revision", countJson p.revision)]

def ParentScope.schema (p : ParentScope) : Bool :=
  isOpaqueId p.parentId && isOpaqueId p.scopeId && isRevision p.revision

structure OwnerToken where
  storeId : JsString
  epoch : Nat
  nonce : JsString
  deriving DecidableEq

instance : Data OwnerToken where
  json o := .obj [(js "storeId", textJson o.storeId), (js "epoch", countJson o.epoch),
    (js "nonce", textJson o.nonce)]

def OwnerToken.schema (o : OwnerToken) : Bool :=
  isUuid o.storeId && isRevision o.epoch && isUuid o.nonce

structure TargetReference where
  catalogId : JsString
  catalogRevision : Nat
  targetId : JsString
  targetRevision : Nat
  sourceId : JsString
  sourceRevision : Nat
  deriving DecidableEq

instance : Data TargetReference where
  json t := .obj [(js "catalogId", textJson t.catalogId),
    (js "catalogRevision", countJson t.catalogRevision), (js "targetId", textJson t.targetId),
    (js "targetRevision", countJson t.targetRevision), (js "sourceId", textJson t.sourceId),
    (js "sourceRevision", countJson t.sourceRevision)]

def TargetReference.schema (t : TargetReference) : Bool :=
  isCanonicalId t.catalogId && isRevision t.catalogRevision && isCanonicalId t.targetId &&
    isRevision t.targetRevision && isCanonicalId t.sourceId && isRevision t.sourceRevision

structure PolicyCeiling where
  ceilingId : JsString
  origin : ParentScope
  targets : List TargetReference
  deriving DecidableEq

instance : Data PolicyCeiling where
  json c := .obj [(js "ceilingId", textJson c.ceilingId), (js "origin", Data.json c.origin),
    (js "targets", .arr (c.targets.map Data.json))]

def PolicyCeiling.schema (c : PolicyCeiling) : Bool :=
  isDigest c.ceilingId && c.origin.schema && decide (c.targets.length ≤ 1000) &&
    c.targets.all TargetReference.schema

/-- Ascending without repetition. -/
def strictlySorted : List JsString → Bool
  | a :: b :: rest => Json.textLt a b && strictlySorted (b :: rest)
  | _ => true

/-- The digest under which a ceiling is retained. -/
def ceilingDigest [Platform] (origin : ParentScope) (targets : List TargetReference) : JsString :=
  delegationInputDigest (.obj [(js "origin", Data.json origin),
    (js "targets", .arr (targets.map Data.json))])

/-- What `parseDelegationPolicyCeiling` checks beyond the schema. -/
def PolicyCeiling.canonical [Platform] (c : PolicyCeiling) : Bool :=
  strictlySorted (c.targets.map fun t => Json.canonicalText (Data.json t)) &&
    c.ceilingId == ceilingDigest c.origin c.targets

/-! ## Turn input -/

inductive ImageMediaType
  | png | jpeg | webp
  deriving DecidableEq

def ImageMediaType.name : ImageMediaType → String
  | .png => "image/png"
  | .jpeg => "image/jpeg"
  | .webp => "image/webp"

structure ImageMetadata where
  mediaType : ImageMediaType
  byteSize : Nat
  widthPixels : Nat
  heightPixels : Nat
  deriving DecidableEq

inductive ImageSource
  | url (url : JsString)
  | base64 (data : JsString)
  | localFile (path sha256 : JsString)
  deriving DecidableEq

inductive InputPart
  | text (text : JsString)
  | image (source : ImageSource) (metadata : ImageMetadata)
  | contentReference (environmentId : JsString) (environmentRevision contentCatalogRevision : Nat)
      (contentId : JsString) (contentRevision : Nat) (arguments : Option JsString)
  deriving DecidableEq

structure InputContent where
  parts : List InputPart
  summary : Option JsString
  deriving DecidableEq

private def metadataFields (m : ImageMetadata) : List (JsString × Json) :=
  [(js "mediaType", wordJson m.mediaType.name), (js "byteSize", countJson m.byteSize),
    (js "widthPixels", countJson m.widthPixels), (js "heightPixels", countJson m.heightPixels)]

def ImageSource.json (m : ImageMetadata) : ImageSource → Json
  | .url address => .obj ([(js "type", wordJson "url"), (js "url", textJson address)] ++ metadataFields m)
  | .base64 data => .obj ([(js "type", wordJson "base64")] ++ metadataFields m ++
      [(js "data", textJson data)])
  | .localFile path sha256 => .obj ([(js "type", wordJson "local_file"), (js "path", textJson path),
      (js "sha256", textJson sha256)] ++ metadataFields m)

instance : Data InputPart where
  json
    | .text value => .obj [(js "type", wordJson "text"), (js "text", textJson value)]
    | .image source metadata => .obj [(js "type", wordJson "image"), (js "source", source.json metadata)]
    | .contentReference environmentId environmentRevision contentCatalogRevision contentId
        contentRevision arguments =>
        .obj ([(js "type", wordJson "content_reference"), (js "environmentId", textJson environmentId),
          (js "environmentRevision", countJson environmentRevision),
          (js "contentCatalogRevision", countJson contentCatalogRevision),
          (js "contentId", textJson contentId), (js "contentRevision", countJson contentRevision)] ++
          optional "arguments" arguments textJson)

instance : Data InputContent where
  json c := .obj ([(js "parts", .arr (c.parts.map Data.json))] ++ optional "summary" c.summary textJson)

/-- The base64 alphabet. -/
private def isBase64Unit (u : UInt16) : Bool :=
  isDigit u || (decide (65 ≤ u.toNat) && decide (u.toNat ≤ 90)) ||
    (decide (97 ≤ u.toNat) && decide (u.toNat ≤ 122)) || u == 43 || u == 47

/-- Padding characters at the end of a base64 text. -/
private def base64Padding (data : JsString) : Nat :=
  if data.drop (data.length - 2) = js "==" then 2
  else if data.getLast? = some 61 then 1 else 0

private def isBase64 (data : JsString) : Bool :=
  decide (data.length % 4 = 0) && (data.take (data.length - base64Padding data)).all isBase64Unit

/-- No `/..` component before the first line break. -/
private def traversalFree : JsString → Bool
  | 47 :: 46 :: 46 :: 47 :: _ => false
  | 47 :: 46 :: 46 :: [] => false
  | u :: rest => if u = 10 ∨ u = 13 ∨ u = 0x2028 ∨ u = 0x2029 then true else traversalFree rest
  | [] => true

def ImageSource.schema [Platform] (m : ImageMetadata) : ImageSource → Bool
  | .url address => Platform.isUrl address && decide (address.length ≤ 2048)
  | .base64 data => isBase64 data && decide (1 ≤ data.length) && decide (data.length ≤ 500000) &&
      decide (data.length / 4 * 3 - base64Padding data = m.byteSize)
  | .localFile path sha256 => decide (2 ≤ path.length) && decide (path.length ≤ 4096) &&
      traversalFree path && path.head? == some 47 && path.all (fun u => !isControl u) &&
      isTrimmed path.tail && isDigest sha256

def ImageMetadata.schema (m : ImageMetadata) : Bool :=
  decide (1 ≤ m.byteSize) && decide (m.byteSize ≤ 104857600) &&
    decide (1 ≤ m.widthPixels) && decide (m.widthPixels ≤ 100000) &&
    decide (1 ≤ m.heightPixels) && decide (m.heightPixels ≤ 100000)

def InputPart.schema [Platform] : InputPart → Bool
  | .text value => decide (1 ≤ value.length) && decide (value.length ≤ 64000)
  | .image source metadata => source.schema metadata && metadata.schema
  | .contentReference environmentId environmentRevision contentCatalogRevision contentId
      contentRevision arguments =>
      isCanonicalId environmentId && isRevision environmentRevision &&
        isRevision contentCatalogRevision && isCanonicalId contentId && isRevision contentRevision &&
        arguments.all fun a => decide (a.length ≤ 4096) && decide (utf8Length a ≤ 4096)

/-- The identity of a content reference. -/
private def referenceIdentity? : InputPart → Option (JsString × JsString)
  | .contentReference environmentId _ _ contentId _ _ => some (environmentId, contentId)
  | _ => none

/-- The identities of all content references. -/
def InputContent.references (c : InputContent) : List (JsString × JsString) :=
  c.parts.filterMap referenceIdentity?

def InputContent.schema [Platform] (c : InputContent) : Bool :=
  decide (1 ≤ c.parts.length) && decide (c.parts.length ≤ 100) && c.parts.all InputPart.schema &&
    c.summary.all (fun s => decide (s.length ≤ 2000)) && decide (c.references.length ≤ 16) &&
    decide c.references.Nodup && decide (dataBytes c ≤ 1064960)

/-- The number of UTF-16 units of all text parts. -/
def InputContent.textCharacters (c : InputContent) : Nat :=
  (c.parts.map fun
    | .text value => value.length
    | _ => 0).sum

/-! ## Requests -/

inductive RequestKind
  | approval | elicitation
  deriving DecidableEq

def RequestKind.name : RequestKind → String
  | .approval => "approval"
  | .elicitation => "elicitation"

inductive RequestState
  | waiting | resolutionIntended | resolved | unavailable
  deriving DecidableEq

def RequestState.name : RequestState → String
  | .waiting => "waiting"
  | .resolutionIntended => "resolution_intended"
  | .resolved => "resolved"
  | .unavailable => "unavailable"

structure HistoricalRequest where
  requestId : JsString
  requestKind : RequestKind
  openedAt : JsString
  expiresAt : Option JsString
  state : RequestState
  deriving DecidableEq

instance : Data HistoricalRequest where
  json r := .obj ([(js "requestId", textJson r.requestId), (js "requestKind", wordJson r.requestKind.name),
    (js "openedAt", textJson r.openedAt)] ++ optional "expiresAt" r.expiresAt textJson ++
    [(js "state", wordJson r.state.name)])

def HistoricalRequest.schema (r : HistoricalRequest) : Bool :=
  isCanonicalId r.requestId && isAt r.openedAt && r.expiresAt.all isAt

/-! ## Outcomes -/

inductive ReferenceKind
  | artifact | hostResult
  deriving DecidableEq

def ReferenceKind.name : ReferenceKind → String
  | .artifact => "artifact"
  | .hostResult => "host_result"

structure ResultReference where
  id : JsString
  kind : ReferenceKind
  digest : Option JsString
  deriving DecidableEq

instance : Data ResultReference where
  json r := .obj ([(js "id", textJson r.id), (js "kind", wordJson r.kind.name)] ++
    optional "digest" r.digest textJson)

def ResultReference.schema (r : ResultReference) : Bool :=
  isCanonicalId r.id && r.digest.all isDigest && decide (dataBytes r ≤ 256)

structure ResultSummary where
  text : JsString
  truncated : Bool
  references : List ResultReference
  deriving DecidableEq

instance : Data ResultSummary where
  json s := .obj [(js "text", textJson s.text), (js "truncated", .bool s.truncated),
    (js "references", .arr (s.references.map Data.json))]

def ResultSummary.schema (s : ResultSummary) : Bool :=
  decide (s.text.length ≤ 8192) && decide (utf8Length s.text ≤ 8192) &&
    decide (s.references.length ≤ 8) && s.references.all ResultReference.schema &&
    decide (dataBytes s ≤ 8192)

inductive FailureCategory
  | rateLimited | quotaExhausted | budgetExhausted | executionLimit | contextLimit
  | authentication | permission | invalidRequest | overloaded | transport | provider
  | protocol | internal | unknown
  deriving DecidableEq

def FailureCategory.name : FailureCategory → String
  | .rateLimited => "rate_limited"
  | .quotaExhausted => "quota_exhausted"
  | .budgetExhausted => "budget_exhausted"
  | .executionLimit => "execution_limit"
  | .contextLimit => "context_limit"
  | .authentication => "authentication"
  | .permission => "permission"
  | .invalidRequest => "invalid_request"
  | .overloaded => "overloaded"
  | .transport => "transport"
  | .provider => "provider"
  | .protocol => "protocol"
  | .internal => "internal"
  | .unknown => "unknown"

inductive UserAction
  | authenticate | reviewAccess | changeConfiguration | reviewAllowance
  deriving DecidableEq

def UserAction.name : UserAction → String
  | .authenticate => "authenticate"
  | .reviewAccess => "review_access"
  | .changeConfiguration => "change_configuration"
  | .reviewAllowance => "review_allowance"

/-- A recovery hint that a parent may see: it never names a child's quota. -/
inductive RecoveryHint
  | unknown
  | none
  | retry (notBefore : Option JsString)
  | waitForQuota
  | userAction (action : UserAction)
  deriving DecidableEq

instance : Data RecoveryHint where
  json
    | .unknown => .obj [(js "kind", wordJson "unknown")]
    | .none => .obj [(js "kind", wordJson "none")]
    | .retry notBefore => .obj ([(js "kind", wordJson "retry")] ++ optional "notBefore" notBefore textJson)
    | .waitForQuota => .obj [(js "kind", wordJson "wait_for_quota")]
    | .userAction action => .obj [(js "kind", wordJson "user_action"), (js "action", wordJson action.name)]

/-- An ISO date-time whose zone is `Z` or a numeric offset. -/
def isOffsetDateTime (s : JsString) : Bool :=
  isAt s ||
    match s.drop (s.length - 6) with
    | [sign, h1, h2, colon, m1, m2] =>
      (sign == 43 || sign == 45) && colon == 58 &&
        (number? [h1, h2]).any (fun h => decide (h < 24)) &&
        (number? [m1, m2]).any (fun m => decide (m < 60)) && isAt (s.take (s.length - 6) ++ [90])
    | _ => false

def RecoveryHint.schema : RecoveryHint → Bool
  | .retry notBefore => notBefore.all isOffsetDateTime
  | _ => true

structure PublicFailure where
  category : FailureCategory
  code : JsString
  message : JsString
  recovery : RecoveryHint
  deriving DecidableEq

instance : Data PublicFailure where
  json f := .obj [(js "category", wordJson f.category.name), (js "code", textJson f.code),
    (js "message", textJson f.message), (js "recovery", Data.json f.recovery)]

def PublicFailure.schema (f : PublicFailure) : Bool :=
  decide (f.code.length ≤ 128) && isTrimmed f.code &&
    decide (f.message.length ≤ DELEGATION_FAILURE_BYTES) && f.recovery.schema &&
    decide (dataBytes f ≤ DELEGATION_FAILURE_BYTES)

inductive RecoveryReason
  | executorLost | dispatchUncertain | requestExecutorLost | steeringUncertain
  | cancellationUncertain | storageFailed
  deriving DecidableEq

def RecoveryReason.name : RecoveryReason → String
  | .executorLost => "executor_lost"
  | .dispatchUncertain => "dispatch_uncertain"
  | .requestExecutorLost => "request_executor_lost"
  | .steeringUncertain => "steering_uncertain"
  | .cancellationUncertain => "cancellation_uncertain"
  | .storageFailed => "storage_failed"

inductive CancelConfirmation
  | notDispatched | providerTerminal
  deriving DecidableEq

def CancelConfirmation.name : CancelConfirmation → String
  | .notDispatched => "not_dispatched"
  | .providerTerminal => "provider_terminal"

inductive RunOutcome
  | succeeded (result : ResultSummary)
  | failed (error : PublicFailure)
  | canceled (confirmation : CancelConfirmation)
  | recoveryRequired (reason : RecoveryReason)
  deriving DecidableEq

instance : Data RunOutcome where
  json
    | .succeeded result => .obj [(js "kind", wordJson "succeeded"), (js "result", Data.json result)]
    | .failed error => .obj [(js "kind", wordJson "failed"), (js "error", Data.json error)]
    | .canceled confirmation =>
      .obj [(js "kind", wordJson "canceled"), (js "confirmation", wordJson confirmation.name)]
    | .recoveryRequired reason =>
      .obj [(js "kind", wordJson "recovery_required"), (js "reason", wordJson reason.name)]

def RunOutcome.schema : RunOutcome → Bool
  | .succeeded result => result.schema
  | .failed error => error.schema
  | .canceled _ => true
  | .recoveryRequired _ => true

def RunOutcome.isRecovery : RunOutcome → Bool
  | .recoveryRequired _ => true
  | _ => false

def RunOutcome.isFailed : RunOutcome → Bool
  | .failed _ => true
  | _ => false

/-- Outcomes that report what the provider itself ended with. -/
def RunOutcome.terminalTruth : RunOutcome → Bool
  | .succeeded _ => true
  | .canceled .providerTerminal => true
  | _ => false

/-! ## Tasks -/

inductive CompletionPolicy
  | collect | nextTurn | automatic
  deriving DecidableEq

def CompletionPolicy.name : CompletionPolicy → String
  | .collect => "collect"
  | .nextTurn => "next_turn"
  | .automatic => "automatic"

inductive TaskState
  | active | settled | recoveryRequired | retired
  deriving DecidableEq

def TaskState.name : TaskState → String
  | .active => "active"
  | .settled => "settled"
  | .recoveryRequired => "recovery_required"
  | .retired => "retired"

structure Retirement where
  operationId : JsString
  inputDigest : JsString
  reason : JsString
  deriving DecidableEq

structure TaskRecord where
  storeId : JsString
  taskId : JsString
  parent : ParentScope
  ancestorTaskId : Option JsString
  depth : Nat
  policyCeilingRef : JsString
  completionPolicy : CompletionPolicy
  state : TaskState
  revision : Nat
  latestRunId : JsString
  runCount : Nat
  createdAt : JsString
  retiredAt : Option JsString
  retirement : Option Retirement
  deriving DecidableEq

instance : Data Retirement where
  json r := .obj [(js "operationId", textJson r.operationId), (js "inputDigest", textJson r.inputDigest),
    (js "reason", textJson r.reason)]

instance : Data TaskRecord where
  json t := .obj ([(js "storeId", textJson t.storeId), (js "taskId", textJson t.taskId),
    (js "parent", Data.json t.parent)] ++ optional "ancestorTaskId" t.ancestorTaskId textJson ++
    [(js "depth", countJson t.depth), (js "policyCeilingRef", textJson t.policyCeilingRef),
    (js "completionPolicy", wordJson t.completionPolicy.name), (js "state", wordJson t.state.name),
    (js "revision", countJson t.revision), (js "latestRunId", textJson t.latestRunId),
    (js "runCount", countJson t.runCount), (js "createdAt", textJson t.createdAt)] ++
    optional "retiredAt" t.retiredAt textJson ++ optional "retirement" t.retirement Data.json)

def Retirement.schema (r : Retirement) : Bool :=
  isUuid r.operationId && isDigest r.inputDigest && decide (r.reason.length ≤ 1000)

def TaskRecord.schema (t : TaskRecord) : Bool :=
  isUuid t.storeId && isUuid t.taskId && t.parent.schema && t.ancestorTaskId.all isUuid &&
    isRevision t.depth && isDigest t.policyCeilingRef && isRevision t.revision &&
    isUuid t.latestRunId && isRevision t.runCount && isAt t.createdAt && t.retiredAt.all isAt &&
    t.retirement.all Retirement.schema

/-! ## Runs -/

inductive RunPhase
  | queued | preparing | running | waiting | settled
  deriving DecidableEq

def RunPhase.name : RunPhase → String
  | .queued => "queued"
  | .preparing => "preparing"
  | .running => "running"
  | .waiting => "waiting"
  | .settled => "settled"

inductive ContinuationMode
  | nextTurn | followUp
  deriving DecidableEq

def ContinuationMode.name : ContinuationMode → String
  | .nextTurn => "next_turn"
  | .followUp => "follow_up"

inductive Dispatch
  | none | intended | delegated
  deriving DecidableEq

def Dispatch.name : Dispatch → String
  | .none => "none"
  | .intended => "intended"
  | .delegated => "delegated"

inductive Preparation
  | none | intended | completed | uncertain
  deriving DecidableEq

def Preparation.name : Preparation → String
  | .none => "none"
  | .intended => "intended"
  | .completed => "completed"
  | .uncertain => "uncertain"

structure Finalization where
  operationId : JsString
  inputDigest : JsString
  taskRevision : Nat
  runRevision : Nat
  deriving DecidableEq

instance : Data Finalization where
  json f := .obj [(js "operationId", textJson f.operationId), (js "inputDigest", textJson f.inputDigest),
    (js "taskRevision", countJson f.taskRevision), (js "runRevision", countJson f.runRevision)]

def Finalization.schema (f : Finalization) : Bool :=
  isUuid f.operationId && isDigest f.inputDigest && isCount f.taskRevision && isCount f.runRevision

structure RunRecord where
  taskId : JsString
  runId : JsString
  ordinal : Nat
  previousRunId : Option JsString
  continuationMode : Option ContinuationMode
  admissionOperationId : JsString
  admittedTarget : TargetReference
  appliedTarget : Option TargetReference
  admittedPolicyRevision : Nat
  admittedOriginPolicyRevision : Nat
  input : InputContent
  ownerEpoch : Nat
  phase : RunPhase
  revision : Nat
  createdAt : JsString
  deadlineAt : JsString
  queuedStartDeadlineAt : JsString
  dispatch : Dispatch
  preparation : Preparation
  cancelRequested : Bool
  pendingRequest : Option HistoricalRequest
  outcome : Option RunOutcome
  settledAt : Option JsString
  observationIndex : Nat
  observationCount : Nat
  observationBytes : Nat
  omittedObservations : Nat
  lastObservationDigest : Option JsString
  ordinaryOperationCount : Nat
  recoveryReason : Option RecoveryReason
  finalization : Option Finalization
  deriving DecidableEq

instance : Data RunRecord where
  json r := .obj ([(js "taskId", textJson r.taskId), (js "runId", textJson r.runId),
    (js "ordinal", countJson r.ordinal)] ++ optional "previousRunId" r.previousRunId textJson ++
    optional "continuationMode" r.continuationMode (fun m => wordJson m.name) ++
    [(js "admissionOperationId", textJson r.admissionOperationId),
    (js "admittedTarget", Data.json r.admittedTarget)] ++
    optional "appliedTarget" r.appliedTarget Data.json ++
    [(js "admittedPolicyRevision", countJson r.admittedPolicyRevision),
    (js "admittedOriginPolicyRevision", countJson r.admittedOriginPolicyRevision),
    (js "input", Data.json r.input), (js "ownerEpoch", countJson r.ownerEpoch),
    (js "phase", wordJson r.phase.name), (js "revision", countJson r.revision),
    (js "createdAt", textJson r.createdAt), (js "deadlineAt", textJson r.deadlineAt),
    (js "queuedStartDeadlineAt", textJson r.queuedStartDeadlineAt),
    (js "dispatch", wordJson r.dispatch.name), (js "preparation", wordJson r.preparation.name),
    (js "cancelRequested", .bool r.cancelRequested)] ++
    optional "pendingRequest" r.pendingRequest Data.json ++
    optional "outcome" r.outcome Data.json ++ optional "settledAt" r.settledAt textJson ++
    [(js "observationIndex", countJson r.observationIndex),
    (js "observationCount", countJson r.observationCount),
    (js "observationBytes", countJson r.observationBytes),
    (js "omittedObservations", countJson r.omittedObservations),
    (js "ordinaryOperationCount", countJson r.ordinaryOperationCount)] ++
    optional "lastObservationDigest" r.lastObservationDigest textJson ++
    optional "recoveryReason" r.recoveryReason (fun reason => wordJson reason.name) ++
    optional "finalization" r.finalization Data.json)

/-- The properties of a run checked one by one. -/
def RunRecord.fieldsSchema [Platform] (r : RunRecord) : Bool :=
  isUuid r.taskId && isUuid r.runId && isRevision r.ordinal && r.previousRunId.all isUuid &&
    isUuid r.admissionOperationId && r.admittedTarget.schema &&
    r.appliedTarget.all TargetReference.schema && isRevision r.admittedPolicyRevision &&
    isRevision r.admittedOriginPolicyRevision && r.input.schema && isRevision r.ownerEpoch &&
    isRevision r.revision && isAt r.createdAt && isAt r.deadlineAt &&
    isAt r.queuedStartDeadlineAt && r.pendingRequest.all HistoricalRequest.schema &&
    r.outcome.all RunOutcome.schema && r.settledAt.all isAt && isCount r.observationIndex &&
    isCount r.observationCount && isCount r.observationBytes && isCount r.omittedObservations &&
    isCount r.ordinaryOperationCount && r.lastObservationDigest.all isDigest &&
    r.finalization.all Finalization.schema

/-- `RunRecordSchema`: the properties, two agreements between them, and the
size of the row. -/
def RunRecord.schema [Platform] (r : RunRecord) : Bool :=
  r.fieldsSchema && (r.previousRunId.isSome == r.continuationMode.isSome) &&
    (decide (r.phase = .settled) == r.outcome.isSome) &&
    (decide (r.phase = .settled) == r.settledAt.isSome) &&
    decide (dataBytes r ≤ 65536) && decide (dataBytes r.input ≤ 24576) &&
    decide (r.input.textCharacters ≤ 16000)

/-! ## Observations -/

inductive ObservationKind
  | state | text | request | omitted
  deriving DecidableEq

def ObservationKind.name : ObservationKind → String
  | .state => "state"
  | .text => "text"
  | .request => "request"
  | .omitted => "omitted"

structure TaskObservation where
  storeId : JsString
  taskId : JsString
  runId : JsString
  index : Nat
  atTime : JsString
  kind : ObservationKind
  phase : Option RunPhase
  text : Option JsString
  request : Option HistoricalRequest
  omitted : Option Nat
  deriving DecidableEq

instance : Data TaskObservation where
  json o := .obj ([(js "storeId", textJson o.storeId), (js "taskId", textJson o.taskId),
    (js "runId", textJson o.runId), (js "index", countJson o.index), (js "at", textJson o.atTime),
    (js "kind", wordJson o.kind.name)] ++ optional "phase" o.phase (fun p => wordJson p.name) ++
    optional "text" o.text textJson ++ optional "request" o.request Data.json ++
    optional "omitted" o.omitted countJson)

def TaskObservation.schema (o : TaskObservation) : Bool :=
  isUuid o.storeId && isUuid o.taskId && isUuid o.runId && isRevision o.index && isAt o.atTime &&
    o.text.all (fun t => decide (t.length ≤ 8192)) && o.request.all HistoricalRequest.schema &&
    o.omitted.all isRevision && decide (dataBytes o ≤ 8192)

/-! ## Commit receipts -/

inductive ReceiptStatus
  | queued | preparing | running | waiting | settled | recorded | omitted | retired
  deriving DecidableEq

def ReceiptStatus.name : ReceiptStatus → String
  | .queued => "queued"
  | .preparing => "preparing"
  | .running => "running"
  | .waiting => "waiting"
  | .settled => "settled"
  | .recorded => "recorded"
  | .omitted => "omitted"
  | .retired => "retired"

/-- The status that reports a phase. -/
def RunPhase.status : RunPhase → ReceiptStatus
  | .queued => .queued
  | .preparing => .preparing
  | .running => .running
  | .waiting => .waiting
  | .settled => .settled

structure CommitReceipt where
  duplicate : Bool
  status : ReceiptStatus
  taskId : JsString
  taskRevision : Nat
  runId : Option JsString := none
  runRevision : Option Nat := none
  operationId : Option JsString := none
  notificationId : Option JsString := none
  deriving DecidableEq

instance : Data CommitReceipt where
  json r := .obj ([(js "duplicate", .bool r.duplicate), (js "status", wordJson r.status.name),
    (js "taskId", textJson r.taskId), (js "taskRevision", countJson r.taskRevision)] ++
    optional "runId" r.runId textJson ++ optional "runRevision" r.runRevision countJson ++
    optional "operationId" r.operationId textJson ++ optional "notificationId" r.notificationId textJson)

def CommitReceipt.schema (r : CommitReceipt) : Bool :=
  isUuid r.taskId && isRevision r.taskRevision && r.runId.all isUuid &&
    r.runRevision.all isRevision && r.operationId.all isUuid && r.notificationId.all isUuid

/-! ## Notifications -/

structure CompletionEnvelope where
  storeId : JsString
  notificationId : JsString
  taskId : JsString
  runId : JsString
  parent : ParentScope
  policy : CompletionPolicy
  settledAt : JsString
  expiresAt : JsString
  outcome : RunOutcome
  deriving DecidableEq

instance : Data CompletionEnvelope where
  json e := .obj [(js "storeId", textJson e.storeId), (js "notificationId", textJson e.notificationId),
    (js "taskId", textJson e.taskId), (js "runId", textJson e.runId), (js "parent", Data.json e.parent),
    (js "policy", wordJson e.policy.name), (js "settledAt", textJson e.settledAt),
    (js "expiresAt", textJson e.expiresAt), (js "outcome", Data.json e.outcome)]

def CompletionEnvelope.schema (e : CompletionEnvelope) : Bool :=
  isUuid e.storeId && isUuid e.notificationId && isUuid e.taskId && isUuid e.runId &&
    e.parent.schema && isAt e.settledAt && isAt e.expiresAt && e.outcome.schema &&
    decide (dataBytes e ≤ 12288)

structure DeliveryCommitRecord where
  operationId : JsString
  inputDigest : JsString
  commandDigest : JsString
  attemptId : JsString
  attempt : Nat
  ownerEpoch : Nat
  receipt : CommitReceipt
  deriving DecidableEq

instance : Data DeliveryCommitRecord where
  json d := .obj [(js "operationId", textJson d.operationId), (js "inputDigest", textJson d.inputDigest),
    (js "commandDigest", textJson d.commandDigest), (js "attemptId", textJson d.attemptId),
    (js "attempt", countJson d.attempt), (js "ownerEpoch", countJson d.ownerEpoch),
    (js "receipt", Data.json d.receipt)]

def DeliveryCommitRecord.schema (d : DeliveryCommitRecord) : Bool :=
  isUuid d.operationId && isDigest d.inputDigest && isDigest d.commandDigest &&
    isUuid d.attemptId && isRevision d.attempt && isRevision d.ownerEpoch && d.receipt.schema &&
    decide (dataBytes d ≤ 2048)

inductive NotificationState
  | collectible | pending | claimed | accepted | rejected | expired | dismissed
  deriving DecidableEq

def NotificationState.name : NotificationState → String
  | .collectible => "collectible"
  | .pending => "pending"
  | .claimed => "claimed"
  | .accepted => "accepted"
  | .rejected => "rejected"
  | .expired => "expired"
  | .dismissed => "dismissed"

structure DeliveryClaim where
  ownerEpoch : Nat
  attemptId : JsString
  deriving DecidableEq

/-- The bookkeeping of the latest claim and the latest receipt. -/
structure DeliveryBookkeeping where
  claim : Option DeliveryCommitRecord
  receipt : Option DeliveryCommitRecord
  deriving DecidableEq

structure NotificationRecord where
  envelope : CompletionEnvelope
  revision : Nat
  state : NotificationState
  claim : Option DeliveryClaim
  attempts : Nat
  retryAt : Option JsString
  inboxId : Option JsString
  acceptedAt : Option JsString
  reason : Option JsString
  delivery : Option DeliveryBookkeeping
  deriving DecidableEq

instance : Data DeliveryClaim where
  json c := .obj [(js "ownerEpoch", countJson c.ownerEpoch), (js "attemptId", textJson c.attemptId)]

instance : Data DeliveryBookkeeping where
  json d := .obj (optional "claim" d.claim Data.json ++ optional "receipt" d.receipt Data.json)

instance : Data NotificationRecord where
  json n := .obj ([(js "envelope", Data.json n.envelope), (js "revision", countJson n.revision),
    (js "state", wordJson n.state.name)] ++ optional "claim" n.claim Data.json ++
    [(js "attempts", countJson n.attempts)] ++ optional "retryAt" n.retryAt textJson ++
    optional "inboxId" n.inboxId textJson ++ optional "acceptedAt" n.acceptedAt textJson ++
    optional "reason" n.reason textJson ++ optional "delivery" n.delivery Data.json)

/-- The pair whose size is reserved for the end of a run. -/
def finalSlot (outcome : RunOutcome) (notification : NotificationRecord) : Json :=
  .obj [(js "outcome", Data.json outcome), (js "notification", Data.json notification)]

def NotificationRecord.schema (n : NotificationRecord) : Bool :=
  n.envelope.schema && isRevision n.revision &&
    n.claim.all (fun c => isRevision c.ownerEpoch && isUuid c.attemptId) && isCount n.attempts &&
    n.retryAt.all isAt && n.inboxId.all isOpaqueId && n.acceptedAt.all isAt &&
    n.reason.all (fun r => decide (r.length ≤ 1000)) &&
    n.delivery.all (fun d => d.claim.all DeliveryCommitRecord.schema &&
      d.receipt.all DeliveryCommitRecord.schema) &&
    (decide (n.state = .claimed) == n.claim.isSome) &&
    decide (Json.canonicalBytes (finalSlot n.envelope.outcome n) ≤ 32768)

/-! ## Parsers -/

/-- A parser: capture the data, then check its schema. -/
def parse {α : Type} [Data α] (schema : α → Bool) (input : α) : Result α := do
  copyBoundedDelegationData (Data.json input)
  invalidWhen (schema input = false) .schema
  pure input

theorem parse_eq_ok {α : Type} [Data α] {schema : α → Bool} {a b : α} :
    parse schema a = .ok b ↔
      copyBoundedDelegationData (Data.json a) = .ok () ∧ schema a = true ∧ b = a := by
  simp only [parse, bind_eq_ok, failIf_eq_ok, pure_eq_ok, Except.ok.injEq, exists_const,
    Bool.not_eq_false]
  grind

end AgentSdk.Delegation
