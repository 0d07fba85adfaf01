import AgentSdk.Delegation.Tasks

/-!
# Store commands

The commands a delegation store accepts, the operation rows and capacity record
it keeps, and the check every command passes before anything is read.
-/

namespace AgentSdk.Delegation

open AgentSdk.Text AgentSdk.Calendar AgentSdk.Outcome

/-! ## Operations -/

inductive OperationKind
  | admitRun | prepare | configure | turn | steer | requestResolution
  | cancel | interrupt | sessionClose | bindingCleanup
  deriving DecidableEq

def OperationKind.name : OperationKind → String
  | .admitRun => "admit"
  | .prepare => "prepare"
  | .configure => "configure"
  | .turn => "turn"
  | .steer => "steer"
  | .requestResolution => "request_resolution"
  | .cancel => "cancel"
  | .interrupt => "interrupt"
  | .sessionClose => "session_close"
  | .bindingCleanup => "binding_cleanup"

/-- `criticalKinds`: operations that use a slot reserved for their run. -/
def OperationKind.critical : OperationKind → Bool
  | .cancel | .interrupt | .sessionClose | .bindingCleanup => true
  | _ => false

inductive Disposition
  | intent | delegated | delivered | rejected | interruptionRequested | uncertain | completed
  deriving DecidableEq

def Disposition.name : Disposition → String
  | .intent => "intent"
  | .delegated => "delegated"
  | .delivered => "delivered"
  | .rejected => "rejected"
  | .interruptionRequested => "interruption_requested"
  | .uncertain => "uncertain"
  | .completed => "completed"

/-- Whether a request may still be answered after a rejected resolution. -/
inductive Eligibility
  | pending | unavailable
  deriving DecidableEq

def Eligibility.name : Eligibility → String
  | .pending => "pending"
  | .unavailable => "unavailable"

/-- The request an operation resolves. -/
structure RequestIdentity where
  requestId : JsString
  requestKind : RequestKind
  deriving DecidableEq

structure OperationRecord where
  operationId : JsString
  parent : ParentScope
  taskId : JsString
  runId : JsString
  kind : OperationKind
  inputDigest : JsString
  ownerEpoch : Nat
  disposition : Disposition
  attempts : Nat
  atTime : JsString
  message : Option JsString
  request : Option RequestIdentity
  requestState : Option Eligibility
  receipt : CommitReceipt
  deriving DecidableEq

instance : Data RequestIdentity where
  json r := .obj [(js "requestId", textJson r.requestId), (js "requestKind", wordJson r.requestKind.name)]

instance : Data OperationRecord where
  json o := .obj ([(js "operationId", textJson o.operationId), (js "parent", Data.json o.parent),
    (js "taskId", textJson o.taskId), (js "runId", textJson o.runId), (js "kind", wordJson o.kind.name),
    (js "inputDigest", textJson o.inputDigest), (js "ownerEpoch", countJson o.ownerEpoch),
    (js "disposition", wordJson o.disposition.name), (js "attempts", countJson o.attempts),
    (js "at", textJson o.atTime)] ++ optional "message" o.message textJson ++
    optional "request" o.request Data.json ++
    optional "requestState" o.requestState (fun s => wordJson s.name) ++
    [(js "receipt", Data.json o.receipt)])

/-! ## Capacity -/

/-- The counters of a store. -/
@[ext]
structure Capacity where
  tasks : Int
  runs : Int
  activeRuns : Int
  queuedRuns : Int
  retainedInputBytes : Int
  observationBytes : Int
  ordinaryOperations : Int
  reservedBytes : Int
  criticalSlots : Int
  deriving DecidableEq

def Capacity.zero : Capacity := ⟨0, 0, 0, 0, 0, 0, 0, 0, 0⟩

/-- Every counter. -/
def Capacity.values (c : Capacity) : List Int :=
  [c.tasks, c.runs, c.activeRuns, c.queuedRuns, c.retainedInputBytes, c.observationBytes,
    c.ordinaryOperations, c.reservedBytes, c.criticalSlots]

instance : Data Capacity where
  json c := .obj [(js "tasks", .num c.tasks), (js "runs", .num c.runs),
    (js "activeRuns", .num c.activeRuns), (js "queuedRuns", .num c.queuedRuns),
    (js "retainedInputBytes", .num c.retainedInputBytes),
    (js "observationBytes", .num c.observationBytes),
    (js "ordinaryOperations", .num c.ordinaryOperations),
    (js "reservedBytes", .num c.reservedBytes), (js "criticalSlots", .num c.criticalSlots)]

/-! ## Commands -/

structure RunAdmission where
  parent : ParentScope
  ancestorTaskId : Option JsString
  depth : Nat
  policyCeiling : PolicyCeiling
  completionPolicy : CompletionPolicy
  runId : JsString
  previousRunId : Option JsString
  continuationMode : Option ContinuationMode
  target : TargetReference
  policyRevision : Nat
  originPolicyRevision : Nat
  input : InputContent
  createdAt : JsString
  deadlineAt : JsString
  queuedStartDeadlineAt : JsString
  deriving DecidableEq

inductive BlockReason
  | busy | authorityUnavailable | capacity
  deriving DecidableEq

def BlockReason.name : BlockReason → String
  | .busy => "busy"
  | .authorityUnavailable => "authority_unavailable"
  | .capacity => "capacity"

/-- Why a delivery ended without acceptance. -/
inductive DeliveryEnd
  | rejected | expired | dismissed
  deriving DecidableEq

def DeliveryEnd.name : DeliveryEnd → String
  | .rejected => "rejected"
  | .expired => "expired"
  | .dismissed => "dismissed"

def DeliveryEnd.state : DeliveryEnd → NotificationState
  | .rejected => .rejected
  | .expired => .expired
  | .dismissed => .dismissed

inductive DeliveryResult
  | accepted (inboxId acceptedAt : JsString)
  | blocked (reason : BlockReason) (retryAt : JsString)
  | uncertain (retryAt : JsString)
  | ended (status : DeliveryEnd) (reason : JsString)
  deriving DecidableEq

/-- The steps of a request that a run waits for. -/
inductive RequestStep
  | opened | resolutionIntended | resolved | unavailable
  deriving DecidableEq

def RequestStep.name : RequestStep → String
  | .opened => "opened"
  | .resolutionIntended => "resolution_intended"
  | .resolved => "resolved"
  | .unavailable => "unavailable"

inductive CommandBody
  | admitRun (admission : RunAdmission)
  | dispatchIntent (operationKind : OperationKind) (atTime : JsString)
      (appliedTarget : Option TargetReference) (attempt : Option Nat)
  | operationReceipt (disposition : Disposition) (atTime : JsString) (message : Option JsString)
      (requestState : Option Eligibility)
  | observe (observation : TaskObservation)
  | requestState (state : RequestStep) (request : HistoricalRequest) (atTime : JsString)
  | cancel (atTime reason : JsString)
  | settle (outcome : RunOutcome) (atTime : JsString)
  | deliveryClaim (notificationId : JsString) (expectedNotificationRevision : Nat)
      (attemptId atTime : JsString)
  | deliveryReceipt (notificationId : JsString) (expectedNotificationRevision : Nat)
      (attemptId : JsString) (result : DeliveryResult) (atTime : JsString)
  | retireRecovery (reason atTime : JsString)
  deriving DecidableEq

/-- A command: its fence and what it asks for. -/
structure StoreCommand where
  owner : OwnerToken
  operationId : JsString
  inputDigest : JsString
  taskId : JsString
  expectedTaskRevision : Nat
  runId : Option JsString
  expectedRunRevision : Option Nat
  body : CommandBody
  deriving DecidableEq

instance : Data RunAdmission where
  json a := .obj ([(js "parent", Data.json a.parent)] ++
    optional "ancestorTaskId" a.ancestorTaskId textJson ++
    [(js "depth", countJson a.depth), (js "policyCeiling", Data.json a.policyCeiling),
    (js "completionPolicy", wordJson a.completionPolicy.name), (js "runId", textJson a.runId)] ++
    optional "previousRunId" a.previousRunId textJson ++
    optional "continuationMode" a.continuationMode (fun m => wordJson m.name) ++
    [(js "target", Data.json a.target), (js "policyRevision", countJson a.policyRevision),
    (js "originPolicyRevision", countJson a.originPolicyRevision), (js "input", Data.json a.input),
    (js "createdAt", textJson a.createdAt), (js "deadlineAt", textJson a.deadlineAt),
    (js "queuedStartDeadlineAt", textJson a.queuedStartDeadlineAt)])

instance : Data DeliveryResult where
  json
    | .accepted inboxId acceptedAt => .obj [(js "status", wordJson "accepted"),
        (js "inboxId", textJson inboxId), (js "acceptedAt", textJson acceptedAt)]
    | .blocked reason retryAt => .obj [(js "status", wordJson "blocked"),
        (js "reason", wordJson reason.name), (js "retryAt", textJson retryAt)]
    | .uncertain retryAt => .obj [(js "status", wordJson "uncertain"), (js "retryAt", textJson retryAt)]
    | .ended status reason => .obj [(js "status", wordJson status.name), (js "reason", textJson reason)]

/-- The properties a command has beside its fence. -/
def CommandBody.fields : CommandBody → List (JsString × Json)
  | .admitRun admission => [(js "kind", wordJson "admit"), (js "admission", Data.json admission)]
  | .dispatchIntent operationKind atTime appliedTarget attempt =>
    [(js "kind", wordJson "dispatch_intent"), (js "operationKind", wordJson operationKind.name),
      (js "at", textJson atTime)] ++ optional "appliedTarget" appliedTarget Data.json ++
      optional "attempt" attempt countJson
  | .operationReceipt disposition atTime message eligibility =>
    [(js "kind", wordJson "operation_receipt"), (js "disposition", wordJson disposition.name),
      (js "at", textJson atTime)] ++ optional "message" message textJson ++
      optional "requestState" eligibility (fun s => wordJson s.name)
  | .observe observation => [(js "kind", wordJson "observe"), (js "observation", Data.json observation)]
  | .requestState state request atTime =>
    [(js "kind", wordJson "request_state"), (js "state", wordJson state.name),
      (js "request", Data.json request), (js "at", textJson atTime)]
  | .cancel atTime reason =>
    [(js "kind", wordJson "cancel"), (js "at", textJson atTime), (js "reason", textJson reason)]
  | .settle outcome atTime =>
    [(js "kind", wordJson "settle"), (js "outcome", Data.json outcome), (js "at", textJson atTime)]
  | .deliveryClaim notificationId expectedNotificationRevision attemptId atTime =>
    [(js "kind", wordJson "delivery_claim"), (js "notificationId", textJson notificationId),
      (js "expectedNotificationRevision", countJson expectedNotificationRevision),
      (js "attemptId", textJson attemptId), (js "at", textJson atTime)]
  | .deliveryReceipt notificationId expectedNotificationRevision attemptId result atTime =>
    [(js "kind", wordJson "delivery_receipt"), (js "notificationId", textJson notificationId),
      (js "expectedNotificationRevision", countJson expectedNotificationRevision),
      (js "attemptId", textJson attemptId), (js "result", Data.json result), (js "at", textJson atTime)]
  | .retireRecovery reason atTime =>
    [(js "kind", wordJson "retire_recovery"), (js "reason", textJson reason), (js "at", textJson atTime)]

instance : Data StoreCommand where
  json c := .obj ([(js "owner", Data.json c.owner), (js "operationId", textJson c.operationId),
    (js "inputDigest", textJson c.inputDigest), (js "taskId", textJson c.taskId),
    (js "expectedTaskRevision", countJson c.expectedTaskRevision)] ++ optional "runId" c.runId textJson ++
    optional "expectedRunRevision" c.expectedRunRevision countJson ++ c.body.fields)

/-! ## The command check -/

def RunAdmission.schema [Platform] (a : RunAdmission) : Bool :=
  a.parent.schema && a.ancestorTaskId.all isUuid && isRevision a.depth && a.policyCeiling.schema &&
    isUuid a.runId && a.previousRunId.all isUuid && a.target.schema &&
    isRevision a.policyRevision && isRevision a.originPolicyRevision && a.input.schema &&
    isAt a.createdAt && isAt a.deadlineAt && isAt a.queuedStartDeadlineAt &&
    (a.previousRunId.isSome == a.continuationMode.isSome)

def DeliveryResult.schema : DeliveryResult → Bool
  | .accepted inboxId acceptedAt => isOpaqueId inboxId && isAt acceptedAt
  | .blocked _ retryAt => isAt retryAt
  | .uncertain retryAt => isAt retryAt
  | .ended _ reason => decide (reason.length ≤ 1000)

def CommandBody.schema [Platform] : CommandBody → Bool
  | .admitRun admission => admission.schema
  | .dispatchIntent operationKind atTime appliedTarget attempt =>
    decide (operationKind ≠ .admitRun) && decide (operationKind ≠ .cancel) && isAt atTime &&
      appliedTarget.all TargetReference.schema &&
      attempt.all fun n => decide (n = 1) || decide (n = 2)
  | .operationReceipt disposition atTime message _ =>
    decide (disposition ≠ .intent) && isAt atTime &&
      message.all fun m => decide (m.length ≤ 1000)
  | .observe observation => observation.schema
  | .requestState _ request atTime => request.schema && isAt atTime
  | .cancel atTime reason =>
    isAt atTime && decide (1 ≤ reason.length) && decide (reason.length ≤ 1000)
  | .settle outcome atTime => outcome.schema && isAt atTime
  | .deliveryClaim notificationId expectedNotificationRevision attemptId atTime =>
    isUuid notificationId && isCount expectedNotificationRevision && isUuid attemptId && isAt atTime
  | .deliveryReceipt notificationId expectedNotificationRevision attemptId result atTime =>
    isUuid notificationId && isCount expectedNotificationRevision && isUuid attemptId &&
      result.schema && isAt atTime
  | .retireRecovery reason atTime =>
    decide (1 ≤ reason.length) && decide (reason.length ≤ 1000) && isAt atTime

def StoreCommand.schema [Platform] (c : StoreCommand) : Bool :=
  c.owner.schema && isUuid c.operationId && isDigest c.inputDigest && isUuid c.taskId &&
    isCount c.expectedTaskRevision && c.runId.all isUuid && c.expectedRunRevision.all isCount &&
    c.body.schema

/-- The ceiling of an admission is canonical. -/
def CommandBody.ceilingCanonical [Platform] : CommandBody → Bool
  | .admitRun admission => admission.policyCeiling.canonical
  | _ => true

/-- `parseDelegationStoreCommand`. -/
def parseDelegationStoreCommand [Platform] (input : StoreCommand) : Result StoreCommand := do
  let value ← parse StoreCommand.schema input
  invalidWhen (value.body.ceilingCanonical = false) .invalidCeiling
  pure value

theorem parseDelegationStoreCommand_eq_ok [Platform] {a b : StoreCommand} :
    parseDelegationStoreCommand a = .ok b ↔
      copyBoundedDelegationData (Data.json a) = .ok () ∧ a.schema = true ∧
        a.body.ceilingCanonical = true ∧ b = a := by
  simp only [parseDelegationStoreCommand, bind_eq_ok, parse_eq_ok, failIf_eq_ok, pure_eq_ok,
    Except.ok.injEq, exists_const, Bool.not_eq_false]
  grind

end AgentSdk.Delegation
