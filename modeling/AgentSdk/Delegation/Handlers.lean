import AgentSdk.Delegation.Context

/-!
# Command handlers

One function for each kind of command.  A handler runs on the working copy
after the fences of the command were checked.
-/

namespace AgentSdk.Delegation

open AgentSdk.Text AgentSdk.Calendar AgentSdk.Outcome

variable [Platform]

/-! ## Admission -/

/-- The checks a continuation of a task passes. -/
def admitContinuation (context : CommitContext) (admission : RunAdmission) (task : TaskRecord) :
    Result Unit := do
  let current := context.current
  let command := context.command
  let previous? := current.runs.find? fun run => decide (some run.runId = admission.previousRunId)
  match previous? with
  | none => .error (.operation .staleRevision
      (js "A continuation requires its exact previous run revision."))
  | some previous => do
      failWhen (command.runId ≠ some previous.runId ∨
          command.expectedRunRevision ≠ some previous.revision)
        .staleRevision "A continuation requires its exact previous run revision."
      failWhen ((admission.continuationMode = some .nextTurn ∧
            (previous.phase ≠ .running ∨ previous.cancelRequested = true)) ∨
          (admission.continuationMode = some .followUp ∧
            (previous.phase ≠ .settled ∨ previous.outcome.any RunOutcome.isRecovery = true)))
        .staleRevision "The continuation mode does not match its previous run boundary."
      failWhen (task.state = .retired ∨ task.state = .recoveryRequired ∨
          same task.parent admission.parent = false ∨ task.depth ≠ admission.depth ∨
          task.policyCeilingRef ≠ admission.policyCeiling.ceilingId ∨
          task.completionPolicy ≠ admission.completionPolicy ∨
          task.ancestorTaskId ≠ admission.ancestorTaskId ∨
          admission.previousRunId ≠ some task.latestRunId ∨
          current.runs.any (fun run => decide (run.phase = .queued)) = true)
        .staleRevision "A continuation must preserve its task and follow the latest safe run."
      failWhen (current.runs.any (fun run => decide (run.phase = .waiting)) = true ∨
          task.runCount ≥ current.limits.maxRunsPerTask)
        .capacityExceeded "This task cannot admit another queued continuation."

/-- The row of a run admitted now. -/
def admittedRun (command : StoreCommand) (admission : RunAdmission) (ordinal : Nat) : RunRecord :=
  { taskId := command.taskId, runId := admission.runId, ordinal,
    previousRunId := if admission.previousRunId.isSome && admission.continuationMode.isSome
      then admission.previousRunId else none,
    continuationMode := if admission.previousRunId.isSome && admission.continuationMode.isSome
      then admission.continuationMode else none,
    admissionOperationId := command.operationId, admittedTarget := admission.target,
    appliedTarget := none, admittedPolicyRevision := admission.policyRevision,
    admittedOriginPolicyRevision := admission.originPolicyRevision, input := admission.input,
    ownerEpoch := command.owner.epoch, phase := .queued, revision := 1,
    createdAt := admission.createdAt, deadlineAt := admission.deadlineAt,
    queuedStartDeadlineAt := admission.queuedStartDeadlineAt, dispatch := .none,
    preparation := .none, cancelRequested := false, pendingRequest := none, outcome := none,
    settledAt := none, observationIndex := 0, observationCount := 0, observationBytes := 0,
    omittedObservations := 0, lastObservationDigest := none, ordinaryOperationCount := 0,
    recoveryReason := none, finalization := none }

/-- The checks of an admission against the task it creates or continues. -/
def admitTaskCheck (context : CommitContext) (admission : RunAdmission) : Result Unit :=
  match context.current.task with
  | some task => admitContinuation context admission task
  | none => failWhen (admission.previousRunId.isSome = true ∨
      context.command.expectedTaskRevision ≠ 0) .staleRevision
      "A new task cannot refer to an earlier run."

def admitRun (context : CommitContext) (admission : RunAdmission) : Result CommitContext := do
  let command := context.command
  let current := context.current
  let limits := current.limits
  failWhen (current.runIdExists = true ∨
      current.runs.any (fun run => decide (run.runId = admission.runId)) = true)
    .operationConflict "The run identity is already retained."
  failWhen (admission.depth > limits.maxDepth ∨ dataBytes admission.input > limits.maxInputBytes ∨
      admission.input.textCharacters > limits.maxInputTextCharacters)
    .capacityExceeded "The admitted depth or input exceeds its configured limit."
  failWhen (admission.policyCeiling.targets.any (fun target => same target admission.target) = false)
    .policyDenied "The exact admitted target is outside the retained policy ceiling."
  failWhen (notAfter admission.deadlineAt admission.createdAt = true ∨
      notAfter admission.queuedStartDeadlineAt admission.createdAt = true ∨
      laterBy admission.deadlineAt admission.createdAt limits.runTimeoutMs = true ∨
      laterBy admission.queuedStartDeadlineAt admission.createdAt limits.queuedStartTimeoutMs = true)
    .capacityExceeded "Admission deadlines exceed their configured bounds."
  admitTaskCheck context admission
  let ceilingBytes := if current.ceiling.isSome then 0 else dataBytes admission.policyCeiling
  failWhen (current.ceiling.any (fun ceiling => !same ceiling admission.policyCeiling) = true)
    .operationConflict "A retained ceiling digest has conflicting facts."
  let inputBytes := dataBytes admission.input + ceilingBytes
  let capacity := context.capacity
  failWhen ((current.task = none ∧ capacity.tasks ≥ limits.maxTasks) ∨
      capacity.runs ≥ limits.maxRuns ∨ capacity.queuedRuns ≥ limits.maxQueuedRuns ∨
      capacity.retainedInputBytes + inputBytes > limits.maxRetainedInputBytes)
    .capacityExceeded "The retained admission or queue capacity is full."
  let runCount := (current.task.map TaskRecord.runCount).getD 0 + 1
  let context := { context with
    capacity := { capacity with
      tasks := capacity.tasks + if current.task.isSome then 0 else 1,
      runs := capacity.runs + 1, queuedRuns := capacity.queuedRuns + 1,
      retainedInputBytes := capacity.retainedInputBytes + inputBytes,
      reservedBytes := capacity.reservedBytes + DELEGATION_RUN_RESERVATION_BYTES,
      criticalSlots := capacity.criticalSlots + DELEGATION_CRITICAL_SLOTS },
    task := { context.task with latestRunId := admission.runId, runCount },
    run := some (admittedRun command admission runCount),
    receipt := { context.receipt with status := .queued, runId := some admission.runId,
                                      runRevision := some 1,
                                      operationId := some command.operationId } }
  let context ← addOperation context .admitRun admission.createdAt 1 none
  pure (if current.ceiling.isSome then context
    else { context with mutations := context.mutations ++ [.ceiling admission.policyCeiling] })

/-! ## Provider intents and receipts -/

/-- `receiptDispositions`: how the provider may answer an operation. -/
def receiptDispositions : OperationKind → List Disposition
  | .admitRun | .cancel => []
  | .prepare | .configure | .sessionClose | .bindingCleanup => [.completed, .rejected, .uncertain]
  | .turn => [.delegated, .rejected, .uncertain]
  | .steer | .requestResolution => [.delivered, .rejected, .uncertain]
  | .interrupt => [.interruptionRequested, .completed, .rejected, .uncertain]

/-- What each kind of first intent requires of its run, and how it changes
it. -/
def enterIntent (context : CommitContext) (run : RunRecord) (kind : OperationKind)
    (appliedTarget : Option TargetReference) : Result CommitContext :=
  match kind with
  | .prepare => do
      failWhen (run.phase ≠ .queued ∨ run.dispatch ≠ .none) .staleRevision
        "Only an undispatched queued run can prepare."
      failWhen (context.current.runs.any (fun other => decide (other.runId ≠ run.runId) &&
            decide (other.phase = .preparing ∨ other.phase = .running ∨ other.phase = .waiting)) =
              true ∨
          context.capacity.activeRuns ≥ context.current.limits.maxActiveRuns)
        .capacityExceeded "No active executor slot is available."
      setRun context fun r =>
        { r with phase := .preparing, preparation := .intended,
                 ownerEpoch := context.command.owner.epoch }
  | .turn => do
      failWhen (run.phase ≠ .preparing ∨ run.preparation ≠ .completed ∨ run.dispatch ≠ .none ∨
          appliedTarget.all (fun target => same target run.admittedTarget) = false ∨
          appliedTarget = none)
        .staleTarget "A first turn requires preparation and the exact applied target."
      setRun context fun r =>
        { r with phase := .running, dispatch := .intended, appliedTarget }
  | .configure => do
      failWhen (run.phase ≠ .preparing) .staleRevision
        "Configuration belongs to session preparation."
      pure context
  | .steer => do
      failWhen (run.phase ≠ .running) .staleRevision "Steering requires the active running turn."
      pure context
  | .requestResolution => .error (.operation .requestUnavailable
      (js "Request continuation must commit its exact historical request intent."))
  | .interrupt => do
      failWhen (run.phase = .queued ∨ run.phase = .settled ∨ run.cancelRequested = false)
        .staleRevision "Interruption requires a live canceled run."
      pure context
  | _ => pure context

def dispatchIntent (context : CommitContext) (kind : OperationKind) (atTime : JsString)
    (appliedTarget : Option TargetReference) (attempt : Option Nat) : Result CommitContext := do
  let command := context.command
  let run ← requireRun context
  failWhen (run.ownerEpoch ≠ command.owner.epoch ∧ kind ≠ .prepare) .recoveryRequired
    "A new executor cannot replay any old provider or cleanup intent."
  match context.current.criticalOperations.find? fun operation => decide (operation.kind = kind) with
  | some prior => do
      failWhen ((kind ≠ .sessionClose ∧ kind ≠ .bindingCleanup) ∨ attempt ≠ some 2 ∨
          prior.attempts ≠ 1 ∨
          (prior.disposition ≠ .rejected ∧ prior.disposition ≠ .uncertain) ∨
          prior.operationId ≠ command.operationId ∨ prior.inputDigest ≠ command.inputDigest)
        .operationConflict "The reserved control slot is already assigned."
      pure { context with mutations := context.mutations ++ [.operation
        { prior with attempts := 2, disposition := .intent, atTime,
                     ownerEpoch := command.owner.epoch, receipt := context.receipt }] }
  | none => do
      failWhen (attempt.getD 1 ≠ 1) .staleRevision
        "A cleanup retry requires its retained first attempt."
      failWhen (kind = .bindingCleanup ∧ context.current.criticalOperations.any
          (fun operation => decide (operation.kind = .sessionClose)) = false)
        .staleRevision "Combined cleanup must journal session close before binding cleanup."
      failWhen (kind.critical = false ∧ (context.task.state = .retired ∨
          context.task.state = .recoveryRequired ∨ run.cancelRequested = true))
        .recoveryRequired "This run no longer admits provider execution inputs."
      let context ← enterIntent context run kind appliedTarget
      let context ← addOperation context kind atTime 1 none
      let run ← requireRun context
      pure { context with receipt := { context.receipt with status := run.phase.status } }

/-- The state of a pending request after the provider answered its
resolution. -/
def answeredState (state : RequestState) (disposition : Disposition)
    (eligibility : Option Eligibility) : RequestState :=
  if state = .unavailable then .unavailable
  else if disposition = .delivered then .resolved
  else if eligibility = some .pending then .waiting
  else .unavailable

/-- Is this the request an operation resolves? -/
def HistoricalRequest.is (request : HistoricalRequest) (identity : RequestIdentity) : Prop :=
  request.requestId = identity.requestId ∧ request.requestKind = identity.requestKind

instance (request : HistoricalRequest) (identity : RequestIdentity) :
    Decidable (request.is identity) := by
  unfold HistoricalRequest.is
  infer_instance

/-- The pending request after its resolution was answered. -/
def answerPending (context : CommitContext) (pending : HistoricalRequest)
    (disposition : Disposition) (eligibility : Option Eligibility) : Result CommitContext := do
  failWhen (pending.state ≠ .resolutionIntended ∧ pending.state ≠ .unavailable)
    .requestUnavailable "The exact request has no entered resolution intent."
  let state := answeredState pending.state disposition eligibility
  setRun context fun r =>
    { r with phase := if r.phase = .settled then .settled
                      else if state = .waiting then .waiting else .running,
             pendingRequest := some { pending with state } }

/-- The effect of an answered resolution on the request it was about: another
request stays as it is. -/
def answerIdentity (context : CommitContext) (pending? : Option HistoricalRequest)
    (disposition : Disposition) (eligibility : Option Eligibility) : Result CommitContext :=
  match pending? with
  | some pending => answerPending context pending disposition eligibility
  | none => pure context

/-- The effect of an answered resolution on the run. -/
def answerRequest (context : CommitContext) (prior : OperationRecord) (disposition : Disposition)
    (eligibility : Option Eligibility) : Result CommitContext := do
  let run ← requireRun context
  match prior.request with
  | none => .error (.operation .operationConflict
      (js "Request delivery requires its exact retained request identity."))
  | some identity => do
      let context ← answerIdentity context
        (run.pendingRequest.filter fun pending => decide (pending.is identity))
        disposition eligibility
      let run ← requireRun context
      pure { context with receipt := { context.receipt with status := run.phase.status } }

/-- Only the receipt of a resolution answers a request. -/
def answerOperation (context : CommitContext) (prior : OperationRecord) (disposition : Disposition)
    (eligibility : Option Eligibility) : Result CommitContext :=
  if prior.kind = .requestResolution then answerRequest context prior disposition eligibility
  else pure context

/-- The effect of a receipt on the run, by kind and disposition. -/
def settleIntent (kind : OperationKind) (disposition : Disposition) (run : RunRecord) : RunRecord :=
  match kind, disposition with
  | .turn, .delegated => { run with dispatch := .delegated }
  | .prepare, .completed => { run with preparation := .completed }
  | .prepare, .uncertain => { run with preparation := .uncertain }
  | .prepare, .rejected => { run with preparation := .none }
  | .steer, .uncertain => { run with recoveryReason := some .steeringUncertain }
  | .configure, .uncertain => { run with recoveryReason := some .dispatchUncertain }
  | .requestResolution, .uncertain => { run with recoveryReason := some .requestExecutorLost }
  | _, _ => run

def operationReceipt (context : CommitContext) (disposition : Disposition) (atTime : JsString)
    (message : Option JsString) (eligibility : Option Eligibility) : Result CommitContext := do
  let command := context.command
  match context.current.operation with
  | none => .error (.operation .operationConflict (js "The exact provider intent is unavailable."))
  | some prior => do
      failWhen (some prior.runId ≠ command.runId ∨ prior.inputDigest ≠ command.inputDigest)
        .operationConflict "The exact provider intent is unavailable."
      failWhen (disposition ∉ receiptDispositions prior.kind) .operationConflict
        "The receipt disposition is invalid for this operation kind."
      failWhen (decide (prior.kind = .requestResolution ∧ disposition = .rejected) ≠
          eligibility.isSome)
        .operationConflict
        "Only a rejected request receipt requires authoritative request eligibility."
      failWhen (prior.disposition = .delivered ∨ prior.disposition = .rejected ∨
          prior.disposition = .completed ∨
          (prior.kind = .requestResolution ∧ prior.disposition = .uncertain))
        .operationConflict "A final operation disposition is immutable."
      failWhen (prior.ownerEpoch ≠ command.owner.epoch) .recoveryRequired
        "A new owner cannot invent a prior executor receipt."
      failWhen (prior.kind = .bindingCleanup ∧ disposition = .completed ∧
          context.current.criticalOperations.any (fun operation =>
            decide (operation.kind = .sessionClose ∧ operation.disposition = .completed)) = false)
        .staleRevision "Binding cleanup cannot complete before confirmed session close."
      let operation := { prior with
        disposition, atTime,
        requestState := if eligibility.isSome then eligibility else prior.requestState,
        message := if message.any (fun m => decide (m ≠ [])) then message else prior.message,
        receipt := { context.receipt with operationId := some command.operationId } }
      let bytes ← delegationDataBytes (Data.json operation)
      failWhen (bytes > DELEGATION_CRITICAL_SLOT_BYTES) .capacityExceeded
        "Operation receipt exceeds its fixed slot."
      let context := { context with mutations := context.mutations ++ [.operation operation] }
      let context ← answerOperation context prior disposition eligibility
      setRun context (settleIntent prior.kind disposition)

/-! ## Requests -/

/-- Has a request expired at a time? -/
def HistoricalRequest.expiredAt (request : HistoricalRequest) (atTime : JsString) : Bool :=
  request.expiresAt.any fun expiresAt => notAfter expiresAt atTime

/-- The guard of an answer to a request that is still open. -/
def resolutionBlocked (command : StoreCommand) (run : RunRecord) (pending : HistoricalRequest)
    (atTime : JsString) : Prop :=
  run.phase ≠ .waiting ∨ pending.state ≠ .waiting ∨ run.ownerEpoch ≠ command.owner.epoch ∨
    run.cancelRequested = true ∨ pending.expiredAt atTime = true

instance (command : StoreCommand) (run : RunRecord) (pending : HistoricalRequest)
    (atTime : JsString) : Decidable (resolutionBlocked command run pending atTime) := by
  unfold resolutionBlocked
  infer_instance

/-- A step of the request the run waits for. -/
def pendingStep (context : CommitContext) (run : RunRecord) (pending : HistoricalRequest)
    (atTime : JsString) : RequestStep → Result CommitContext
  | .resolutionIntended => do
      failWhen (resolutionBlocked context.command run pending atTime) .requestUnavailable
        "This request cannot accept a continuation intent."
      let context ← addOperation context .requestResolution atTime 1
        (some ⟨pending.requestId, pending.requestKind⟩)
      setRun context fun r =>
        { r with phase := .running,
                 pendingRequest := some { pending with state := .resolutionIntended } }
  | .resolved => do
      failWhen (pending.state ≠ .resolutionIntended) .requestUnavailable
        "Resolution requires its prior intent."
      setRun context fun r => { r with pendingRequest := some { pending with state := .resolved } }
  | _ => setRun context fun r =>
    { r with phase := if r.phase = .waiting then .running else r.phase,
             pendingRequest := some { pending with state := .unavailable } }

/-- A step of a request, before its receipt is written. -/
def requestStep (context : CommitContext) (run : RunRecord) (state : RequestStep)
    (request : HistoricalRequest) (atTime : JsString) : Result CommitContext :=
  if state = .opened then do
    failWhen (run.phase ≠ .running ∨ request.state ≠ .waiting ∨
        run.ownerEpoch ≠ context.command.owner.epoch)
      .requestUnavailable "Only the current active executor stream can open a waiting request."
    setRun context fun r => { r with phase := .waiting, pendingRequest := some request }
  else match run.pendingRequest with
    | none => .error (.operation .requestUnavailable
        (js "The exact historical request is unavailable."))
    | some pending => do
        failWhen (pending.requestId ≠ request.requestId ∨
            pending.requestKind ≠ request.requestKind)
          .requestUnavailable "The exact historical request is unavailable."
        pendingStep context run pending atTime state

def requestState (context : CommitContext) (state : RequestStep) (request : HistoricalRequest)
    (atTime : JsString) : Result CommitContext := do
  let run ← requireRun context
  let context ← requestStep context run state request atTime
  let run ← requireRun context
  pure { context with receipt := { context.receipt with status := run.phase.status } }

/-! ## Observations -/

/-- Does an observation exceed what may still be retained? -/
def observationOverflows (context : CommitContext) (run : RunRecord) (bytes : Nat) : Prop :=
  let limits := context.current.limits
  bytes > limits.maxObservationBytes ∨ run.observationCount ≥ limits.maxRunObservations ∨
    run.observationBytes + bytes > limits.maxRunObservationBytes ∨
    context.capacity.observationBytes + bytes > limits.maxRetainedObservationBytes

instance (context : CommitContext) (run : RunRecord) (bytes : Nat) :
    Decidable (observationOverflows context run bytes) := by
  unfold observationOverflows
  infer_instance

/-- The marker of the observations a run could not retain. -/
def omissionMarker (context : CommitContext) (run : RunRecord) (observation : TaskObservation)
    (omitted : Nat) : TaskObservation :=
  match context.current.omissionObservation with
  | some marker => { marker with omitted := some omitted }
  | none =>
    { storeId := context.current.options.storeId, taskId := run.taskId, runId := run.runId,
      index := observation.index, atTime := observation.atTime, kind := .omitted, phase := none,
      text := none, request := none, omitted := some omitted }

def observeRun (context : CommitContext) (observation : TaskObservation) :
    Result CommitContext := do
  let command := context.command
  let run ← requireRun context
  failWhen (run.phase = .queued ∨ run.phase = .settled ∨ run.ownerEpoch ≠ command.owner.epoch ∨
      observation.storeId ≠ context.current.options.storeId ∨ observation.taskId ≠ run.taskId ∨
      observation.runId ≠ run.runId ∨ observation.index ≠ run.observationIndex + 1 ∨
      observation.kind = .omitted)
    .staleRevision "Observation does not follow the live run's canonical index."
  let bytes := dataBytes observation
  let digest := delegationInputDigest (Data.json observation)
  if observationOverflows context run bytes then do
    let omitted := run.omittedObservations + 1
    let marker := omissionMarker context run observation omitted
    let context := { context with mutations := context.mutations ++ [.observation marker] }
    let context ← setRun context fun r =>
      { r with observationIndex := observation.index, omittedObservations := omitted,
               lastObservationDigest := some digest }
    pure { context with receipt := { context.receipt with status := .omitted } }
  else do
    let context := { context with mutations := context.mutations ++ [.observation observation] }
    let context ← setRun context fun r =>
      { r with observationIndex := observation.index,
               observationCount := run.observationCount + 1,
               observationBytes := run.observationBytes + bytes,
               lastObservationDigest := some digest }
    pure { context with capacity := { context.capacity with
      observationBytes := context.capacity.observationBytes + bytes } }

/-! ## Cancellation, settlement and retirement -/

/-- No provider work was ever intended for the run. -/
def RunRecord.untouched (run : RunRecord) : Prop :=
  run.phase = .queued ∧ run.preparation = .none ∧ run.dispatch = .none

instance (run : RunRecord) : Decidable run.untouched := by
  unfold RunRecord.untouched
  infer_instance

/-- A run nothing was intended for is settled by its cancellation. -/
def cancelUntouched (context : CommitContext) (run : RunRecord) (atTime : JsString) :
    Result CommitContext :=
  if run.untouched then settleRun context (.canceled .notDispatched) atTime else pure context

def cancelRun (context : CommitContext) (atTime : JsString) : Result CommitContext := do
  let run ← requireRun context
  if run.phase = .settled then
    addOperation { context with receipt := { context.receipt with status := .settled } }
      .cancel atTime 1 none
  else do
    let context ← setRun context fun r => { r with cancelRequested := true }
    let context ← cancelUntouched context run atTime
    addOperation context .cancel atTime 1 none

def settle (context : CommitContext) (outcome : RunOutcome) (atTime : JsString) :
    Result CommitContext := do
  let command := context.command
  let run ← requireRun context
  failWhen (outcome.terminalTruth = true ∧ run.phase ≠ .running ∧ run.phase ≠ .waiting)
    .staleRevision "Provider terminal truth requires a previously running turn."
  failWhen (outcome.isFailed = true ∧
      (run.preparation = .intended ∨ run.preparation = .uncertain) ∧ run.phase = .preparing)
    .recoveryRequired "An unresolved preparation intent has no definitive failure receipt."
  failWhen (outcome = .canceled .notDispatched ∧ ¬run.untouched) .staleRevision
    "An execution intent cannot be settled as never dispatched."
  failWhen (run.ownerEpoch ≠ command.owner.epoch ∧ outcome.isRecovery = false ∧ ¬run.untouched)
    .recoveryRequired "A new owner cannot reconstruct an old executor's terminal truth."
  settleRun context outcome atTime

def retireRecovery (context : CommitContext) (reason atTime : JsString) :
    Result CommitContext := do
  failWhen (context.task.state ≠ .recoveryRequired ∨
      context.current.runs.any (fun run => decide (run.phase ≠ .settled)) = true)
    .recoveryRequired "Only a fully settled recovery task can be retired."
  pure { context with
    task := { context.task with
      state := .retired, retiredAt := some atTime,
      retirement := some ⟨context.command.operationId, context.command.inputDigest, reason⟩ },
    receipt := { context.receipt with status := .retired } }

/-! ## Delivery bookkeeping -/

/-- The identities one delivery attempt uses. -/
structure AttemptIdentity where
  attemptId : JsString
  claimOperationId : JsString
  receiptOperationId : JsString

def deliveryAttemptIdentity (notificationId : JsString) (attempt : Nat) : AttemptIdentity :=
  let attemptId := delegationSubordinateId notificationId
    (js "delivery-attempt:" ++ natDecimal attempt)
  { attemptId, claimOperationId := delegationSubordinateId attemptId (js "claim"),
    receiptOperationId := delegationSubordinateId attemptId (js "receipt") }

/-- The two bookkeeping slots of a notification. -/
inductive DeliverySlot
  | claim | receipt
  deriving DecidableEq

def NotificationRecord.slot (notification : NotificationRecord) :
    DeliverySlot → Option DeliveryCommitRecord
  | .claim => notification.delivery.bind DeliveryBookkeeping.claim
  | .receipt => notification.delivery.bind DeliveryBookkeeping.receipt

def DeliverySlot.other : DeliverySlot → DeliverySlot
  | .claim => .receipt
  | .receipt => .claim

/-- The attempt a command of a slot is about. -/
def DeliverySlot.attempt (slot : DeliverySlot) (notification : NotificationRecord) : Nat :=
  match slot with
  | .claim => notification.attempts + 1
  | .receipt => notification.attempts

def AttemptIdentity.operationId (identity : AttemptIdentity) : DeliverySlot → JsString
  | .claim => identity.claimOperationId
  | .receipt => identity.receiptOperationId

def duplicateDelivery (command : StoreCommand) (current : CommitCurrent) (slot : DeliverySlot)
    (notificationId attemptId : JsString) : Result (Option CommitReceipt) :=
  match current.notification with
  | none => .error (.operation .staleRevision (js "The exact notification is unavailable."))
  | some notification => do
      failWhen (notification.envelope.notificationId ≠ notificationId ∨
          notification.envelope.taskId ≠ command.taskId ∨
          some notification.envelope.runId ≠ command.runId)
        .staleRevision "The exact notification is unavailable."
      failWhen ((notification.slot slot.other).any
          (fun other => decide (other.operationId = command.operationId)) = true)
        .operationConflict "Delivery operation identity belongs to the other bookkeeping slot."
      let retained? := (notification.slot slot).filter
        fun retained => decide (retained.operationId = command.operationId)
      match retained? with
      | some retained => do
          failWhen (retained.ownerEpoch ≠ command.owner.epoch) .staleRevision
            "The retained delivery command belongs to a previous owner."
          failWhen (retained.attemptId ≠ attemptId ∨ retained.inputDigest ≠ command.inputDigest ∨
              retained.commandDigest ≠ delegationInputDigest (Data.json command))
            .operationConflict "The current delivery identity has different committed input."
          pure (some { retained.receipt with duplicate := true })
      | none => do
          let attempt := slot.attempt notification
          failWhen (attempt > MAX_SAFE_INTEGER ∨ attempt < 1) .capacityExceeded
            "Delivery attempt ordinal is exhausted."
          let identity := deliveryAttemptIdentity notificationId attempt
          failWhen (attemptId ≠ identity.attemptId ∨
              command.operationId ≠ identity.operationId slot)
            .staleRevision
            "The delivery attempt has been superseded or is not the next canonical attempt."
          pure none

/-- The bookkeeping of the command that runs now. -/
def deliveryRecord (context : CommitContext) (attemptId : JsString) (attempt : Nat) :
    DeliveryCommitRecord :=
  { operationId := context.command.operationId, inputDigest := context.command.inputDigest,
    commandDigest := delegationInputDigest (Data.json context.command), attemptId, attempt,
    ownerEpoch := context.command.owner.epoch, receipt := context.receipt }

/-- Fill one bookkeeping slot. -/
def NotificationRecord.withSlot (notification : NotificationRecord) (slot : DeliverySlot)
    (record : DeliveryCommitRecord) : NotificationRecord :=
  { notification with
    delivery := match slot with
      | .claim => some ⟨some record, notification.slot .receipt⟩
      | .receipt => some ⟨notification.slot .claim, some record⟩ }

/-- The notification after a claim. -/
def claimNotification (context : CommitContext) (prior retained : NotificationRecord)
    (attempt : Nat) (attemptId atTime : JsString) : Result NotificationRecord := do
  failWhen (prior.state ≠ .pending) .staleRevision
    "Only a pending notification can begin a new delivery attempt."
  if notAfter prior.envelope.expiresAt atTime = true ∧ prior.reason ≠ some (js "uncertain") then
    pure { retained with retryAt := none, attempts := attempt, state := .expired,
                         reason := some (js "expired") }
  else do
    failWhen (prior.retryAt.any (fun retryAt => laterBy retryAt atTime 0) = true) .staleRevision
      "The notification retry is not yet eligible."
    pure { retained with attempts := attempt, state := .claimed,
                         claim := some ⟨context.command.owner.epoch, attemptId⟩ }

/-- The time after which a result asks for another attempt. -/
def DeliveryResult.retryAt? : DeliveryResult → Option JsString
  | .blocked _ retryAt => some retryAt
  | .uncertain retryAt => some retryAt
  | _ => none

def DeliveryResult.isUncertain : DeliveryResult → Bool
  | .uncertain _ => true
  | _ => false

/-- Is a retry one to thirty seconds away? -/
def retryWithin (retryAt atTime : JsString) : Bool :=
  match dateParse retryAt, dateParse atTime with
  | some x, some y =>
    let delay : Int := (x : Int) - y
    !(decide (delay < 1000) || decide (delay > 30000))
  | _, _ => true

/-- The notification after its attempt was answered. -/
def answerNotification (retained : NotificationRecord) (result : DeliveryResult) :
    NotificationRecord :=
  let withoutClaim := { retained with
    claim := none, retryAt := none, reason := none, inboxId := none, acceptedAt := none }
  match result with
  | .accepted inboxId acceptedAt =>
    { withoutClaim with state := .accepted, inboxId := some inboxId,
                        acceptedAt := some acceptedAt }
  | .blocked reason retryAt =>
    { withoutClaim with state := .pending, retryAt := some retryAt,
                        reason := some (js reason.name) }
  | .uncertain retryAt =>
    { withoutClaim with state := .pending, retryAt := some retryAt,
                        reason := some (js "uncertain") }
  | .ended status reason => { withoutClaim with state := status.state, reason := some reason }

/-- The notification after a receipt. -/
def receiptNotification (context : CommitContext) (prior retained : NotificationRecord)
    (attemptId : JsString) (result : DeliveryResult) (atTime : JsString) :
    Result NotificationRecord := do
  failWhen (prior.state ≠ .claimed ∨ prior.claim.all (fun c => decide (c.attemptId ≠ attemptId)) =
        true ∨
      (prior.claim.any (fun c => decide (c.ownerEpoch ≠ context.command.owner.epoch)) = true ∧
        result.isUncertain = false))
    .staleRevision "The receipt does not match this owner or the exact lost-owner claim."
  failWhen (result.retryAt?.any (fun retryAt => !retryWithin retryAt atTime) = true)
    .capacityExceeded "Delivery retry must be between one and thirty seconds."
  pure (answerNotification retained result)

/-- What the two delivery commands share. -/
def delivery (context : CommitContext) (slot : DeliverySlot) (notificationId : JsString)
    (expectedNotificationRevision : Nat) (attemptId : JsString)
    (next : CommitContext → NotificationRecord → NotificationRecord → Result NotificationRecord) :
    Result CommitContext :=
  match context.current.notification with
  | none => .error (.operation .staleRevision (js "The exact notification is unavailable."))
  | some prior => do
      failWhen (prior.revision ≠ expectedNotificationRevision ∨ prior.envelope.policy = .collect)
        .staleRevision "The exact eligible notification revision is unavailable."
      let context := { context with
        receipt := { context.receipt with notificationId := some notificationId } }
      let record := deliveryRecord context attemptId (slot.attempt prior)
      let retained := { prior.withSlot slot record with revision := prior.revision + 1 }
      let notification ← next context prior retained
      let notification ← parse NotificationRecord.schema notification
      pure { context with mutations := context.mutations ++ [.notification notification] }

def deliveryClaim (context : CommitContext) (notificationId : JsString)
    (expectedNotificationRevision : Nat) (attemptId atTime : JsString) : Result CommitContext :=
  delivery context .claim notificationId expectedNotificationRevision attemptId
    fun context prior retained =>
      claimNotification context prior retained (DeliverySlot.claim.attempt prior) attemptId atTime

def deliveryReceipt (context : CommitContext) (notificationId : JsString)
    (expectedNotificationRevision : Nat) (attemptId : JsString) (result : DeliveryResult)
    (atTime : JsString) : Result CommitContext :=
  delivery context .receipt notificationId expectedNotificationRevision attemptId
    fun context prior retained =>
      receiptNotification context prior retained attemptId result atTime

end AgentSdk.Delegation
