import AgentSdk.Delegation.Inversion

/-!
# What a commit can do

The transition relation of the store: every way in which a commit that repeats
no earlier command changes the rows, with the guards that admit it.  Invariants
are proved by cases over this relation; that every commit is one of its cases
is `commit_cases` in `Commit`.
-/

namespace AgentSdk.Delegation

open AgentSdk.Text AgentSdk.Calendar AgentSdk.Outcome

variable [Platform]

/-! ## Effects -/

/-- The rows a commit writes, and its receipt.  The state of the task row is
derived when the effect is applied. -/
structure Effect where
  task : TaskRecord
  run : Option RunRecord
  capacity : Capacity
  operation : Option OperationRecord := none
  observation : Option TaskObservation := none
  notification : Option NotificationRecord := none
  ceiling : Option PolicyCeiling := none
  receipt : CommitReceipt

/-- The runs of one task. -/
def runsOf (runs : Table RunRecord.runId) (taskId : JsString) : List RunRecord :=
  runs.rows.filter fun run => decide (run.taskId = taskId)

/-- The runs after an effect. -/
def Effect.runs (e : Effect) (s : Store) : Table RunRecord.runId := s.runs.putOption e.run

/-- The task row after an effect. -/
def Effect.finalTask (e : Effect) (s : Store) : TaskRecord :=
  { e.task with
    state := if e.task.state = .retired then .retired
      else runsState (runsOf (e.runs s) e.task.taskId) }

/-- The store after an effect. -/
def Store.apply (s : Store) (e : Effect) : Store :=
  { s with
    capacity := e.capacity, tasks := s.tasks.put (e.finalTask s), runs := e.runs s,
    operations := s.operations.putOption e.operation,
    observations := s.observations.putOption e.observation,
    notifications := s.notifications.putOption e.notification,
    ceilings := s.ceilings.putOption e.ceiling }

/-! ## Parts of a transition -/

/-- The row of an operation recorded by a commit with the given receipt. -/
def recordedOperation (command : StoreCommand) (task : TaskRecord) (runId : JsString)
    (kind : OperationKind) (atTime : JsString) (request : Option RequestIdentity)
    (receipt : CommitReceipt) : OperationRecord :=
  { operationRow command task receipt runId kind atTime 1 request with receipt }

/-- No operation is retained under the identity of a command of this task. -/
def Store.operationFree (s : Store) (task : TaskRecord) (command : StoreCommand) : Prop :=
  s.operations.get (operationKey task.parent command.operationId) = none

/-- The run has no operation of a kind. -/
def Store.slotFree (s : Store) (runId : JsString) (kind : OperationKind) : Prop :=
  ∀ operation ∈ s.operations.rows, operation.runId = runId → operation.kind ≠ kind

/-- An ordinary operation still fits both ledgers. -/
def Store.ledgerOpen (s : Store) (options : StoreOptions) (run : RunRecord)
    (kind : OperationKind) : Prop :=
  kind.critical = false →
    run.ordinaryOperationCount < options.limits.maxOrdinaryOperationsPerRun ∧
      s.capacity.ordinaryOperations < options.limits.maxOrdinaryOperations

section Change

variable (options : StoreOptions) (s : Store) (command : StoreCommand)
  (task : TaskRecord) (run : RunRecord)

/-- How a first intent enters: the guard of its kind and the run it leaves. -/
inductive Entered (target : Option TargetReference) : OperationKind → RunRecord → Prop
  | prepare (hphase : run.phase = .queued) (hdispatch : run.dispatch = .none)
      (halone : ∀ other ∈ s.runs.rows, other.taskId = command.taskId → other.runId ≠ run.runId →
        other.phase = .queued ∨ other.phase = .settled)
      (hroom : s.capacity.activeRuns < options.limits.maxActiveRuns) :
      Entered target .prepare { run.next with
        phase := .preparing, preparation := .intended, ownerEpoch := command.owner.epoch }
  | turn (hphase : run.phase = .preparing) (hpreparation : run.preparation = .completed)
      (hdispatch : run.dispatch = .none) (htarget : target = some run.admittedTarget) :
      Entered target .turn { run.next with
        phase := .running, dispatch := .intended, appliedTarget := target }
  | configure (hphase : run.phase = .preparing) : Entered target .configure run.next
  | steer (hphase : run.phase = .running) : Entered target .steer run.next
  | interrupt (hqueued : run.phase ≠ .queued) (hsettled : run.phase ≠ .settled)
      (hcancel : run.cancelRequested = true) : Entered target .interrupt run.next
  | sessionClose : Entered target .sessionClose run.next
  | bindingCleanup (hclose : ∃ operation ∈ s.operations.rows, operation.runId = run.runId ∧
      operation.kind = .sessionClose) : Entered target .bindingCleanup run.next

/-- How a receipt reaches the pending request of its run. -/
inductive Answered (prior : OperationRecord) (disposition : Disposition)
    (eligibility : Option Eligibility) : RunRecord → ReceiptStatus → Prop
  | plain (hkind : prior.kind ≠ .requestResolution) :
      Answered prior disposition eligibility run.next .recorded
  | elsewhere (identity : RequestIdentity) (hkind : prior.kind = .requestResolution)
      (hidentity : prior.request = some identity)
      (hother : ∀ pending ∈ run.pendingRequest,
        ¬(pending.requestId = identity.requestId ∧ pending.requestKind = identity.requestKind)) :
      Answered prior disposition eligibility run.next run.phase.status
  | pending (identity : RequestIdentity) (request : HistoricalRequest) (phase : RunPhase)
      (hkind : prior.kind = .requestResolution) (hidentity : prior.request = some identity)
      (hrequest : run.pendingRequest = some request)
      (hmatch : request.requestId = identity.requestId ∧
        request.requestKind = identity.requestKind)
      (hstate : request.state = .resolutionIntended ∨ request.state = .unavailable)
      (hphase : phase = if run.phase = .settled then .settled
        else if answeredState request.state disposition eligibility = .waiting then .waiting
        else .running) :
      Answered prior disposition eligibility
        { run.next with
          phase, pendingRequest := some { request with
            state := answeredState request.state disposition eligibility } } phase.status

/-- How a request step moves the run. -/
inductive Requested (request : HistoricalRequest) : RequestStep → RunRecord → Prop
  | opened (hphase : run.phase = .running) (hwaiting : request.state = .waiting)
      (hepoch : run.ownerEpoch = command.owner.epoch) :
      Requested request .opened { run.next with phase := .waiting, pendingRequest := some request }
  | resolved (pending : HistoricalRequest) (hpending : run.pendingRequest = some pending)
      (hmatch : pending.requestId = request.requestId ∧ pending.requestKind = request.requestKind)
      (hstate : pending.state = .resolutionIntended) :
      Requested request .resolved
        { run.next with pendingRequest := some { pending with state := .resolved } }
  | unavailable (pending : HistoricalRequest) (hpending : run.pendingRequest = some pending)
      (hmatch : pending.requestId = request.requestId ∧
        pending.requestKind = request.requestKind) :
      Requested request .unavailable
        { run.next with
          phase := if run.phase = .waiting then .running else run.phase,
          pendingRequest := some { pending with state := .unavailable } }

/-- The envelope of a settlement at a time. -/
def settlementEnvelope (outcome : RunOutcome) (atTime expiresAt : JsString) : CompletionEnvelope :=
  completionEnvelope options task.next run (finalOutcome run outcome) atTime expiresAt

/-- The bookkeeping a delivery command leaves behind. -/
def deliveryEntry (notificationId attemptId : JsString) (attempt : Nat) : DeliveryCommitRecord :=
  { operationId := command.operationId, inputDigest := command.inputDigest,
    commandDigest := delegationInputDigest (Data.json command), attemptId, attempt,
    ownerEpoch := command.owner.epoch,
    receipt := { baseReceipt command task.next (some run.next) with
      notificationId := some notificationId } }

/-- The notification with the bookkeeping of a delivery command, one revision
later. -/
def retainedNotification (slot : DeliverySlot) (prior : NotificationRecord)
    (notificationId attemptId : JsString) : NotificationRecord :=
  { prior.withSlot slot
      (deliveryEntry command task run notificationId attemptId (slot.attempt prior)) with
    revision := prior.revision + 1 }

/-- The notification a delivery command is about, and the fences it passed. -/
structure Deliverable (slot : DeliverySlot) (notificationId attemptId : JsString)
    (revision : Nat) (prior : NotificationRecord) : Prop where
  retained : s.notifications.get notificationId = some prior
  taskId : prior.envelope.taskId = command.taskId
  runId : prior.envelope.runId = run.runId
  other : ∀ record ∈ prior.slot slot.other, record.operationId ≠ command.operationId
  latest : ∀ record ∈ prior.slot slot, record.operationId ≠ command.operationId
  ordinal : 1 ≤ slot.attempt prior ∧ slot.attempt prior ≤ MAX_SAFE_INTEGER
  attemptId : attemptId =
    (deliveryAttemptIdentity notificationId (slot.attempt prior)).attemptId
  operationId : command.operationId =
    (deliveryAttemptIdentity notificationId (slot.attempt prior)).operationId slot
  revision : prior.revision = revision
  policy : prior.envelope.policy ≠ .collect

/-- How a claim moves its notification. -/
inductive Claimed (notificationId attemptId atTime : JsString) (prior : NotificationRecord) :
    NotificationRecord → Prop
  | expired (hexpired : notAfter prior.envelope.expiresAt atTime = true)
      (hreason : prior.reason ≠ some (js "uncertain")) :
      Claimed notificationId attemptId atTime prior
        { retainedNotification command task run .claim prior notificationId attemptId with
          retryAt := none, attempts := prior.attempts + 1, state := .expired,
          reason := some (js "expired") }
  | claimed (hlive : ¬(notAfter prior.envelope.expiresAt atTime = true ∧
        prior.reason ≠ some (js "uncertain")))
      (hretry : ∀ retryAt ∈ prior.retryAt, laterBy retryAt atTime 0 = false) :
      Claimed notificationId attemptId atTime prior
        { retainedNotification command task run .claim prior notificationId attemptId with
          attempts := prior.attempts + 1, state := .claimed,
          claim := some ⟨command.owner.epoch, attemptId⟩ }

/-- **How a command moves an existing run** and what else it writes. -/
inductive Change : Effect → Prop
  | retryCleanup (kind : OperationKind) (atTime : JsString) (target : Option TargetReference)
      (prior : OperationRecord)
      (hbody : command.body = .dispatchIntent kind atTime target (some 2))
      (hkind : kind = .sessionClose ∨ kind = .bindingCleanup)
      (hepoch : run.ownerEpoch = command.owner.epoch)
      (hprior : prior ∈ s.operations.rows) (hrun : prior.runId = run.runId)
      (hsame : prior.kind = kind) (hfirst : prior.attempts = 1)
      (hdisposition : prior.disposition = .rejected ∨ prior.disposition = .uncertain)
      (hid : prior.operationId = command.operationId)
      (hdigest : prior.inputDigest = command.inputDigest) :
      Change
        { task := task.next, run := some run.next, capacity := s.capacity,
          operation := some { prior with
            attempts := 2, disposition := .intent, atTime, ownerEpoch := command.owner.epoch,
            receipt := baseReceipt command task.next (some run.next) },
          receipt := baseReceipt command task.next (some run.next) }
  | intent (kind : OperationKind) (atTime : JsString) (target : Option TargetReference)
      (attempt : Option Nat) (run' : RunRecord) (receipt : CommitReceipt)
      (hbody : command.body = .dispatchIntent kind atTime target attempt)
      (hepoch : run.ownerEpoch = command.owner.epoch ∨ kind = .prepare)
      (hslot : kind.critical = true → s.slotFree run.runId kind)
      (hattempt : attempt.getD 1 = 1)
      (hlive : kind.critical = false → task.state ≠ .retired ∧ task.state ≠ .recoveryRequired ∧
        run.cancelRequested = false)
      (hentered : Entered options s command run target kind run')
      (hledger : s.ledgerOpen options run kind) (hfree : s.operationFree task command)
      (hreceipt : receipt = { baseReceipt command task.next (some run.next) with
        status := run'.phase.status }) :
      Change
        { task := task.next, run := some (run'.countOperation kind),
          capacity := (s.capacity.moveRun run.phase run'.phase).countOperation kind,
          operation := some (recordedOperation command task run.runId kind atTime none receipt),
          receipt }
  | receipt (disposition : Disposition) (atTime : JsString) (message : Option JsString)
      (eligibility : Option Eligibility) (prior : OperationRecord) (run' : RunRecord)
      (status : ReceiptStatus) (receipt : CommitReceipt)
      (hbody : command.body = .operationReceipt disposition atTime message eligibility)
      (hprior : s.operations.get (operationKey task.parent command.operationId) = some prior)
      (htask : prior.taskId = command.taskId) (hrun : prior.runId = run.runId)
      (hdigest : prior.inputDigest = command.inputDigest)
      (hdisposition : disposition ∈ receiptDispositions prior.kind)
      (hchange : prior.disposition ≠ disposition)
      (heligibility : decide (prior.kind = .requestResolution ∧ disposition = .rejected) =
        eligibility.isSome)
      (hopen : prior.disposition ≠ .delivered ∧ prior.disposition ≠ .rejected ∧
        prior.disposition ≠ .completed ∧
        ¬(prior.kind = .requestResolution ∧ prior.disposition = .uncertain))
      (hepoch : prior.ownerEpoch = command.owner.epoch)
      (hcleanup : prior.kind = .bindingCleanup → disposition = .completed →
        ∃ operation ∈ s.operations.rows, operation.runId = run.runId ∧
          operation.kind = .sessionClose ∧ operation.disposition = .completed)
      (hanswered : Answered run prior disposition eligibility run' status)
      (hreceipt : receipt = { baseReceipt command task.next (some run.next) with status }) :
      Change
        { task := task.next, run := some (settleIntent prior.kind disposition run'),
          capacity := s.capacity.moveRun run.phase run'.phase,
          operation := some { prior with
            disposition, atTime,
            requestState := if eligibility.isSome then eligibility else prior.requestState,
            message := if message.any (fun m => decide (m ≠ [])) then message else prior.message,
            receipt },
          receipt }
  | observe (observation : TaskObservation) (hbody : command.body = .observe observation)
      (hqueued : run.phase ≠ .queued) (hsettled : run.phase ≠ .settled)
      (hepoch : run.ownerEpoch = command.owner.epoch)
      (hstore : observation.storeId = options.storeId) (htask : observation.taskId = run.taskId)
      (hrun : observation.runId = run.runId) (hindex : observation.index = run.observationIndex + 1)
      (hkind : observation.kind ≠ .omitted)
      (hfits : dataBytes observation ≤ options.limits.maxObservationBytes ∧
        run.observationCount < options.limits.maxRunObservations ∧
        run.observationBytes + dataBytes observation ≤ options.limits.maxRunObservationBytes ∧
        s.capacity.observationBytes + dataBytes observation ≤
          options.limits.maxRetainedObservationBytes) :
      Change
        { task := task.next,
          run := some { run.next with
            observationIndex := observation.index, observationCount := run.observationCount + 1,
            observationBytes := run.observationBytes + dataBytes observation,
            lastObservationDigest := some (delegationInputDigest (Data.json observation)) },
          capacity := { s.capacity with
            observationBytes := s.capacity.observationBytes + dataBytes observation },
          observation := some observation,
          receipt := baseReceipt command task.next (some run.next) }
  | overflow (observation marker : TaskObservation) (hbody : command.body = .observe observation)
      (hqueued : run.phase ≠ .queued) (hsettled : run.phase ≠ .settled)
      (hepoch : run.ownerEpoch = command.owner.epoch)
      (hstore : observation.storeId = options.storeId) (htask : observation.taskId = run.taskId)
      (hrun : observation.runId = run.runId) (hindex : observation.index = run.observationIndex + 1)
      (hkind : observation.kind ≠ .omitted)
      (hmarker : (∃ old ∈ s.observations.rows, old.runId = run.runId ∧ old.kind = .omitted ∧
          marker = { old with omitted := some (run.omittedObservations + 1) }) ∨
        ((∀ o ∈ s.observations.rows, o.runId = run.runId → o.kind ≠ .omitted) ∧
          marker = { storeId := options.storeId, taskId := run.taskId, runId := run.runId,
                     index := observation.index, atTime := observation.atTime, kind := .omitted,
                     phase := none, text := none, request := none,
                     omitted := some (run.omittedObservations + 1) })) :
      Change
        { task := task.next,
          run := some { run.next with
            observationIndex := observation.index,
            omittedObservations := run.omittedObservations + 1,
            lastObservationDigest := some (delegationInputDigest (Data.json observation)) },
          capacity := s.capacity, observation := some marker,
          receipt := { baseReceipt command task.next (some run.next) with status := .omitted } }
  | request (state : RequestStep) (request : HistoricalRequest) (atTime : JsString)
      (run' : RunRecord) (hbody : command.body = .requestState state request atTime)
      (hrequested : Requested command run request state run') :
      Change
        { task := task.next, run := some run',
          capacity := s.capacity.moveRun run.phase run'.phase,
          receipt := { baseReceipt command task.next (some run.next) with
            status := run'.phase.status } }
  | resolution (request pending : HistoricalRequest) (atTime : JsString) (receipt : CommitReceipt)
      (hbody : command.body = .requestState .resolutionIntended request atTime)
      (hpending : run.pendingRequest = some pending)
      (hmatch : pending.requestId = request.requestId ∧ pending.requestKind = request.requestKind)
      (hphase : run.phase = .waiting) (hstate : pending.state = .waiting)
      (hepoch : run.ownerEpoch = command.owner.epoch) (hcancel : run.cancelRequested = false)
      (hlive : pending.expiredAt atTime = false)
      (hledger : s.ledgerOpen options run .requestResolution)
      (hfree : s.operationFree task command)
      (hreceipt : receipt = { baseReceipt command task.next (some run.next) with
        status := .running }) :
      Change
        { task := task.next,
          run := some { run.next.countOperation .requestResolution with
            phase := .running,
            pendingRequest := some { pending with state := .resolutionIntended } },
          capacity := s.capacity.countOperation .requestResolution,
          operation := some (recordedOperation command task run.runId .requestResolution atTime
            (some ⟨pending.requestId, pending.requestKind⟩) receipt),
          receipt }
  | cancelSettled (atTime reason : JsString) (receipt : CommitReceipt)
      (hbody : command.body = .cancel atTime reason) (hphase : run.phase = .settled)
      (hslot : s.slotFree run.runId .cancel) (hfree : s.operationFree task command)
      (hreceipt : receipt = { baseReceipt command task.next (some run.next) with
        status := .settled }) :
      Change
        { task := task.next, run := some run.next, capacity := s.capacity,
          operation := some (recordedOperation command task run.runId .cancel atTime none receipt),
          receipt }
  | cancelPending (atTime reason : JsString) (receipt : CommitReceipt)
      (hbody : command.body = .cancel atTime reason) (hphase : run.phase ≠ .settled)
      (htouched : ¬run.untouched)
      (hslot : s.slotFree run.runId .cancel) (hfree : s.operationFree task command)
      (hreceipt : receipt = baseReceipt command task.next (some run.next)) :
      Change
        { task := task.next, run := some { run.next with cancelRequested := true },
          capacity := s.capacity,
          operation := some (recordedOperation command task run.runId .cancel atTime none receipt),
          receipt }
  | cancelQueued (atTime reason expiresAt : JsString) (receipt : CommitReceipt)
      (hbody : command.body = .cancel atTime reason) (huntouched : run.untouched)
      (hslot : s.slotFree run.runId .cancel) (hfree : s.operationFree task command)
      (houtcome : run.outcome = none)
      (hexpiry : expiryText atTime options.limits.notificationTtlMs = .ok expiresAt)
      (hschema : (settlementEnvelope options task run (.canceled .notDispatched) atTime
        expiresAt).schema = true)
      (hreceipt : receipt = { baseReceipt command task.next (some run.next) with
        status := .settled, notificationId := some (notificationIdOf run.runId) }) :
      Change
        { task := task.next,
          run := some ({ run.next with cancelRequested := true }.finish command task.next
            (finalOutcome run (.canceled .notDispatched)) atTime),
          capacity := s.capacity.moveRun run.phase .settled,
          operation := some (recordedOperation command task run.runId .cancel atTime none receipt),
          notification := some (completionNotification
            (settlementEnvelope options task run (.canceled .notDispatched) atTime expiresAt)),
          receipt }
  | settle (outcome : RunOutcome) (atTime expiresAt : JsString)
      (hbody : command.body = .settle outcome atTime)
      (hunfinal : run.finalization = none) (houtcome : run.outcome = none)
      (hterminal : outcome.terminalTruth = true → run.phase = .running ∨ run.phase = .waiting)
      (hfailed : outcome.isFailed = true → run.phase = .preparing →
        run.preparation ≠ .intended ∧ run.preparation ≠ .uncertain)
      (hundispatched : outcome = .canceled .notDispatched → run.untouched)
      (hepoch : run.ownerEpoch = command.owner.epoch ∨ outcome.isRecovery = true ∨ run.untouched)
      (hexpiry : expiryText atTime options.limits.notificationTtlMs = .ok expiresAt)
      (hschema : (settlementEnvelope options task run outcome atTime expiresAt).schema = true) :
      Change
        { task := task.next,
          run := some (run.next.finish command task.next (finalOutcome run outcome) atTime),
          capacity := s.capacity.moveRun run.phase .settled,
          notification := some (completionNotification
            (settlementEnvelope options task run outcome atTime expiresAt)),
          receipt := { baseReceipt command task.next (some run.next) with
            status := .settled, notificationId := some (notificationIdOf run.runId) } }
  | claim (notificationId attemptId atTime : JsString) (revision : Nat)
      (prior notification : NotificationRecord)
      (hbody : command.body = .deliveryClaim notificationId revision attemptId atTime)
      (hdeliverable : Deliverable s command run .claim notificationId attemptId revision prior)
      (hstate : prior.state = .pending)
      (hclaimed : Claimed command task run notificationId attemptId atTime prior notification)
      (hschema : notification.schema = true) :
      Change
        { task := task.next, run := some run.next, capacity := s.capacity,
          notification := some notification,
          receipt := { baseReceipt command task.next (some run.next) with
            notificationId := some notificationId } }
  | answer (notificationId attemptId atTime : JsString) (revision : Nat) (result : DeliveryResult)
      (prior notification : NotificationRecord) (held : DeliveryClaim)
      (hbody : command.body = .deliveryReceipt notificationId revision attemptId result atTime)
      (hdeliverable : Deliverable s command run .receipt notificationId attemptId revision prior)
      (hstate : prior.state = .claimed) (hheld : prior.claim = some held)
      (hattempt : held.attemptId = attemptId)
      (howner : held.ownerEpoch = command.owner.epoch ∨ result.isUncertain = true)
      (hretry : ∀ retryAt ∈ result.retryAt?, retryWithin retryAt atTime = true)
      (hnotification : notification = answerNotification
        (retainedNotification command task run .receipt prior notificationId attemptId) result)
      (hschema : notification.schema = true) :
      Change
        { task := task.next, run := some run.next, capacity := s.capacity,
          notification := some notification,
          receipt := { baseReceipt command task.next (some run.next) with
            notificationId := some notificationId } }

end Change

/-! ## Admission and retirement -/

/-- The task row after an admission. -/
def admitTask (task : TaskRecord) (admission : RunAdmission) (runCount : Nat) : TaskRecord :=
  { task with latestRunId := admission.runId, runCount }

section Whole

variable (options : StoreOptions) (s : Store) (command : StoreCommand)

/-- What every admission passes. -/
structure Admissible (admission : RunAdmission) : Prop where
  fresh : s.runs.get admission.runId = none
  depth : admission.depth ≤ options.limits.maxDepth
  inputBytes : dataBytes admission.input ≤ options.limits.maxInputBytes
  characters : admission.input.textCharacters ≤ options.limits.maxInputTextCharacters
  target : admission.target ∈ admission.policyCeiling.targets
  ceiling : ∀ ceiling ∈ s.ceilings.get admission.policyCeiling.ceilingId,
    same ceiling admission.policyCeiling = true
  free : s.operations.get (operationKey admission.parent command.operationId) = none
  runs : s.capacity.runs < options.limits.maxRuns
  queued : s.capacity.queuedRuns < options.limits.maxQueuedRuns

/-- The bytes an admission retains: its input and, under a new digest, its
ceiling. -/
def admissionBytes (admission : RunAdmission) : Nat :=
  dataBytes admission.input +
    if (s.ceilings.get admission.policyCeiling.ceilingId).isSome then 0
    else dataBytes admission.policyCeiling

/-- The ceiling an admission retains. -/
def admissionCeiling (admission : RunAdmission) : Option PolicyCeiling :=
  if (s.ceilings.get admission.policyCeiling.ceilingId).isSome then none
  else some admission.policyCeiling

/-- The counters after an admission. -/
def admissionCapacity (admission : RunAdmission) (newTasks : Int) : Capacity :=
  { s.capacity with
    tasks := s.capacity.tasks + newTasks, runs := s.capacity.runs + 1,
    queuedRuns := s.capacity.queuedRuns + 1,
    retainedInputBytes := s.capacity.retainedInputBytes + admissionBytes s admission,
    ordinaryOperations := s.capacity.ordinaryOperations + 1,
    reservedBytes := s.capacity.reservedBytes + DELEGATION_RUN_RESERVATION_BYTES,
    criticalSlots := s.capacity.criticalSlots + DELEGATION_CRITICAL_SLOTS }

/-- What a continuation requires of its task and of the run it follows. -/
structure Continues (admission : RunAdmission) (task : TaskRecord) (previous : RunRecord) :
    Prop where
  retained : previous ∈ s.runs.rows ∧ previous.taskId = command.taskId
  named : admission.previousRunId = some previous.runId ∧ command.runId = some previous.runId
  revision : command.expectedRunRevision = some previous.revision
  nextTurn : admission.continuationMode = some .nextTurn →
    previous.phase = .running ∧ previous.cancelRequested = false
  followUp : admission.continuationMode = some .followUp →
    previous.phase = .settled ∧ previous.outcome.any RunOutcome.isRecovery = false
  state : task.state ≠ .retired ∧ task.state ≠ .recoveryRequired
  parent : admission.parent = task.parent
  depth : task.depth = admission.depth
  ceiling : task.policyCeilingRef = admission.policyCeiling.ceilingId
  policy : task.completionPolicy = admission.completionPolicy
  ancestor : task.ancestorTaskId = admission.ancestorTaskId
  latest : previous.runId = task.latestRunId
  idle : ∀ run ∈ s.runs.rows, run.taskId = command.taskId →
    run.phase ≠ .queued ∧ run.phase ≠ .waiting
  room : task.runCount < options.limits.maxRunsPerTask

/-- The effect of an admission. -/
def admissionEffect (admission : RunAdmission) (task : TaskRecord) (runCount : Nat)
    (newTasks : Int) (receipt : CommitReceipt) : Effect :=
  { task := admitTask task admission runCount,
    run := some ((admittedRun command admission runCount).countOperation .admitRun),
    capacity := admissionCapacity s admission newTasks,
    operation := some (recordedOperation command task admission.runId .admitRun admission.createdAt
      none receipt),
    ceiling := admissionCeiling s admission, receipt }

/-- The receipt of an admission. -/
def admissionReceipt (admission : RunAdmission) (task : TaskRecord) : CommitReceipt :=
  { duplicate := false, status := .queued, taskId := task.taskId, taskRevision := task.revision,
    runId := some admission.runId, runRevision := some 1,
    operationId := some command.operationId }

/-- **Every way a commit changes the store.** -/
inductive Transition : Effect → Prop
  | admitTask (admission : RunAdmission) (receipt : CommitReceipt)
      (hbody : command.body = .admitRun admission) (htask : s.tasks.get command.taskId = none)
      (hfirst : admission.previousRunId = none)
      (hadmissible : Admissible options s command admission)
      (hroom : s.capacity.tasks < options.limits.maxTasks)
      (hbytes : s.capacity.retainedInputBytes + admissionBytes s admission ≤
        options.limits.maxRetainedInputBytes)
      (hledger : s.capacity.ordinaryOperations < options.limits.maxOrdinaryOperations)
      (hreceipt : receipt = admissionReceipt command admission
        (admittedTask options command.taskId admission)) :
      Transition (admissionEffect s command admission
        (admittedTask options command.taskId admission) 1 1 receipt)
  | continueTask (admission : RunAdmission) (task : TaskRecord) (previous : RunRecord)
      (receipt : CommitReceipt)
      (hbody : command.body = .admitRun admission) (htask : s.tasks.get command.taskId = some task)
      (hrevision : command.expectedTaskRevision = task.revision)
      (hcontinues : Continues options s command admission task previous)
      (hadmissible : Admissible options s command admission)
      (hbytes : s.capacity.retainedInputBytes + admissionBytes s admission ≤
        options.limits.maxRetainedInputBytes)
      (hledger : s.capacity.ordinaryOperations < options.limits.maxOrdinaryOperations)
      (hreceipt : receipt = admissionReceipt command admission task.next) :
      Transition (admissionEffect s command admission task.next (task.runCount + 1) 0 receipt)
  | act (task : TaskRecord) (run : RunRecord) (e : Effect)
      (htask : s.tasks.get command.taskId = some task) (hrun : run ∈ s.runs.rows)
      (htaskId : run.taskId = command.taskId) (hnamed : command.runId = some run.runId)
      (hrevision : command.expectedTaskRevision = task.revision)
      (hrunRevision : command.expectedRunRevision = some run.revision)
      (hchange : Change options s command task run e) : Transition e
  | retire (reason atTime : JsString) (task : TaskRecord) (run : Option RunRecord)
      (receipt : CommitReceipt)
      (hbody : command.body = .retireRecovery reason atTime)
      (htask : s.tasks.get command.taskId = some task)
      (hrevision : command.expectedTaskRevision = task.revision)
      (hrun : ∀ r ∈ run, r ∈ s.runs.rows ∧ r.taskId = command.taskId ∧
        command.runId = some r.runId)
      (hstate : task.state = .recoveryRequired)
      (hsettled : ∀ r ∈ s.runs.rows, r.taskId = command.taskId → r.phase = .settled)
      (hreceipt : receipt = { baseReceipt command task.next (run.map RunRecord.next) with
        status := .retired }) :
      Transition
        { task := { task.next with
            state := .retired, retiredAt := some atTime,
            retirement := some ⟨command.operationId, command.inputDigest, reason⟩ },
          run := run.map RunRecord.next, capacity := s.capacity, receipt }

end Whole

end AgentSdk.Delegation
