import AgentSdk.Delegation.Commands

/-!
# Command-local transitions

The working copy one commit operates on, and the helpers its handlers share.
-/

namespace AgentSdk.Delegation

open AgentSdk.Text AgentSdk.Calendar AgentSdk.Outcome

/-! ## The working copy -/

/-- What a commit reads from the store. -/
structure CommitCurrent where
  options : StoreOptions
  owner : Option OwnerToken
  capacity : Capacity
  task : Option TaskRecord
  runs : List RunRecord
  operation : Option OperationRecord
  criticalOperations : List OperationRecord
  notification : Option NotificationRecord
  ceiling : Option PolicyCeiling
  observation : Option TaskObservation
  omissionObservation : Option TaskObservation
  runIdExists : Bool

/-- One row a commit writes. -/
inductive RowMutation
  | task (value : TaskRecord)
  | run (value : RunRecord)
  | operation (value : OperationRecord)
  | observation (value : TaskObservation)
  | notification (value : NotificationRecord)
  | ceiling (value : PolicyCeiling)
  | capacity (value : Capacity)

structure CommitContext where
  command : StoreCommand
  current : CommitCurrent
  task : TaskRecord
  run : Option RunRecord
  capacity : Capacity
  mutations : List RowMutation
  receipt : CommitReceipt

def CommitCurrent.limits (current : CommitCurrent) : Limits := current.options.limits

/-- Is one date not after another?  No comparison holds of a date that is
none. -/
def notAfter (a b : JsString) : Bool :=
  match dateParse a, dateParse b with
  | some x, some y => decide (x ≤ y)
  | _, _ => false

/-- Is one date later than another by more than a number of milliseconds? -/
def laterBy (a b : JsString) (ms : Nat) : Bool :=
  match dateParse a, dateParse b with
  | some x, some y => decide ((x : Int) - y > ms)
  | _, _ => false

/-! ## Helpers -/

def requireRun (context : CommitContext) : Result RunRecord :=
  match context.run with
  | some run => pure run
  | none => .error (.operation .staleRevision (js "The exact task run is unavailable."))

/-- The counters after a run changed its phase. -/
def Capacity.moveRun (capacity : Capacity) (prior run : RunPhase) : Capacity :=
  let capacity := if prior = .queued ∧ run ≠ .queued then
      { capacity with queuedRuns := capacity.queuedRuns - 1,
                      activeRuns := capacity.activeRuns + if run = .settled then 0 else 1 }
    else capacity
  if prior ≠ .queued ∧ prior ≠ .settled ∧ run = .settled then
    { capacity with activeRuns := capacity.activeRuns - 1 }
  else capacity

/-- Change the run and move the counters with its phase. -/
def setRun (context : CommitContext) (change : RunRecord → RunRecord) : Result CommitContext := do
  let prior ← requireRun context
  let run := change prior
  pure { context with capacity := context.capacity.moveRun prior.phase run.phase, run := some run }

/-- The row of an operation recorded now. -/
def operationRow (command : StoreCommand) (task : TaskRecord) (receipt : CommitReceipt)
    (runId : JsString) (kind : OperationKind) (atTime : JsString) (attempt : Nat)
    (request : Option RequestIdentity) : OperationRecord :=
  { operationId := command.operationId, parent := task.parent, taskId := task.taskId, runId, kind,
    inputDigest := command.inputDigest, ownerEpoch := command.owner.epoch,
    disposition := if kind = .admitRun ∨ kind = .cancel then .completed else .intent,
    attempts := attempt, atTime, message := none, request, requestState := none,
    receipt := { receipt with operationId := some command.operationId } }

def addOperation (context : CommitContext) (kind : OperationKind) (atTime : JsString)
    (attempt : Nat) (request : Option RequestIdentity) : Result CommitContext := do
  let run ← requireRun context
  let limits := context.current.limits
  let context ← if kind.critical then pure context else do
    failWhen (run.ordinaryOperationCount ≥ limits.maxOrdinaryOperationsPerRun ∨
        context.capacity.ordinaryOperations ≥ limits.maxOrdinaryOperations)
      .capacityExceeded "The ordinary operation ledger is full."
    let context ← setRun context fun r =>
      { r with ordinaryOperationCount := run.ordinaryOperationCount + 1 }
    pure { context with capacity := { context.capacity with
      ordinaryOperations := context.capacity.ordinaryOperations + 1 } }
  let operation := operationRow context.command context.task context.receipt run.runId kind atTime
    attempt request
  let bytes ← delegationDataBytes (Data.json operation)
  failWhen (bytes > DELEGATION_CRITICAL_SLOT_BYTES) .capacityExceeded
    "Operation exceeds its fixed ledger slot."
  pure { context with mutations := context.mutations ++ [.operation operation] }

/-- The date a number of milliseconds after another one. -/
def expiryText (atTime : JsString) (ms : Nat) : Result JsString :=
  match dateParse atTime with
  | some t => pure (isoText (t + ms))
  | none => .error .range

/-- The outcome a settlement records: a recovery reason overrides the outcome
asked for. -/
def finalOutcome (run : RunRecord) (requested : RunOutcome) : RunOutcome :=
  match run.recoveryReason with
  | some reason => .recoveryRequired reason
  | none => requested

/-- The identity of the notification of a run. -/
def notificationIdOf [Platform] (runId : JsString) : JsString :=
  delegationSubordinateId runId (js "notification")

/-- What a settled run reports to its parent. -/
def completionEnvelope [Platform] (options : StoreOptions) (task : TaskRecord) (run : RunRecord)
    (outcome : RunOutcome) (atTime expiresAt : JsString) : CompletionEnvelope :=
  { storeId := options.storeId, notificationId := notificationIdOf run.runId, taskId := run.taskId,
    runId := run.runId, parent := task.parent, policy := task.completionPolicy,
    settledAt := atTime, expiresAt, outcome }

/-- The notification of a run that settles now. -/
def completionNotification (envelope : CompletionEnvelope) : NotificationRecord :=
  { envelope, revision := 1,
    state := if envelope.policy = .collect then .collectible else .pending,
    claim := none, attempts := 0, retryAt := none, inboxId := none, acceptedAt := none,
    reason := none, delivery := none }

/-- The row of a run that settles now. -/
def RunRecord.finish (command : StoreCommand) (task : TaskRecord) (outcome : RunOutcome)
    (atTime : JsString) (run : RunRecord) : RunRecord :=
  { run with phase := .settled, outcome := some outcome, settledAt := some atTime,
             pendingRequest := run.pendingRequest.map fun r => { r with state := .unavailable },
             finalization := some
               { operationId := command.operationId, inputDigest := command.inputDigest,
                 taskRevision := task.revision, runRevision := run.revision } }

def settleRun [Platform] (context : CommitContext) (requested : RunOutcome) (atTime : JsString) :
    Result CommitContext := do
  let run ← requireRun context
  failWhen (run.outcome.isSome = true) .operationConflict "A settled run outcome is immutable."
  let outcome := finalOutcome run requested
  let expiresAt ← expiryText atTime context.current.limits.notificationTtlMs
  let envelope ← parse CompletionEnvelope.schema
    (completionEnvelope context.current.options context.task run outcome atTime expiresAt)
  let notification := completionNotification envelope
  let bytes ← delegationDataBytes (finalSlot outcome notification)
  failWhen (bytes > DELEGATION_FINAL_RESERVATION_BYTES) .capacityExceeded
    "Settlement exceeds its reserved final slot."
  let context ← setRun context (RunRecord.finish context.command context.task outcome atTime)
  pure { context with
    receipt := { context.receipt with
      status := .settled, notificationId := some notification.envelope.notificationId },
    mutations := context.mutations ++ [.notification notification] }

/-- Does a run require the recovery of its task? -/
def RunRecord.needsRecovery (run : RunRecord) : Bool :=
  run.outcome.any RunOutcome.isRecovery || run.recoveryReason.isSome

/-- The state of a task that is not retired, from its runs. -/
def runsState (runs : List RunRecord) : TaskState :=
  if runs.any RunRecord.needsRecovery then .recoveryRequired
  else if runs.any (fun run => decide (run.phase ≠ .settled)) then .active
  else .settled

/-- The runs of the task with the changed run in place. -/
def workingRuns (context : CommitContext) : List RunRecord :=
  match context.run with
  | none => context.current.runs
  | some run =>
    let runs := context.current.runs.map fun r => if r.runId = run.runId then run else r
    if runs.any (fun r => decide (r.runId = run.runId)) then runs else runs ++ [run]

def deriveTask (context : CommitContext) : CommitContext :=
  let state := if context.task.state = .retired then .retired else runsState (workingRuns context)
  { context with task := { context.task with state } }

end AgentSdk.Delegation
