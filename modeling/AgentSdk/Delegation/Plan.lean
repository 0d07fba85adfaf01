import AgentSdk.Delegation.Handlers

/-!
# Commit planning

The fences every command passes, the recognition of repeated commands, and the
plan of a commit: the rows it writes and its receipt.
-/

namespace AgentSdk.Delegation

open AgentSdk.Text AgentSdk.Calendar AgentSdk.Outcome

variable [Platform]

/-- The operation a command records, if it records one. -/
def operationKind (command : StoreCommand) : Option OperationKind :=
  match command.body with
  | .admitRun _ => some .admitRun
  | .cancel _ _ => some .cancel
  | .dispatchIntent kind _ _ _ => some kind
  | .requestState .resolutionIntended _ _ => some .requestResolution
  | _ => none

def StoreCommand.isAdmit (command : StoreCommand) : Bool :=
  match command.body with
  | .admitRun _ => true
  | _ => false

/-- Is a command the second attempt of a cleanup whose first attempt is
retained? -/
def cleanupRetry (command : StoreCommand) (prior : OperationRecord) : Bool :=
  match command.body with
  | .dispatchIntent _ _ _ attempt => decide (attempt = some 2) && decide (prior.attempts ≠ 2)
  | _ => false

/-- The answer to a command whose operation is already retained. -/
def duplicateOperation (command : StoreCommand) (prior : OperationRecord) :
    Result (Option CommitReceipt) := do
  let kind := operationKind command
  failWhen (prior.inputDigest ≠ command.inputDigest ∨ kind.any (fun k => decide (prior.kind ≠ k)) =
        true ∨
      (command.isAdmit = false ∧ (prior.taskId ≠ command.taskId ∨ some prior.runId ≠ command.runId)))
    .operationConflict "The operation identity has different retained input or ownership."
  match command.body with
  | .operationReceipt disposition _ message eligibility =>
    if prior.disposition = disposition then do
      failWhen (prior.requestState ≠ eligibility ∨ prior.message ≠ message) .operationConflict
        "The final receipt identity has different retained content."
      pure (some { prior.receipt with duplicate := true })
    else pure none
  | _ =>
    if kind.isSome = true ∧ cleanupRetry command prior = false then
      pure (some { prior.receipt with duplicate := true })
    else pure none

/-- The answer to a repeated settlement. -/
def duplicateSettlement (command : StoreCommand) (current : CommitCurrent) (run : RunRecord) :
    Result (Option CommitReceipt) :=
  match run.finalization with
  | none => pure none
  | some finalization => do
      failWhen (finalization.operationId ≠ command.operationId ∨
          finalization.inputDigest ≠ command.inputDigest)
        .operationConflict "A final outcome already has its canonical settlement."
      pure (some
        { duplicate := true, status := .settled, taskId := command.taskId,
          taskRevision := finalization.taskRevision, runId := some run.runId,
          runRevision := some finalization.runRevision, operationId := some command.operationId,
          notificationId := current.notification.map fun n => n.envelope.notificationId })

/-- The answer to a repeated observation. -/
def duplicateObservation (current : CommitCurrent) (run : RunRecord)
    (observation : TaskObservation) : Result (Option CommitReceipt) := do
  if observation.index ≤ run.observationIndex then do
    failWhen (current.observation.any (fun o => same o observation) = false ∧
        ¬(observation.index = run.observationIndex ∧
          run.lastObservationDigest = some (delegationInputDigest (Data.json observation))))
      .operationConflict "An observation index has different or unavailable retained input."
    pure (some
      { duplicate := true,
        status := if current.observation.all (fun o => decide (o.kind = .omitted)) then .omitted
          else .recorded,
        taskId := run.taskId, taskRevision := (current.task.map TaskRecord.revision).getD 0,
        runId := some run.runId, runRevision := some run.revision })
  else pure none

/-- The answer to a repeated retirement. -/
def duplicateRetirement (command : StoreCommand) (current : CommitCurrent) :
    Result (Option CommitReceipt) :=
  match current.task with
  | none => pure none
  | some task => match task.retirement with
    | none => pure none
    | some retirement => do
        failWhen (retirement.operationId ≠ command.operationId ∨
            retirement.inputDigest ≠ command.inputDigest)
          .operationConflict "Retirement already has a different canonical operation."
        pure (some { duplicate := true, status := .retired, taskId := command.taskId,
                     taskRevision := task.revision })

/-- The run a command names. -/
def CommitCurrent.namedRun (current : CommitCurrent) (command : StoreCommand) : Option RunRecord :=
  current.runs.find? fun run => decide (some run.runId = command.runId)

/-- The receipt of a command that repeats a retained operation. -/
def duplicateRetained (command : StoreCommand) (current : CommitCurrent) :
    Result (Option CommitReceipt) :=
  match current.operation with
  | some prior => duplicateOperation command prior
  | none => pure none

/-- The receipt of a repeated command. -/
def duplicate (command : StoreCommand) (current : CommitCurrent) : Result (Option CommitReceipt) :=
  match command.body with
  | .deliveryClaim notificationId _ attemptId _ =>
    duplicateDelivery command current .claim notificationId attemptId
  | .deliveryReceipt notificationId _ attemptId _ _ =>
    duplicateDelivery command current .receipt notificationId attemptId
  | body => do
      let retained ← duplicateRetained command current
      match retained with
      | some receipt => pure (some receipt)
      | none => match body with
        | .cancel _ _ =>
          match current.criticalOperations.find? (fun o => decide (o.kind = .cancel)) with
          | some canonical => .error (.operation .operationConflict
              (js "Cancellation already uses operation " ++ canonical.operationId ++
                js "; retry that exact identity."))
          | none => pure none
        | .settle _ _ => match current.namedRun command with
            | some run => duplicateSettlement command current run
            | none => pure none
        | .observe observation => match current.namedRun command with
            | some run => duplicateObservation current run observation
            | none => pure none
        | .retireRecovery _ _ => duplicateRetirement command current
        | _ => pure none

/-- Do the counters contradict each other or the limits? -/
def capacityInconsistent (capacity : Capacity) (limits : Limits) : Prop :=
  (∃ count ∈ capacity.values, count > (MAX_SAFE_INTEGER : Int) ∨ count < 0) ∨
    capacity.tasks > limits.maxTasks ∨ capacity.runs > limits.maxRuns ∨
    capacity.tasks > capacity.runs ∨ capacity.activeRuns > limits.maxActiveRuns ∨
    capacity.queuedRuns > limits.maxQueuedRuns ∨
    capacity.activeRuns + capacity.queuedRuns > capacity.runs ∨
    capacity.retainedInputBytes > limits.maxRetainedInputBytes ∨
    capacity.observationBytes > limits.maxRetainedObservationBytes ∨
    capacity.ordinaryOperations > limits.maxOrdinaryOperations ∨
    capacity.reservedBytes ≠ capacity.runs * DELEGATION_RUN_RESERVATION_BYTES ∨
    capacity.criticalSlots ≠ capacity.runs * DELEGATION_CRITICAL_SLOTS

instance (capacity : Capacity) (limits : Limits) : Decidable (capacityInconsistent capacity limits) := by
  unfold capacityInconsistent
  infer_instance

/-- Do the rows read contradict the command or each other? -/
def snapshotInconsistent (command : StoreCommand) (current : CommitCurrent) : Prop :=
  current.runs.length > current.limits.maxRunsPerTask ∨ current.criticalOperations.length > 4 ∨
    (∃ run ∈ current.runs, run.taskId ≠ command.taskId) ∨
    (∃ task ∈ current.task, task.taskId ≠ command.taskId)

instance (command : StoreCommand) (current : CommitCurrent) :
    Decidable (snapshotInconsistent command current) := by
  unfold snapshotInconsistent
  infer_instance

/-- The same row, one revision later. -/
def TaskRecord.next (task : TaskRecord) : TaskRecord := { task with revision := task.revision + 1 }

/-- The same row, one revision later. -/
def RunRecord.next (run : RunRecord) : RunRecord := { run with revision := run.revision + 1 }

/-- The row of a task admitted now, before its first run is counted. -/
def admittedTask (options : StoreOptions) (taskId : JsString) (admission : RunAdmission) :
    TaskRecord :=
  { storeId := options.storeId, taskId, parent := admission.parent,
    ancestorTaskId := admission.ancestorTaskId, depth := admission.depth,
    policyCeilingRef := admission.policyCeiling.ceilingId,
    completionPolicy := admission.completionPolicy, state := .active, revision := 1,
    latestRunId := admission.runId, runCount := 0, createdAt := admission.createdAt,
    retiredAt := none, retirement := none }

/-- The task row a command starts from, one revision later. -/
def commandTask (command : StoreCommand) (current : CommitCurrent) : Option TaskRecord :=
  match current.task with
  | some task => some task.next
  | none => match command.body with
    | .admitRun admission => some (admittedTask current.options command.taskId admission)
    | _ => none

/-- The receipt of a command before its handler ran. -/
def baseReceipt (command : StoreCommand) (task : TaskRecord) (run : Option RunRecord) :
    CommitReceipt :=
  { duplicate := false, status := .recorded, taskId := task.taskId, taskRevision := task.revision,
    runId := run.map RunRecord.runId, runRevision := run.map RunRecord.revision,
    operationId := some command.operationId }

/-- The working copy a command starts from. -/
def commitContext (command : StoreCommand) (current : CommitCurrent) (task : TaskRecord) :
    CommitContext :=
  let run := (current.namedRun command).map RunRecord.next
  { command, current, task, run, capacity := current.capacity, mutations := [],
    receipt := baseReceipt command task run }

/-- The handler of a command. -/
def runCommand (context : CommitContext) : CommandBody → Result CommitContext
  | .admitRun admission => admitRun context admission
  | .dispatchIntent kind atTime appliedTarget attempt =>
    dispatchIntent context kind atTime appliedTarget attempt
  | .operationReceipt disposition atTime message eligibility =>
    operationReceipt context disposition atTime message eligibility
  | .observe observation => observeRun context observation
  | .requestState state request atTime => requestState context state request atTime
  | .cancel atTime _ => cancelRun context atTime
  | .settle outcome atTime => settle context outcome atTime
  | .deliveryClaim notificationId expectedNotificationRevision attemptId atTime =>
    deliveryClaim context notificationId expectedNotificationRevision attemptId atTime
  | .deliveryReceipt notificationId expectedNotificationRevision attemptId result atTime =>
    deliveryReceipt context notificationId expectedNotificationRevision attemptId result atTime
  | .retireRecovery reason atTime => retireRecovery context reason atTime

/-- An operation row carries the receipt of its commit. -/
def finalizeMutation (receipt : CommitReceipt) : RowMutation → RowMutation
  | .operation value => .operation { value with receipt }
  | mutation => mutation

instance : Data RowMutation where
  json
    | .task value => .obj [(js "kind", wordJson "task"), (js "value", Data.json value)]
    | .run value => .obj [(js "kind", wordJson "run"), (js "value", Data.json value)]
    | .operation value => .obj [(js "kind", wordJson "operation"), (js "value", Data.json value)]
    | .observation value => .obj [(js "kind", wordJson "observation"), (js "value", Data.json value)]
    | .notification value => .obj [(js "kind", wordJson "notification"), (js "value", Data.json value)]
    | .ceiling value => .obj [(js "kind", wordJson "ceiling"), (js "value", Data.json value)]
    | .capacity value => .obj [(js "kind", wordJson "capacity"), (js "value", Data.json value)]

/-- The row of the run, if the command has one. -/
def finishRun (run : Option RunRecord) : Result (List RowMutation) :=
  match run with
  | some run => do
      let run ← parse RunRecord.schema run
      pure [RowMutation.run run]
  | none => pure []

/-- The rows of a finished working copy, captured one by one. -/
def finishCommit (context : CommitContext) : Result (List RowMutation × CommitReceipt) := do
  let context := deriveTask context
  let task ← parse TaskRecord.schema context.task
  let runs ← finishRun context.run
  let mutations := (context.mutations ++ [RowMutation.task task] ++ runs ++
    [RowMutation.capacity context.capacity]).map (finalizeMutation context.receipt)
  mutations.forM fun mutation => copyBoundedDelegationData (Data.json mutation)
  pure (mutations, context.receipt)

/-- The plan of a command that repeats no earlier one. -/
def planFresh (command : StoreCommand) (current : CommitCurrent) :
    Result (List RowMutation × CommitReceipt) := do
  failWhen ((current.task.map TaskRecord.revision).getD 0 ≠ command.expectedTaskRevision)
    .staleRevision "The task revision changed."
  failWhen ((match command.body with
      | .admitRun _ => false
      | .retireRecovery _ _ => false
      | _ => (current.namedRun command).all fun run =>
        decide (some run.revision ≠ command.expectedRunRevision)) = true)
    .staleRevision "The run revision changed."
  match commandTask command current with
  | none => .error (.operation .staleRevision (js "The task is unavailable."))
  | some task => do
      let context ← runCommand (commitContext command current task) command.body
      finishCommit context

def planDelegationStoreCommit (input : StoreCommand) (current : CommitCurrent) :
    Result (List RowMutation × CommitReceipt) := do
  let command ← parseDelegationStoreCommand input
  failWhen (current.options.storeId ≠ command.owner.storeId ∨
      current.owner.all (fun owner => !same owner command.owner) = true)
    .ownerLost "The store owner fence is no longer current."
  failWhen (capacityInconsistent current.capacity current.limits) .storeFailed
    "The store capacity counters or configured reservations are inconsistent."
  failWhen (snapshotInconsistent command current) .storeFailed "The command snapshot is inconsistent."
  let retry ← duplicate command current
  match retry with
  | some receipt => pure ([], receipt)
  | none => planFresh command current

end AgentSdk.Delegation
