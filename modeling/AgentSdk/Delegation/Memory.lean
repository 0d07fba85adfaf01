import AgentSdk.Lib.Table
import AgentSdk.Lib.Machine
import AgentSdk.Delegation.Plan

/-!
# The volatile store

The in-memory delegation store: seven maps, an owner fence and the counters.
A commit reads the rows a command concerns, plans the commit and writes the
planned rows; a call that throws writes nothing.
-/

namespace AgentSdk.Delegation

open AgentSdk.Text AgentSdk.Outcome

variable [Platform]

/-! ## Keys -/

def operationKey (parent : ParentScope) (operationId : JsString) : JsString :=
  Json.stringify (.arr [.str parent.parentId, .str parent.scopeId, .str operationId])

def observationKey (runId : JsString) (index : Nat) : JsString :=
  runId ++ 58 :: natDecimal index

def OperationRecord.key (operation : OperationRecord) : JsString :=
  operationKey operation.parent operation.operationId

def TaskObservation.key (observation : TaskObservation) : JsString :=
  observationKey observation.runId observation.index

def NotificationRecord.key (notification : NotificationRecord) : JsString :=
  notification.envelope.notificationId

/-! ## The store -/

structure Store where
  owner : Option OwnerToken
  epoch : Nat
  capacity : Capacity
  tasks : Table TaskRecord.taskId
  runs : Table RunRecord.runId
  operations : Table OperationRecord.key
  observations : Table TaskObservation.key
  notifications : Table NotificationRecord.key
  ceilings : Table PolicyCeiling.ceilingId

/-- The store as it is created. -/
def Store.empty : Store :=
  { owner := none, epoch := 0, capacity := .zero, tasks := .empty, runs := .empty,
    operations := .empty, observations := .empty, notifications := .empty, ceilings := .empty }

/-- A caller becomes the owner under the next epoch.  The epoch is spent even
when the token does not parse. -/
def Store.acquireOwner (options : StoreOptions) (s : Store) (nonce : JsString) :
    Store × Result OwnerToken :=
  match s.owner with
  | some _ => (s, .error (.operation .ownerLost
      (js "This volatile store already has an active owner.")))
  | none =>
    let token := { storeId := options.storeId, epoch := s.epoch + 1, nonce }
    match parse OwnerToken.schema token with
    | .ok owner => ({ s with owner := some owner, epoch := s.epoch + 1 }, .ok owner)
    | .error failure => ({ s with epoch := s.epoch + 1 }, .error failure)

def Store.releaseOwner (options : StoreOptions) (s : Store) (input : OwnerToken) : Result Store := do
  failWhen (s.owner.all (fun owner => decide (input.storeId ≠ options.storeId) ||
      decide (input.epoch ≠ owner.epoch) || decide (input.nonce ≠ owner.nonce)) = true)
    .ownerLost "The store owner fence is no longer current."
  pure { s with owner := none }

/-- The run a command is about. -/
def commandRunId (command : StoreCommand) : Option JsString :=
  match command.body with
  | .admitRun admission => some admission.runId
  | _ => command.runId

/-- The notification a command is about. -/
def commandNotificationId (command : StoreCommand) : Option JsString :=
  match command.body with
  | .deliveryClaim notificationId _ _ _ => some notificationId
  | .deliveryReceipt notificationId _ _ _ _ => some notificationId
  | _ => (commandRunId command).map notificationIdOf

/-- The scope under which a command's operation is retained. -/
def commandParent (s : Store) (command : StoreCommand) : Option ParentScope :=
  match command.body with
  | .admitRun admission => some admission.parent
  | _ => (s.tasks.get command.taskId).map TaskRecord.parent

/-- The observation a command repeats, if it is retained. -/
def commandObservation (s : Store) (command : StoreCommand) : Option TaskObservation :=
  match command.body with
  | .observe observation => s.observations.get (observationKey observation.runId observation.index)
  | _ => none

/-- The omission marker of the run a command observes. -/
def commandOmission (s : Store) (command : StoreCommand) : Option TaskObservation :=
  match command.body with
  | .observe observation => (s.observations.rows.filter
      fun o => decide (o.runId = observation.runId)).find? fun o => decide (o.kind = .omitted)
  | _ => none

/-- What a commit reads. -/
def Store.current (options : StoreOptions) (s : Store) (command : StoreCommand) : CommitCurrent :=
  { options, owner := s.owner, capacity := s.capacity, task := s.tasks.get command.taskId,
    runs := s.runs.rows.filter fun run => decide (run.taskId = command.taskId),
    operation := (commandParent s command).bind fun parent =>
      s.operations.get (operationKey parent command.operationId),
    criticalOperations := (s.operations.rows.filter
      fun operation => decide (some operation.runId = commandRunId command)).filter
        fun operation => operation.kind.critical,
    notification := (commandNotificationId command).bind s.notifications.get,
    ceiling := match command.body with
      | .admitRun admission => s.ceilings.get admission.policyCeiling.ceilingId
      | _ => none,
    observation := commandObservation s command,
    omissionObservation := commandOmission s command,
    runIdExists := match command.body with
      | .admitRun admission => (s.runs.get admission.runId).isSome
      | _ => false }

/-- Write one planned row. -/
def Store.write (s : Store) : RowMutation → Store
  | .task value => { s with tasks := s.tasks.put value }
  | .run value => { s with runs := s.runs.put value }
  | .operation value => { s with operations := s.operations.put value }
  | .observation value => { s with observations := s.observations.put value }
  | .notification value => { s with notifications := s.notifications.put value }
  | .ceiling value => { s with ceilings := s.ceilings.put value }
  | .capacity value => { s with capacity := value }

def Store.commit (options : StoreOptions) (s : Store) (input : StoreCommand) :
    Result (Store × CommitReceipt) := do
  let command ← parseDelegationStoreCommand input
  let (mutations, receipt) ← planDelegationStoreCommit command (s.current options command)
  pure (mutations.foldl Store.write s, receipt)

/-! ## Runs of the store -/

/-- A call on the store. -/
inductive StoreCall
  | acquireOwner (nonce : JsString)
  | releaseOwner (token : OwnerToken)
  | commit (command : StoreCommand)

/-- The store after a call; a call that throws leaves the rows as they are. -/
def Store.step (options : StoreOptions) (s : Store) : StoreCall → Store
  | .acquireOwner nonce => (s.acquireOwner options nonce).1
  | .releaseOwner token => match s.releaseOwner options token with
      | .ok s' => s'
      | .error _ => s
  | .commit command => match s.commit options command with
      | .ok (s', _) => s'
      | .error _ => s

/-- The store after a list of calls. -/
abbrev Store.run (options : StoreOptions) (s : Store) (calls : List StoreCall) : Store :=
  Machine.run (Store.step options) s calls

end AgentSdk.Delegation
