import AgentSdk.History.Records
import AgentSdk.Lib.Machine

/-!
# The owner of a history source

`HistoryOwner` admits the reads and mutations of one source, passes each its
context, races the driver's work against the abort of the operation and joins
everything when the source is closed.  A state lists every operation ever
requested; one step is one call, one continuation or one timer.

An operation has two promises: the one of the driver (`answer`, and `settled`
once the owner's reactions are due) and the one of the caller (`race`, and
`returned` once it is delivered).
-/

namespace AgentSdk.History

open AgentSdk.Text

/-! ## Operations -/

inductive OperationKind
  | read
  | mutation (input : AgentHistoryMutationInput)
  deriving DecidableEq

def OperationKind.isMutation : OperationKind → Bool
  | .read => false
  | .mutation _ => true

/-- What an operation resolves with.  The page of a read is not looked at. -/
inductive Value
  | page
  | result (value : AgentHistoryMutationResult)
  deriving DecidableEq

/-- How a promise settled. -/
inductive Settled (ε : Type)
  | resolved (value : Value)
  | rejected (error : ε)
  deriving DecidableEq

def Settled.isRejected {ε : Type} : Settled ε → Bool
  | .resolved _ => false
  | .rejected _ => true

structure Operation where
  kind : OperationKind
  admitted : Bool
  /-- The caller passed an abort signal. -/
  signal : Bool := false
  /-- `controller.signal.reason` -/
  aborted : Option AgentHistoryError := none
  /-- The driver's method was entered and holds its context. -/
  started : Bool := false
  dispatched : Bool := false
  receipt : Option AgentHistoryMutationResult := none
  interruptedBeforeReceipt : Bool := false
  answer : Option (Settled Thrown) := none
  settled : Bool := false
  released : Bool := false
  race : Option (Settled Thrown) := none
  returned : Option (Settled AgentHistoryError) := none
  /-- The driver used its context after its method had settled. -/
  strayed : Bool := false
  deriving DecidableEq

namespace Operation

/-- The receipt the caller of an interrupted operation still gets. -/
def timelyReceipt (op : Operation) : Option AgentHistoryMutationResult :=
  if op.interruptedBeforeReceipt then none else op.receipt

/-- `controller.abort` with the listener `onAbort`. -/
def abort (error : AgentHistoryError) (op : Operation) : Operation :=
  if op.admitted = true ∧ op.released = false ∧ op.aborted = none then
    { op with
      aborted := some error
      interruptedBeforeReceipt := op.receipt.isNone
      race := op.race.or (some (.rejected (.history error))) }
  else op

/-- The first microtask of `work`. -/
def begin (op : Operation) : Operation :=
  if op.admitted = true ∧ op.started = false ∧ op.answer = none then
    match op.aborted with
    | some error => { op with answer := some (.rejected (.history error)) }
    | none => { op with started := true }
  else op

/-- `markDispatched` throws once the signal is aborted. -/
def markDispatched (op : Operation) : Operation :=
  if op.started = true ∧ op.aborted = none then
    { op with dispatched := true, strayed := op.strayed || op.answer.isSome }
  else op

/-- `recordResult` throws for a second receipt. -/
def recordResult (value : AgentHistoryMutationResult) (op : Operation) : Operation :=
  if op.receipt = none then
    { op with receipt := some value, strayed := op.strayed || op.answer.isSome }
  else op

/-- The driver's method was entered and has not settled. -/
def running (op : Operation) : Bool := op.started && op.answer.isNone

/-- The promise of the driver's method settles. -/
def answers (value : Settled Thrown) (op : Operation) : Operation :=
  if op.running = true then { op with answer := some value } else op

/-- `work` settles, which may decide the race. -/
def settle (op : Operation) : Operation :=
  if op.answer.isSome = true ∧ op.settled = false then
    { op with settled := true, race := op.race.or op.answer }
  else op

end Operation

/-! ## The owner -/

inductive Disposal
  | running | succeeded | failed
  deriving DecidableEq

/-- How far `dispose` has come: before its first microtask, waiting for a
disposal, waiting for the operations that were entered, and settled. -/
inductive Closing
  | starting
  | disposing (disposal : Nat)
  | joining (entries : List Nat)
  | cleaned
  | failed
  deriving DecidableEq

inductive Lifecycle
  | «open»
  | closing (at_ : Closing)
  | cleanup_failed
  | closed
  deriving DecidableEq

structure HistoryOwner where
  state : Lifecycle := .open
  entered : List Nat := []
  mutationEntered : Bool := false
  mutationUncertain : Bool := false
  nativeDisposal : Option Nat := none
  /-- Every native disposal ever started. -/
  disposals : List Disposal := []
  /-- Every operation ever requested. -/
  operations : List Operation := []
  deriving DecidableEq

/-- The source, its limits and the effects its mutation ports declare. -/
structure HistoryConfig where
  source : AgentHistorySourceIdentity
  effects : AgentHistoryMutationOperation → AgentHistoryMutationEffects
  concurrentReads : Nat
  deadlineMs : Nat
  maximumDeadlineMs : Nat

/-- A JavaScript number: an integer or not. -/
inductive JsNumber
  | integer (value : Int)
  | other
  deriving DecidableEq

/-- `signal` tells whether the caller's signal is aborted already. -/
structure OperationOptions where
  signal : Option Bool := none
  deadlineMs : Option JsNumber := none
  deriving DecidableEq

def historyError (code : AgentHistoryErrorCode) (message : String) : AgentHistoryError :=
  ⟨code, js message⟩

def Thrown.normalized : Thrown → AgentHistoryError
  | .history error => error
  | .other => historyError .native_failure "The native history operation failed."

def AgentHistoryError.reason (error : AgentHistoryError) : AgentHistoryMutationReason :=
  ⟨js error.code.name, error.message⟩

/-- How the caller's promise settles when the operation failed. -/
def OperationKind.failed (error : AgentHistoryError) (dispatched : Bool) :
    OperationKind → Settled AgentHistoryError
  | .read => .rejected error
  | .mutation input =>
    if dispatched then
      .resolved (.result (.outcome_unknown input.conversation error.reason))
    else .resolved (.result (.not_applied input.conversation error.reason))

/-- What the caller gets from a settled race. -/
def Operation.outcome (op : Operation) : Settled Thrown → Settled AgentHistoryError
  | .resolved value => .resolved value
  | .rejected error =>
    match op.timelyReceipt with
    | some receipt => .resolved (.result receipt)
    | none => op.kind.failed error.normalized op.dispatched

/-- The catch block of `run` and the rejection handler of `work` close the
source to mutations unless a receipt came in time. -/
def Operation.doubts (op : Operation) : Bool :=
  op.kind.isMutation && op.dispatched && op.timelyReceipt.isNone

namespace HistoryOwner

variable (c : HistoryConfig)

/-- `fenceMutations`, under a condition. -/
def fenceIf (s : HistoryOwner) (condition : Bool) : HistoryOwner :=
  { s with mutationUncertain := s.mutationUncertain || condition }

def onOperation (s : HistoryOwner) (i : Nat) (f : Operation → Operation) : HistoryOwner :=
  { s with operations := s.operations.modify i f }

/-! ### Admission -/

/-- The deadline of an operation is an integer within the limits. -/
def validDeadline (options : OperationOptions) : Bool :=
  match options.deadlineMs.getD (.integer c.deadlineMs) with
  | .integer ms => decide (1 ≤ ms ∧ ms ≤ c.maximumDeadlineMs)
  | .other => false

/-- The checks of `run`, in their order. -/
def refusal (s : HistoryOwner) (mutation : Bool) (options : OperationOptions) :
    Option AgentHistoryError :=
  if s.state ≠ .open then
    some (historyError .closed "History source is closing or closed.")
  else if options.signal = some true then
    some (historyError .cancelled "History operation was cancelled before dispatch.")
  else if validDeadline c options = false then
    some (historyError .invalid_input "History deadline is outside the supported range.")
  else if s.mutationEntered = true ∨ c.concurrentReads ≤ s.entered.length ∨
      mutation = true ∧ 0 < s.entered.length then
    some (historyError .busy "History source operation capacity is occupied.")
  else if mutation = true ∧ s.mutationUncertain = true then
    some (historyError .unsupported_scope
      "A previous mutation has an unknown outcome; reopen after inspecting native state.")
  else none

/-- An operation that never enters the source. -/
def refuse (s : HistoryOwner) (kind : OperationKind) (returned : Settled AgentHistoryError) :
    HistoryOwner :=
  { s with operations := s.operations ++
      [{ kind := kind, admitted := false, returned := some returned }] }

def enter (s : HistoryOwner) (kind : OperationKind) (signal : Bool) : HistoryOwner :=
  { s with
    entered := s.entered ++ [s.operations.length]
    mutationEntered := s.mutationEntered || kind.isMutation
    operations := s.operations ++ [{ kind := kind, admitted := true, signal := signal }] }

/-- The synchronous part of `run`.  `none` are options that `operationOptions`
refuses. -/
def request (s : HistoryOwner) (kind : OperationKind) (options : Option OperationOptions) :
    HistoryOwner :=
  match options with
  | none =>
    s.refuse kind (kind.failed (historyError .invalid_input "Invalid history operation options.")
      false)
  | some options =>
    match s.refusal c kind.isMutation options with
    | some error => s.refuse kind (kind.failed error false)
    | none => s.enter kind options.signal.isSome

/-- `apply` of a mutation port, on a parsed input. -/
def apply (s : HistoryOwner) (operation : AgentHistoryMutationOperation)
    (input : AgentHistoryMutationInput) (options : Option OperationOptions) : HistoryOwner :=
  if assertSource input.conversation c.source = false then
    s.refuse (.mutation input) (.rejected (historyError .wrong_source
      "The conversation belongs to a different history source or generation."))
  else if queryDigest input.acceptEffects.json ≠ queryDigest (c.effects operation).json then
    s.refuse (.mutation input) (.resolved (.result (.not_applied input.conversation
      ⟨js "effects_not_accepted",
        js "The declared native effects must be accepted exactly before mutation."⟩)))
  else s.request c (.mutation input) options

/-! ### The driver -/

/-- The check of `accept`.  `none` is a value that the schema refuses. -/
def accepts (input : AgentHistoryMutationInput) (value : Option AgentHistoryMutationResult) :
    Option AgentHistoryMutationResult :=
  value.filter fun result => assertSource result.ref c.source &&
    result.ref.conversationId == input.conversation.conversationId

/-- How the wrapper of a mutation settles on the value of the driver. -/
def mutationAnswer (input : AgentHistoryMutationInput) (receipt : Option AgentHistoryMutationResult)
    (value : Option AgentHistoryMutationResult) : Settled Thrown :=
  match accepts c input value with
  | none => .rejected (.history (historyError .native_failure
      "Native history returned an invalid mutation result."))
  | some result =>
    match receipt with
    | none => .resolved (.result result)
    | some receipt =>
      if queryDigest receipt.json ≠ queryDigest result.json then
        .rejected (.history (historyError .native_failure
          "Native history changed an already recorded mutation receipt."))
      else .resolved (.result receipt)

/-- `recordReceipt`: an accepted unknown outcome fences before the owner
refuses a second receipt. -/
def recordReceipt (s : HistoryOwner) (i : Nat) (value : Option AgentHistoryMutationResult) :
    HistoryOwner :=
  match s.operations[i]? with
  | some op =>
    match op.kind with
    | .mutation input =>
      if op.started = true then
        match accepts c input value with
        | some result => (s.fenceIf result.isUnknown).onOperation i (·.recordResult result)
        | none => s
      else s
    | .read => s
  | none => s

/-- The driver's method resolves; `none` is a value that the schema refuses. -/
def resolve (s : HistoryOwner) (i : Nat) (value : Option AgentHistoryMutationResult) :
    HistoryOwner :=
  match s.operations[i]? with
  | some op =>
    match op.kind with
    | .read => s.onOperation i (·.answers (.resolved .page))
    | .mutation input =>
      let unknown := (accepts c input value).any AgentHistoryMutationResult.isUnknown
      (s.fenceIf (op.running && unknown)).onOperation i
        (·.answers (mutationAnswer c input op.receipt value))
  | none => s

/-- The driver's method rejects. -/
def reject (s : HistoryOwner) (i : Nat) (error : Thrown) : HistoryOwner :=
  s.onOperation i (·.answers (.rejected error))

/-! ### Reactions -/

/-- `release`, the last reaction of `work`. -/
def released (s : HistoryOwner) (i : Nat) (kind : OperationKind) : HistoryOwner :=
  { s with
    entered := s.entered.filter (· ≠ i)
    mutationEntered := s.mutationEntered && !kind.isMutation
    operations := s.operations.modify i fun op => { op with released := true } }

/-- The reactions of `work`: the rejection handler, then `release`. -/
def release (s : HistoryOwner) (i : Nat) : HistoryOwner :=
  match s.operations[i]? with
  | some op =>
    if op.settled = true ∧ op.released = false then
      match op.answer with
      | some (.rejected _) => (s.fenceIf op.doubts).released i op.kind
      | _ => s.released i op.kind
    else s
  | none => s

/-- The continuation of `await Promise.race`, up to the caller's promise. -/
def returns (s : HistoryOwner) (i : Nat) : HistoryOwner :=
  match s.operations[i]? with
  | some op =>
    match op.returned, op.race with
    | none, some settled =>
      (s.fenceIf (settled.isRejected && op.doubts)).onOperation i fun op =>
        { op with returned := some (op.outcome settled) }
    | _, _ => s
  | none => s

/-- An abort by the caller's signal or by the deadline. -/
def interrupt (s : HistoryOwner) (i : Nat) (error : AgentHistoryError) : HistoryOwner :=
  s.onOperation i (·.abort error)

/-! ### Closing -/

/-- The operations after `close` aborted those that are entered. -/
def aborted (s : HistoryOwner) : List Operation :=
  s.operations.mapIdx fun i op =>
    if i ∈ s.entered then op.abort (historyError .closed "History source is closing.") else op

/-- `close`, up to its first `await`. -/
def close (s : HistoryOwner) : HistoryOwner :=
  match s.state with
  | .closed => s
  | .closing _ => s
  | _ => { s with state := .closing .starting, operations := s.aborted }

/-- The first microtask of `dispose`: a disposal that is kept is shared. -/
def dispose (s : HistoryOwner) : HistoryOwner :=
  if s.state = .closing .starting then
    match s.nativeDisposal with
    | some disposal => { s with state := .closing (.disposing disposal) }
    | none =>
      { s with
        state := .closing (.disposing s.disposals.length)
        nativeDisposal := some s.disposals.length
        disposals := s.disposals ++ [.running] }
  else s

/-- A native disposal ends; a failed one is forgotten. -/
def disposed (s : HistoryOwner) (disposal : Nat) (succeeded : Bool) : HistoryOwner :=
  if s.disposals[disposal]? = some .running then
    if succeeded = true then { s with disposals := s.disposals.set disposal .succeeded }
    else { s with disposals := s.disposals.set disposal .failed, nativeDisposal := none }
  else s

/-- `cleanup` goes on: after the disposal, and after the entered operations. -/
def cleanup (s : HistoryOwner) : HistoryOwner :=
  match s.state with
  | .closing (.disposing disposal) =>
    match s.disposals[disposal]? with
    | some .succeeded => { s with state := .closing (.joining s.entered) }
    | some .failed => { s with state := .closing .failed }
    | _ => s
  | .closing (.joining entries) =>
    if entries.all (fun i => !s.entered.elem i) = true then { s with state := .closing .cleaned }
    else s
  | _ => s

/-- The timer of `dispose`. -/
def cleanupDeadline (s : HistoryOwner) : HistoryOwner :=
  match s.state with
  | .closing (.disposing _) => { s with state := .closing .failed }
  | .closing (.joining _) => { s with state := .closing .failed }
  | _ => s

/-- The end of `dispose`, which settles the promise of `close`. -/
def finish (s : HistoryOwner) : HistoryOwner :=
  match s.state with
  | .closing .cleaned => { s with state := .closed }
  | .closing .failed => { s with state := .cleanup_failed }
  | _ => s

end HistoryOwner

/-! ## Steps -/

inductive HistoryEvent
  | read (options : Option OperationOptions)
  | apply (operation : AgentHistoryMutationOperation) (input : AgentHistoryMutationInput)
      (options : Option OperationOptions)
  | begin (i : Nat)
  | markDispatched (i : Nat)
  | recordReceipt (i : Nat) (value : Option AgentHistoryMutationResult)
  | resolve (i : Nat) (value : Option AgentHistoryMutationResult)
  | reject (i : Nat) (error : Thrown)
  | settle (i : Nat)
  | release (i : Nat)
  | returns (i : Nat)
  | cancel (i : Nat)
  | deadline (i : Nat)
  | close
  | dispose
  | disposed (disposal : Nat) (succeeded : Bool)
  | cleanup
  | cleanupDeadline
  | finish
  deriving DecidableEq

namespace HistoryOwner

/-- The caller's signal only aborts an operation that was given one. -/
def signalled (s : HistoryOwner) (i : Nat) : Bool :=
  s.operations[i]?.any (·.signal)

def step (c : HistoryConfig) (s : HistoryOwner) : HistoryEvent → HistoryOwner
  | .read options => s.request c .read options
  | .apply operation input options => s.apply c operation input options
  | .begin i => s.onOperation i Operation.begin
  | .markDispatched i => s.onOperation i Operation.markDispatched
  | .recordReceipt i value => s.recordReceipt c i value
  | .resolve i value => s.resolve c i value
  | .reject i error => s.reject i error
  | .settle i => s.onOperation i Operation.settle
  | .release i => s.release i
  | .returns i => s.returns i
  | .cancel i =>
    if s.signalled i = true then
      s.interrupt i (historyError .cancelled "History operation was cancelled.")
    else s
  | .deadline i =>
    s.interrupt i (historyError .deadline_exceeded "History operation exceeded its deadline.")
  | .close => s.close
  | .dispose => s.dispose
  | .disposed disposal succeeded => s.disposed disposal succeeded
  | .cleanup => s.cleanup
  | .cleanupDeadline => s.cleanupDeadline
  | .finish => s.finish

/-- The state after a list of events. -/
def after (c : HistoryConfig) (events : List HistoryEvent) : HistoryOwner :=
  Machine.run (step c) {} events

end HistoryOwner

end AgentSdk.History
