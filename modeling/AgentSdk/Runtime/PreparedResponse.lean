import AgentSdk.Lib.Machine

/-!
# Dispatching a prepared session response

`dispatchPreparedSessionResponse` asks the provider to prepare a response,
installs the native execution of a continuation, waits for the host's reader
and enters the provider at one synchronous point.  Until then its cancellation
is owned by the session: the call cancels on failure, the owner's cleanup
cancels when the session is joined, and a failed cancellation is retried.

A state holds the flags of one call, the promises it waits for and how far the
call and a cancellation attempt have come.  One step is one change of the
session, one settled promise or one continuation; a promise and the reaction
that records it are separate steps where the code reads the record.
-/

namespace AgentSdk.Runtime.Prepared

/-! ## Values -/

inductive ContractCode
  | native_continuation_preparation_failed
  | native_continuation_reader_not_ready
  | invalid_native_continuation
  | unsupported_or_unusable
  deriving DecidableEq

/-- What a step of the call throws: an `AgentProviderContractError`, an
`AbortError` or anything else. -/
inductive Cause
  | contract (code : ContractCode)
  | abort
  | other
  deriving DecidableEq

inductive ResponseKind
  | no_continuation
  | native_continuation
  deriving DecidableEq

inductive ContinuationOutcome
  | started
  | not_started
  deriving DecidableEq

/-- A promise of the call. -/
inductive Settlement (α : Type)
  | pending
  | fulfilled (value : α)
  | rejected (cause : Cause)
  deriving DecidableEq

/-! ## The native execution -/

inductive ExecutionState
  | parked
  | dispatched
  | settled
  | stopped
  deriving DecidableEq

/-- An adopted execution: `ready` once its output was pulled while parked,
`pulling` while that pull is outstanding. -/
structure Execution where
  state : ExecutionState := .parked
  ready : Bool := false
  pulling : Bool := false
  joined : Bool := false
  deriving DecidableEq

namespace Execution

/-- `next`: the output permits one outstanding pull. -/
def pull (e : Execution) : Execution :=
  if e.state = .parked ∧ e.pulling = false then { e with ready := true, pulling := true } else e

/-- `stop` ends a parked pull. -/
def stop (e : Execution) : Execution :=
  match e.state with
  | .settled => e
  | .stopped => e
  | _ => { e with state := .stopped, pulling := false }

def settleNoWork (e : Execution) : Execution := { e with state := .settled, pulling := false }

def admitDispatch (e : Execution) : Execution := { e with state := .dispatched }

end Execution

inductive Reservation
  | none
  | owned
  | released
  deriving DecidableEq

/-- `releaseExecution` of the reservation, if there is one. -/
def Reservation.release : Reservation → Reservation
  | .none => .none
  | _ => .released

/-! ## The call -/

/-- Where the call is: before the preparation, before the reader, after the
entry, after its end, in its catch block, and after it threw.  The first two hold how `until`
settled: not yet, resolved, or rejected with a cause. -/
inductive Call
  | preparing (settled : Settlement Unit)
  | reading (settled : Settlement Unit)
  | answering
  | answered
  | canceling (failure : Cause) (settled : Settlement Unit)
  | threw (failure : Cause) (cleanup : Bool)
  deriving DecidableEq

/-- The awaits of a cancellation attempt. -/
inductive Attempt
  | preparation
  | value
  | execution
  | outcome
  | callback
  deriving DecidableEq

structure Admission where
  /-- `input.requireCurrent` does not throw. -/
  current : Bool := true
  /-- What `owner.requireUsable` throws. -/
  unusable : Option Cause := none
  /-- The owner was stopped, and with it the admission of executions. -/
  stopped : Bool := false
  /-- `signal.reason` -/
  aborted : Option Cause := none
  /-- `Date.now() >= readinessDeadline` -/
  late : Bool := false
  requested : Bool := false
  preparation : Settlement ResponseKind := .pending
  /-- `actualOutcome` -/
  outcome : Settlement ContinuationOutcome := .pending
  earlyOutcome : Option ContinuationOutcome := none
  outcomeFailure : Bool := false
  reservation : Reservation := .none
  execution : Option Execution := none
  callback : Option (Settlement Unit) := none
  callbackFailure : Bool := false
  call : Call := .preparing .pending
  entered : Bool := false
  /-- Calls of `value.dispatch`. -/
  dispatches : Nat := 0
  attempt : Option Attempt := none
  canceled : Bool := false
  /-- Calls of `value.cancel`, those that have not settled, and those fulfilled. -/
  cancels : Nat := 0
  canceling : Nat := 0
  cancellations : Nat := 0
  /-- The owner retains the cleanup of this preparation. -/
  retained : Bool := true
  receiptSettled : Bool := false
  completed : Bool := false
  deriving DecidableEq

/-- `until` settles once. -/
def Settlement.settle {α : Type} (settled result : Settlement α) : Settlement α :=
  match settled with
  | .pending => result
  | _ => settled

/-- What settles the `until` the call is waiting for before its entry. -/
def Call.settle (result : Settlement Unit) : Call → Call
  | .preparing settled => .preparing (settled.settle result)
  | .reading settled => .reading (settled.settle result)
  | call => call

/-- What settles the `until` of the catch block. -/
def Call.cleanup (result : Settlement Unit) : Call → Call
  | .canceling failure settled => .canceling failure (settled.settle result)
  | call => call

namespace Admission

/-! ## The session -/

def abort (s : Admission) (reason : Cause) : Admission :=
  { s with aborted := s.aborted.or (some reason), call := s.call.settle (.rejected reason) }

/-- `owner.stop`: the session is unusable, its signal aborts and its installed
execution stops. -/
def stop (s : Admission) (cause : Cause) : Admission :=
  { s with
    unusable := s.unusable.or (some cause)
    stopped := true
    execution := s.execution.map Execution.stop
    aborted := s.aborted.or (some .abort)
    call := s.call.settle (.rejected .abort) }

/-! ## Cancellation -/

/-- `execution?.stop` and `value.cancel()`. -/
def cancelValue (s : Admission) : Admission :=
  { s with
    execution := s.execution.map Execution.stop
    attempt := some .value
    cancels := s.cancels + 1
    canceling := s.canceling + 1 }

/-- `cancel`: one attempt at a time, none after a success. -/
def cancel (s : Admission) : Admission :=
  if s.canceled = true ∨ s.attempt.isSome = true then s
  else
    let s := s.abort .abort
    match s.preparation with
    | .fulfilled _ => s.cancelValue
    | _ => { s with attempt := some .preparation }

/-- A cancellation attempt ends. -/
def endAttempt (s : Admission) (result : Settlement Unit) : Admission :=
  { s with attempt := none, call := s.call.cleanup result }

def failAttempt (s : Admission) : Admission := s.endAttempt (.rejected .other)

/-- The attempt goes on after `await actualPreparation`. -/
def cancelPrepared (s : Admission) : Admission :=
  if s.attempt = some .preparation then
    match s.preparation with
    | .pending => s
    | .fulfilled _ => s.cancelValue
    | .rejected cause => (({ s with retained := false }).stop cause).failAttempt
  else s

/-- `value.cancel()` settles. -/
def cancelSettled (s : Admission) (fulfilled : Bool) : Admission :=
  if s.attempt = some .value then
    if fulfilled then
      { s with
        canceling := s.canceling - 1
        cancellations := s.cancellations + 1
        execution := s.execution.map Execution.settleNoWork
        attempt := some .execution }
    else ({ s with canceling := s.canceling - 1 }).failAttempt
  else s

/-- `execution?.join()` settles. -/
def executionJoined (s : Admission) (fulfilled : Bool) : Admission :=
  if s.attempt = some .execution then
    if s.execution = none ∨ fulfilled = true then
      { s with
        execution := s.execution.map fun e => { e with joined := true }
        attempt := some (if s.preparation = .fulfilled .native_continuation then .outcome
          else .callback) }
    else s.failAttempt
  else s

/-- The attempt goes on after `await actualOutcome`. -/
def cancelOutcome (s : Admission) : Admission :=
  if s.attempt = some .outcome then
    match s.outcome with
    | .pending => s
    | .fulfilled .not_started => { s with attempt := some .callback }
    | _ => s.failAttempt
  else s

/-- The attempt goes on after `await callback?.catch(...)`: it succeeds. -/
def cancelCallback (s : Admission) : Admission :=
  if s.attempt = some .callback ∧ s.callback ≠ some .pending then
    ({ s with
      reservation := s.reservation.release
      canceled := true }).endAttempt (.fulfilled ())
  else s

/-- The cleanup the owner retains, run when the session is joined. -/
def cleanup (s : Admission) : Admission :=
  if s.retained = true ∧ s.stopped = true ∧ s.entered = false then s.cancel else s

/-! ## The call -/

/-- The failure the catch block reports. -/
def failure (s : Admission) : Cause → Cause
  | .other =>
    match s.preparation with
    | .fulfilled _ => .contract .native_continuation_reader_not_ready
    | _ => .contract .native_continuation_preparation_failed
  | cause => cause

/-- The catch block before the entry, up to its `await`. -/
def fails (s : Admission) (cause : Cause) : Admission :=
  let settled := if s.canceled = true then .fulfilled () else .pending
  ({ s with call := .canceling (s.failure cause) settled }).cancel

/-- The owner still owns the reservation. -/
def ownsExecution (s : Admission) : Bool := !s.stopped && s.reservation == .owned

/-- The output owner is not parked any more. -/
def outputEnded (s : Admission) : Bool := s.execution.any fun e => e.state != .parked

/-- The final authority checks, in their order. -/
def entryRefusal (s : Admission) : Option Cause :=
  if s.current = false then some .abort
  else if s.unusable.isSome = true then s.unusable
  else if s.aborted.isSome = true then s.aborted
  else if s.late = true then some (.contract .native_continuation_reader_not_ready)
  else if s.callbackFailure = true then some (.contract .native_continuation_reader_not_ready)
  else if s.outcomeFailure = true ∨ s.earlyOutcome.isSome = true then
    some (.contract .invalid_native_continuation)
  else if s.reservation ≠ .none ∧ s.ownsExecution = false then
    some (.contract .invalid_native_continuation)
  else if s.outputEnded = true then some (.contract .native_continuation_reader_not_ready)
  else none

/-- `admitDispatch` and `value.dispatch()`. -/
def dispatch (s : Admission) : Admission :=
  { s with
    entered := true
    dispatches := s.dispatches + 1
    execution := s.execution.map Execution.admitDispatch
    call := .answering }

/-- The only answer entry, without a yield after its checks. -/
def enters (s : Admission) : Admission :=
  match s.entryRefusal with
  | some cause => s.fails cause
  | none => s.dispatch

/-- What the synchronous calls of the native branch do: whether the tuple is
supported and the slot free, what creating and installing the execution throws,
and what `onExecution` throws. -/
structure Host where
  supported : Bool := true
  free : Bool := true
  creation : Option Cause := none
  callback : Option Cause := none
  deriving DecidableEq

/-- After the preparation: the native branch up to its `await`. -/
def installs (s : Admission) (host : Host) : Admission :=
  if host.supported = false then s.fails (.contract .unsupported_or_unusable)
  else if s.stopped = true ∨ host.free = false then s.fails (.contract .unsupported_or_unusable)
  else
    let s := { s with reservation := .owned }
    match host.creation with
    | some cause => s.fails cause
    | none =>
      { s with
        execution := some {}
        callback := some (match host.callback with
          | some cause => .rejected cause
          | none => .pending)
        callbackFailure := host.callback.isSome
        call := .reading (match s.aborted with
          | some reason => .rejected reason
          | none => .pending) }

/-- After the preparation. -/
def admits (s : Admission) (host : Host) : Admission :=
  if s.current = false then s.fails .abort
  else match s.unusable with
  | some cause => s.fails cause
  | none =>
    if s.outcomeFailure = true ∨ s.earlyOutcome.isSome = true then
      s.fails (.contract .invalid_native_continuation)
    else if s.preparation = .fulfilled .native_continuation then s.installs host
    else s.enters

/-- The end of the call: `finally` drops the cleanup of a canceled preparation. -/
def throws (s : Admission) (failure : Cause) (cleanup : Bool) : Admission :=
  { s with call := .threw failure cleanup, retained := s.retained && !s.canceled }

/-- A continuation of the call. -/
def resume (s : Admission) (host : Host) : Admission :=
  match s.call with
  | .preparing (.fulfilled _) => s.admits host
  | .preparing (.rejected cause) => s.fails cause
  | .reading (.fulfilled _) => s.enters
  | .reading (.rejected cause) => s.fails cause
  | .canceling failure (.fulfilled _) =>
    if failure = .contract .invalid_native_continuation then (s.stop failure).throws failure false
    else s.throws failure false
  | .canceling failure (.rejected _) => (s.stop failure).throws failure true
  | _ => s

/-- The call returns the receipt or throws after the entry. -/
def answers (s : Admission) : Admission :=
  if s.call = .answering then { s with call := .answered, retained := false } else s

/-- `retryCleanup` of the error the call threw. -/
def retryCleanup (s : Admission) : Admission :=
  match s.call, s.preparation with
  | .threw _ true, .fulfilled _ => s.cancel
  | _, _ => s

/-! ## Promises -/

/-- The first microtask of `actualPreparation`. -/
def request (s : Admission) : Admission :=
  if s.requested = false ∧ s.preparation = .pending then
    if s.current = false then { s with preparation := .rejected .abort }
    else match s.unusable with
    | some cause => { s with preparation := .rejected cause }
    | none => { s with requested := true }
  else s

/-- `prepareResponse` settles with a response that was captured, or fails. -/
def prepare (s : Admission) (result : Settlement ResponseKind) : Admission :=
  if s.requested = true ∧ s.preparation = .pending then { s with preparation := result } else s

/-- The native outcome settles; `none` is a rejected or invalid one. -/
def observeOutcome (s : Admission) (value : Option ContinuationOutcome) : Admission :=
  if s.preparation = .fulfilled .native_continuation ∧ s.outcome = .pending then
    let failed := Settlement.rejected (.contract .invalid_native_continuation)
    { s with
      earlyOutcome := if s.entered = true then s.earlyOutcome else s.earlyOutcome.or value
      outcome := match value with
        | some .not_started => .fulfilled .not_started
        | some .started => if s.entered = true then .fulfilled .started else failed
        | none => failed }
  else s

/-- The reaction that records a failed outcome. -/
def recordOutcome (s : Admission) : Admission :=
  match s.outcome with
  | .rejected cause =>
    if s.entered = true then stop { s with outcomeFailure := true } cause
    else { s with outcomeFailure := true }
  | _ => s

/-- The preparation settles the first `until`. -/
def preparationReady (s : Admission) : Admission :=
  match s.call, s.preparation with
  | .preparing _, .fulfilled _ => { s with call := s.call.settle (.fulfilled ()) }
  | .preparing _, .rejected cause => { s with call := s.call.settle (.rejected cause) }
  | _, _ => s

/-- The reader's first pull settles the second `until`. -/
def readerReady (s : Admission) : Admission :=
  match s.call with
  | .reading _ =>
    if s.execution.any Execution.ready = true then
      { s with call := s.call.settle (.fulfilled ()) }
    else s
  | _ => s

/-- The host's rejection settles the second `until`. -/
def rejectionReady (s : Admission) : Admission :=
  match s.call, s.callback with
  | .reading _, some (.rejected cause) => { s with call := s.call.settle (.rejected cause) }
  | _, _ => s

def settleUntil (s : Admission) (cause : Cause) : Admission :=
  { s with call := s.call.settle (.rejected cause) }

/-- The timer of the readiness deadline. -/
def readinessTimer (s : Admission) : Admission :=
  if s.late = true then
    match s.call with
    | .preparing _ => s.settleUntil (.contract .native_continuation_preparation_failed)
    | .reading _ => s.settleUntil (.contract .native_continuation_reader_not_ready)
    | _ => s
  else s

/-- The host's callback settles. -/
def settleCallback (s : Admission) (result : Settlement Unit) : Admission :=
  if s.callback = some .pending then { s with callback := some result } else s

/-- The reaction that records the host's rejection. -/
def recordCallback (s : Admission) : Admission :=
  match s.callback with
  | some (.rejected cause) =>
    if s.entered = true then stop { s with callbackFailure := true } cause
    else { s with callbackFailure := true }
  | _ => s

/-- After the entry, the execution is joined once its outcome, its output, the
receipt and the callback have settled. -/
def release (s : Admission) : Admission :=
  match s.outcome with
  | .fulfilled _ =>
    if s.entered = true ∧ s.reservation = .owned ∧ s.completed = true ∧ s.receiptSettled = true ∧
        s.callback ≠ some .pending then
      { s with
        reservation := .released
        execution := s.execution.map fun e => { e with joined := true } }
    else s
  | _ => s

end Admission

/-! ## Steps -/

inductive AdmissionEvent
  | loseCurrent
  | fence (cause : Cause)
  | stop (cause : Cause)
  | abort (reason : Cause)
  | readinessPassed
  | request
  | prepare (result : Settlement ResponseKind)
  | outcome (value : Option ContinuationOutcome)
  | recordOutcome
  | preparationReady
  | readerReady
  | rejectionReady
  | readinessTimer
  | resume (host : Admission.Host)
  | pull
  | endOutput
  | callback (result : Settlement Unit)
  | recordCallback
  | cancelPrepared
  | cancelSettled (fulfilled : Bool)
  | executionJoined (fulfilled : Bool)
  | cancelOutcome
  | cancelCallback
  | cleanupDeadline
  | cleanup
  | retryCleanup
  | answers
  | receipt
  | complete
  | release
  deriving DecidableEq

namespace Admission

def step (s : Admission) : AdmissionEvent → Admission
  | .loseCurrent => { s with current := false }
  | .fence cause => { s with unusable := s.unusable.or (some cause) }
  | .stop cause => s.stop cause
  | .abort reason => s.abort reason
  | .readinessPassed => { s with late := true }
  | .request => s.request
  | .prepare result => s.prepare result
  | .outcome value => s.observeOutcome value
  | .recordOutcome => s.recordOutcome
  | .preparationReady => s.preparationReady
  | .readerReady => s.readerReady
  | .rejectionReady => s.rejectionReady
  | .readinessTimer => s.readinessTimer
  | .resume host => s.resume host
  | .pull => { s with execution := s.execution.map Execution.pull }
  | .endOutput => { s with execution := s.execution.map Execution.stop }
  | .callback result => s.settleCallback result
  | .recordCallback => s.recordCallback
  | .cancelPrepared => s.cancelPrepared
  | .cancelSettled fulfilled => s.cancelSettled fulfilled
  | .executionJoined fulfilled => s.executionJoined fulfilled
  | .cancelOutcome => s.cancelOutcome
  | .cancelCallback => s.cancelCallback
  | .cleanupDeadline => { s with call := s.call.cleanup (.rejected .other) }
  | .cleanup => s.cleanup
  | .retryCleanup => s.retryCleanup
  | .answers => s.answers
  | .receipt => if s.entered = true then { s with receiptSettled := true } else s
  | .complete => if s.entered = true then { s with completed := true } else s
  | .release => s.release

/-- The state after a list of events. -/
def after (events : List AdmissionEvent) : Admission := Machine.run step {} events

end Admission

end AgentSdk.Runtime.Prepared
