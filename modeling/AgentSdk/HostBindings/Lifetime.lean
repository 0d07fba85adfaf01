import AgentSdk.Lib.Machine
import AgentSdk.Lib.Text
import Mathlib.Data.List.Nodup

/-!
# The lifetime of a host binding

A binding of the host is claimed by one opening, which invokes it through a facade
and releases it at the end.  Calls on the lease run to their end; what they leave
behind for later is a step of its own, in any order.

## Main definitions

* `Lifetime.step` — the calls on a lease and the steps behind them.
* `Runtime.step` — the claims of binding objects.
-/

namespace AgentSdk.HostBindings

open AgentSdk.Text

/-! ## The state of a lease -/

inductive InvocationStage where
  /-- The host is not called yet. -/
  | admitted
  /-- The host has been called and has not settled. -/
  | running
  /-- The result is there; the invocation is about to be deleted. -/
  | finishing
  deriving DecidableEq

/-- An invocation whose promise has not settled. -/
structure Invocation where
  promise : Nat
  invocationId : JsString
  /-- The signal of the caller is aborted. -/
  callerAborted : Bool
  stage : InvocationStage

inductive ReleaseStage where
  | queued
  /-- The promises that were active when the release looked. -/
  | waiting (snapshot : List Nat)
  /-- The release callback of the host has been called and has not settled. -/
  | calling
  | succeeded
  | failed
  deriving DecidableEq

/-- A lease, with its promises that have not settled: `active` are invocations, `releases` are
releases. -/
structure Lifetime where
  facade : Bool
  aborted : Bool
  invocations : List (JsString × Nat)
  active : List Invocation
  released : Bool
  releasePromise : Option Nat
  releases : List (Nat × ReleaseStage)
  nextPromise : Nat

/-- A lease as it is claimed. -/
def Lifetime.claimed : Lifetime where
  facade := false
  aborted := false
  invocations := []
  active := []
  released := false
  releasePromise := none
  releases := []
  nextPromise := 0

/-! ## Invocations -/

inductive BindingError where
  | contract (code message : String)
  | abort
  deriving DecidableEq

/-- What an invocation is admitted by; its data are valid or not. -/
structure InvocationCall where
  invocationId : JsString
  valid : Bool
  /-- The signal of the caller, if there is one, is aborted. -/
  aborted : Bool

namespace Lifetime

/-- The checks of `invoke`, behind the one of the facade. -/
def admission (s : Lifetime) (call : InvocationCall) : Except BindingError Unit :=
  if s.facade = false then
    .error (.contract "invalid_host_binding" "Host binding has not been initialized.")
  else if s.aborted then
    .error (.contract "host_binding_closed" "Host binding no longer accepts invocations.")
  else if call.valid = false then
    .error (.contract "host_tool_input_invalid" "Host tool invocation has invalid arguments.")
  else if call.aborted then .error .abort
  else if call.invocationId ∈ s.invocations.map Prod.fst then
    .error (.contract "host_tool_input_invalid" "Host tool invocation is already active.")
  else if 16 ≤ s.invocations.length then
    .error (.contract "host_tool_capacity_exhausted"
      "Host binding has reached its invocation limit.")
  else .ok ()

/-- An admitted invocation calls the host later. -/
def invoke (s : Lifetime) (call : InvocationCall) : Lifetime :=
  match s.admission call with
  | .error _ => s
  | .ok () =>
    { s with
      invocations := s.invocations ++ [(call.invocationId, s.nextPromise)]
      active := s.active ++
        [{ promise := s.nextPromise, invocationId := call.invocationId, callerAborted := false,
           stage := .admitted }]
      nextPromise := s.nextPromise + 1 }

/-- Change the invocation of a promise. -/
def change (s : Lifetime) (promise : Nat) (f : Invocation → Invocation) : Lifetime :=
  { s with active := s.active.map fun i => if i.promise = promise then f i else i }

/-- The signal of an invocation is aborted. -/
def signalAborted (s : Lifetime) (i : Invocation) : Bool := s.aborted || i.callerAborted

/-- The host is called unless the signal is aborted; it may throw at once. -/
def begun (s : Lifetime) (throws : Bool) (i : Invocation) : Invocation :=
  if i.stage = .admitted then
    { i with stage := if s.signalAborted i || throws then .finishing else .running }
  else i

/-- The host settled, and its result became a result of the invocation or an error. -/
def settled (i : Invocation) : Invocation :=
  if i.stage = .running then { i with stage := .finishing } else i

/-- The invocation is deleted under its identity, and its promise settles. -/
def finish (s : Lifetime) (promise : Nat) : Lifetime :=
  match s.active.find? fun i => i.promise = promise && i.stage = .finishing with
  | none => s
  | some i =>
    { s with
      invocations := s.invocations.filter fun entry => entry.1 ≠ i.invocationId
      active := s.active.filter fun other => other.promise ≠ promise }

/-! ## Releases -/

def stop (s : Lifetime) : Lifetime := { s with aborted := true }

/-- A release that is under way is shared.  The event of the abort reaches no one who holds the
lease. -/
def release (s : Lifetime) : Lifetime :=
  if s.released = true ∨ s.releasePromise.isSome = true then s
  else
    { s.stop with
      releasePromise := some s.nextPromise
      releases := s.releases ++ [(s.nextPromise, .queued)]
      nextPromise := s.nextPromise + 1 }

/-- Move a release from its stage. -/
def advance (s : Lifetime) (promise : Nat) (next : ReleaseStage → ReleaseStage) : Lifetime :=
  { s with
    releases := s.releases.map fun r => if r.1 = promise then (r.1, next r.2) else r }

/-- The release looks which invocations are active. -/
def looked (s : Lifetime) : ReleaseStage → ReleaseStage
  | .queued => .waiting (s.invocations.map Prod.snd)
  | stage => stage

/-- All promises of a snapshot have settled. -/
def allSettled (s : Lifetime) (snapshot : List Nat) : Bool :=
  s.active.all fun i => i.promise ∉ snapshot

/-- The callback of the host is called once the snapshot has settled. -/
def called (s : Lifetime) : ReleaseStage → ReleaseStage
  | .waiting snapshot => if s.allSettled snapshot then .calling else .waiting snapshot
  | stage => stage

/-- The callback settled. -/
def answered (succeeds : Bool) : ReleaseStage → ReleaseStage
  | .calling => if succeeds then .succeeded else .failed
  | stage => stage

/-- A release of the promise is in a stage. -/
def releaseIs (s : Lifetime) (promise : Nat) (p : ReleaseStage → Bool) : Bool :=
  s.releases.any fun r => r.1 = promise && p r.2

def isCalling : ReleaseStage → Bool
  | .calling => true
  | _ => false

/-- The callback is about to be called. -/
def isReady (s : Lifetime) : ReleaseStage → Bool
  | .waiting snapshot => s.allSettled snapshot
  | _ => false

def isDone : ReleaseStage → Bool
  | .succeeded | .failed => true
  | _ => false

def answer (s : Lifetime) (promise : Nat) (succeeds : Bool) : Lifetime :=
  { s.advance promise (answered succeeds) with
    released := s.released || (succeeds && s.releaseIs promise isCalling) }

/-- The promise of a release settles either way; another release may follow. -/
def finishRelease (s : Lifetime) (promise : Nat) : Lifetime :=
  if s.releaseIs promise isDone then
    { s with releasePromise := none, releases := s.releases.filter fun r => r.1 ≠ promise }
  else s

end Lifetime

/-! ## Runs of a lease -/

/-- The calls on a lease, and what happens behind them.  A failed opening stops and releases its
lease, and keeps `release` for a retry. -/
inductive Event where
  | initializeFacade (succeeds : Bool)
  | invoke (call : InvocationCall)
  | abortCaller (promise : Nat)
  | callHost (promise : Nat) (throws : Bool)
  | settle (promise : Nat)
  | finish (promise : Nat)
  | stop
  | release
  | look (promise : Nat)
  | callRelease (promise : Nat)
  | answerRelease (promise : Nat) (succeeds : Bool)
  | finishRelease (promise : Nat)

namespace Lifetime

def step (s : Lifetime) : Event → Lifetime
  | .initializeFacade succeeds => { s with facade := s.facade || succeeds }
  | .invoke call => s.invoke call
  | .abortCaller promise => s.change promise fun i => { i with callerAborted := true }
  | .callHost promise throws => s.change promise (s.begun throws)
  | .settle promise => s.change promise settled
  | .finish promise => s.finish promise
  | .stop => s.stop
  | .release => s.release
  | .look promise => s.advance promise s.looked
  | .callRelease promise => s.advance promise s.called
  | .answerRelease promise succeeds => s.answer promise succeeds
  | .finishRelease promise => s.finishRelease promise

abbrev run (s : Lifetime) (events : List Event) : Lifetime := Machine.run step s events

/-- The step calls the `invoke` of the host. -/
def callsInvoke (s : Lifetime) : Event → Bool
  | .callHost promise _ =>
    s.active.any fun i =>
      i.promise = promise && i.stage = .admitted && !s.signalAborted i
  | _ => false

/-- The step calls the `release` of the host. -/
def callsRelease (s : Lifetime) : Event → Bool
  | .callRelease promise => s.releaseIs promise s.isReady
  | _ => false

/-- The step is the success of a release callback. -/
def succeeds (s : Lifetime) : Event → Bool
  | .answerRelease promise true => s.releaseIs promise isCalling
  | _ => false

end Lifetime

/-! ## Claims of bindings -/

/-- A binding object and the opening that claimed it. -/
structure Lease (β ω : Type) where
  binding : β
  opening : ω
  lifetime : Lifetime

structure Runtime (β ω : Type) where
  claimedBindings : List β
  leases : List (Lease β ω)

inductive RuntimeEvent (β ω : Type) where
  | claim (binding : β) (opening : ω) (valid : Bool)
  | lease (binding : β) (opening : ω) (event : Event)

namespace Runtime

variable {β ω : Type} [DecidableEq β] [DecidableEq ω]

def start : Runtime β ω := { claimedBindings := [], leases := [] }

def claimBinding (s : Runtime β ω) (binding : β) (opening : ω) (valid : Bool) :
    Except BindingError (Runtime β ω) :=
  if valid = false then
    .error (.contract "invalid_host_binding"
      "Host binding requires a valid identity and callable ownership ports.")
  else if binding ∈ s.claimedBindings then
    .error (.contract "host_binding_reused" "Host binding is already claimed by a session opening.")
  else
    .ok
      { claimedBindings := s.claimedBindings ++ [binding]
        leases := s.leases ++ [{ binding, opening, lifetime := .claimed }] }

def step (s : Runtime β ω) : RuntimeEvent β ω → Runtime β ω
  | .claim binding opening valid =>
    match s.claimBinding binding opening valid with
    | .ok s' => s'
    | .error _ => s
  | .lease binding opening event =>
    { s with
      leases := s.leases.map fun l =>
        if l.binding = binding ∧ l.opening = opening then
          { l with lifetime := l.lifetime.step event }
        else l }

abbrev run (events : List (RuntimeEvent β ω)) : Runtime β ω := Machine.run step start events

end Runtime

end AgentSdk.HostBindings
