import AgentSdk.Runtime.PreparedResponse
import Mathlib.Tactic.Common

/-!
# Entering a prepared response

The call enters the provider at most once, and only while every promise and
authority it depends on stands; otherwise its cancellation runs once at a time
and ends once.  The invariant says how far a cancellation attempt has come and
that no attempt runs beside a call that may still enter.

## Main results

* `Admission.Sound.step` — every step keeps the invariant.
-/

namespace AgentSdk.Runtime.Prepared

/-- The call has not entered the provider and has not failed. -/
def Call.waiting : Call → Bool
  | .preparing _ => true
  | .reading _ => true
  | _ => false

/-- The call entered the provider. -/
def Call.entered : Call → Bool
  | .answering => true
  | .answered => true
  | _ => false

/-- How many awaits of a cancellation attempt are behind it. -/
def Attempt.rank : Attempt → Nat
  | .preparation => 0
  | .value => 1
  | .execution => 2
  | .outcome => 3
  | .callback => 4

/-- What a cancellation attempt has behind it. -/
structure Behind (preparation : Settlement ResponseKind) (outcome : Settlement ContinuationOutcome)
    (execution : Option Execution) (callback : Option (Settlement Unit))
    (cancels cancellations rank : Nat) : Prop where
  prepared : 1 ≤ rank → ∃ k, preparation = .fulfilled k
  called : 1 ≤ rank → 1 ≤ cancels
  canceled : 2 ≤ rank → 1 ≤ cancellations
  joined : 3 ≤ rank → ∀ e, execution = some e → e.joined = true
  noWork : 4 ≤ rank → preparation = .fulfilled .native_continuation →
    outcome = .fulfilled .not_started
  callback : 5 ≤ rank → callback ≠ some .pending

namespace Admission

def Progress (s : Admission) (rank : Nat) : Prop :=
  Behind s.preparation s.outcome s.execution s.callback s.cancels s.cancellations rank

structure Sound (s : Admission) : Prop where
  once : s.dispatches = if s.entered = true then 1 else 0
  phase : s.call.entered = s.entered
  stopped : s.stopped = true → s.unusable.isSome = true
  uncanceled : s.entered = true → s.attempt = none ∧ s.canceled = false ∧ s.cancels = 0
  aborted : (s.attempt.isSome = true ∨ s.canceled = true ∨ 1 ≤ s.cancels) →
    s.aborted.isSome = true
  owned : (s.attempt.isSome = true ∨ s.canceled = true) → s.call.waiting = true → s.stopped = true
  flight : s.canceling = if s.attempt = some .value then 1 else 0
  progress : ∀ stage, s.attempt = some stage → s.Progress stage.rank
  success : s.canceled = true → s.attempt = none ∧ s.Progress 5 ∧ s.reservation ≠ .owned
  released : s.reservation = .released → s.entered = true ∨ s.canceled = true
  retained : s.retained = true ∨ s.entered = true ∨ s.canceled = true ∨
    ∃ cause, s.preparation = .rejected cause
  resolved : s.call = .preparing (.fulfilled ()) → ∃ k, s.preparation = .fulfilled k
  preparing : ∀ settled, s.call = .preparing settled →
    s.reservation = .none ∧ s.execution = none ∧ s.callback = none ∧ s.callbackFailure = false
  native : s.reservation ≠ .none → s.preparation = .fulfilled .native_continuation
  reading : ∀ settled, s.call = .reading settled → s.reservation ≠ .none ∧ s.execution.isSome = true
  ready : s.call = .reading (.fulfilled ()) → ∃ e, s.execution = some e ∧ e.ready = true
  pull : ∀ e, s.execution = some e → e.state = .parked → e.ready = true → e.pulling = true

variable {s : Admission}

theorem sound_empty : Sound {} := by
  constructor <;> simp [Call.entered, Call.waiting]

/-! ## Changes of one part -/

@[simp] theorem entered_settle (call : Call) (result : Settlement Unit) :
    (call.settle result).entered = call.entered := by
  cases call <;> rfl

@[simp] theorem waiting_settle (call : Call) (result : Settlement Unit) :
    (call.settle result).waiting = call.waiting := by
  cases call <;> rfl

variable {call : Call} {result settled : Settlement Unit}

theorem settle_eq_preparing (h : call.settle result = .preparing settled) :
    ∃ before, call = .preparing before ∧ settled = before.settle result := by
  cases call <;> simp_all [Call.settle]

theorem settle_eq_reading (h : call.settle result = .reading settled) :
    ∃ before, call = .reading before ∧ settled = before.settle result := by
  cases call <;> simp_all [Call.settle]

/-- `until` resolves only when it is resolved. -/
theorem settle_eq_fulfilled {before : Settlement Unit} (h : before.settle result = .fulfilled ()) :
    before = .fulfilled () ∨ result = .fulfilled () := by
  cases before <;> simp_all [Settlement.settle]

/-- The `until` before the entry settles. -/
theorem Sound.settles (h : s.Sound) (result : Settlement Unit)
    (hprepared : result = .fulfilled () → ∀ settled, s.call = .preparing settled →
      ∃ k, s.preparation = .fulfilled k)
    (hready : result = .fulfilled () → ∀ settled, s.call = .reading settled →
      ∃ e, s.execution = some e ∧ e.ready = true) :
    Sound { s with call := s.call.settle result } :=
  { h with
    phase := (entered_settle _ _).trans h.phase
    owned := fun hattempt hwaiting => h.owned hattempt ((waiting_settle _ _).symm.trans hwaiting)
    resolved := fun hcall => by
      have ⟨before, hbefore, hsettled⟩ := settle_eq_preparing hcall
      rcases settle_eq_fulfilled hsettled.symm with hdone | hnow
      · exact h.resolved (hdone ▸ hbefore)
      · exact hprepared hnow before hbefore
    preparing := fun settled hcall => by
      have ⟨before, hbefore, _⟩ := settle_eq_preparing hcall
      exact h.preparing before hbefore
    reading := fun settled hcall => by
      have ⟨before, hbefore, _⟩ := settle_eq_reading hcall
      exact h.reading before hbefore
    ready := fun hcall => by
      have ⟨before, hbefore, hsettled⟩ := settle_eq_reading hcall
      rcases settle_eq_fulfilled hsettled.symm with hdone | hnow
      · exact h.ready (hdone ▸ hbefore)
      · exact hready hnow before hbefore }

theorem Sound.rejects (h : s.Sound) (cause : Cause) :
    Sound { s with call := s.call.settle (.rejected cause) } :=
  h.settles _ (by simp) (by simp)

/-- What a change of the execution keeps. -/
structure Keeps (f : Execution → Execution) : Prop where
  joined : ∀ e : Execution, e.joined = true → (f e).joined = true
  ready : ∀ e : Execution, e.ready = true → (f e).ready = true
  pull : ∀ e : Execution, (e.state = .parked → e.ready = true → e.pulling = true) →
    (f e).state = .parked → (f e).ready = true → (f e).pulling = true

theorem keeps_stop : Keeps Execution.stop := by
  constructor
  · intro e he
    unfold Execution.stop
    split <;> exact he
  · intro e he
    unfold Execution.stop
    split <;> exact he
  · intro e _ hparked
    unfold Execution.stop at hparked ⊢
    split at hparked <;> simp_all

theorem keeps_pull : Keeps Execution.pull := by
  constructor
  · intro e he
    unfold Execution.pull
    split <;> exact he
  · intro e he
    unfold Execution.pull
    split
    · rfl
    · exact he
  · intro e he
    unfold Execution.pull
    split
    · exact fun _ _ => rfl
    · exact he

theorem keeps_settleNoWork : Keeps Execution.settleNoWork :=
  ⟨fun _ he => he, fun _ he => he, fun _ _ hparked => by cases hparked⟩

theorem keeps_joined : Keeps fun e => { e with joined := true } :=
  ⟨fun _ _ => rfl, fun _ he => he, fun _ he => he⟩

theorem Progress.executes {rank : Nat} (h : s.Progress rank) {f : Execution → Execution}
    (hf : Keeps f) : Progress { s with execution := s.execution.map f } rank :=
  { h with
    joined := fun hrank e he => by
      have ⟨before, hbefore, hsame⟩ := Option.map_eq_some_iff.mp he
      exact hsame ▸ hf.joined before (h.joined hrank before hbefore) }

theorem Sound.executes (h : s.Sound) {f : Execution → Execution} (hf : Keeps f) :
    Sound { s with execution := s.execution.map f } :=
  { h with
    progress := fun stage hstage => (h.progress stage hstage).executes hf
    success := fun hcanceled => by
      have ⟨hnone, hdone, howned⟩ := h.success hcanceled
      exact ⟨hnone, hdone.executes hf, howned⟩
    preparing := fun settled hcall => by
      have ⟨hreservation, hexecution, hrest⟩ := h.preparing settled hcall
      exact ⟨hreservation, by simp [hexecution], hrest⟩
    reading := fun settled hcall => by
      have ⟨hreservation, hexecution⟩ := h.reading settled hcall
      exact ⟨hreservation, by simpa using hexecution⟩
    ready := fun hcall => by
      have ⟨e, he, hready⟩ := h.ready hcall
      exact ⟨f e, by simp [he], hf.ready e hready⟩
    pull := fun e he => by
      have ⟨before, hbefore, hsame⟩ := Option.map_eq_some_iff.mp he
      exact hsame ▸ hf.pull before (h.pull before hbefore) }

/-! ## The session -/

theorem Sound.fences (h : s.Sound) (cause : Cause) :
    Sound { s with unusable := s.unusable.or (some cause) } :=
  { h with stopped := fun _ => by simp }

theorem Sound.abort (h : s.Sound) (reason : Cause) : (s.abort reason).Sound :=
  { h.rejects reason with aborted := fun _ => by simp [Admission.abort] }

theorem Sound.stop (h : s.Sound) (cause : Cause) : (s.stop cause).Sound :=
  { ((h.executes keeps_stop).rejects .abort) with
    stopped := fun _ => by simp [Admission.stop]
    aborted := fun _ => by simp [Admission.stop]
    owned := fun _ _ => rfl }

/-! ## Cancellation -/

theorem Sound.idle (h : s.Sound) (hstage : s.attempt ≠ some .value) : s.canceling = 0 := by
  have hflight := h.flight
  rwa [if_neg hstage] at hflight

theorem Sound.cancelValue (h : s.Sound) (hentered : s.entered = false)
    (hcanceled : s.canceled = false) (hstage : s.attempt ≠ some .value)
    (haborted : s.aborted.isSome = true) (howned : s.call.waiting = true → s.stopped = true)
    (hprepared : ∃ k, s.preparation = .fulfilled k) : s.cancelValue.Sound :=
  { h.executes keeps_stop with
    uncanceled := fun he => absurd (hentered.symm.trans he) (by simp)
    aborted := fun _ => haborted
    owned := fun _ => howned
    flight := by simp [Admission.cancelValue, h.idle hstage]
    progress := fun stage hattempt => by
      have heq : Attempt.value = stage := Option.some.inj hattempt
      subst heq
      constructor
      case prepared => exact fun _ => hprepared
      case called => exact fun _ => Nat.le_add_left 1 s.cancels
      all_goals simp [Attempt.rank]
    success := fun hdone => absurd (hcanceled.symm.trans hdone) (by simp) }

theorem Sound.cancel (h : s.Sound) (hentered : s.entered = false)
    (howned : s.call.waiting = true → s.stopped = true) : s.cancel.Sound := by
  have haborted := h.abort .abort
  have hwaiting : (s.abort .abort).call.waiting = true → s.stopped = true := fun hw =>
    howned ((waiting_settle _ _).symm.trans hw)
  unfold Admission.cancel
  split
  · exact h
  next hfree =>
    have ⟨hcanceled, hnone⟩ : s.canceled = false ∧ s.attempt = none := by simpa using hfree
    simp only
    split
    next k hprepared =>
      refine haborted.cancelValue hentered hcanceled ?_ (by simp [Admission.abort]) hwaiting
        ⟨k, hprepared⟩
      simp [Admission.abort, hnone]
    · exact { haborted with
        uncanceled := fun he => absurd (hentered.symm.trans he) (by simp)
        aborted := fun _ => by simp [Admission.abort]
        owned := fun _ => hwaiting
        flight := (h.idle (by simp [hnone])).trans (by simp)
        progress := fun stage hattempt => by
          have heq : Attempt.preparation = stage := Option.some.inj hattempt
          subst heq
          constructor <;> simp [Attempt.rank]
        success := fun hdone => absurd (hcanceled.symm.trans hdone) (by simp) }

@[simp] theorem entered_cleanup (call : Call) (result : Settlement Unit) :
    (call.cleanup result).entered = call.entered := by
  cases call <;> rfl

@[simp] theorem waiting_cleanup (call : Call) (result : Settlement Unit) :
    (call.cleanup result).waiting = call.waiting := by
  cases call <;> rfl

theorem cleanup_eq_preparing (h : call.cleanup result = .preparing settled) :
    call = .preparing settled := by
  cases call <;> simp_all [Call.cleanup]

theorem cleanup_eq_reading (h : call.cleanup result = .reading settled) :
    call = .reading settled := by
  cases call <;> simp_all [Call.cleanup]

/-- The `until` of the catch block settles. -/
theorem Sound.cleans (h : s.Sound) (result : Settlement Unit) :
    Sound { s with call := s.call.cleanup result } :=
  { h with
    phase := (entered_cleanup _ _).trans h.phase
    owned := fun hattempt hwaiting => h.owned hattempt ((waiting_cleanup _ _).symm.trans hwaiting)
    resolved := fun hcall => h.resolved (cleanup_eq_preparing hcall)
    preparing := fun settled hcall => h.preparing settled (cleanup_eq_preparing hcall)
    reading := fun settled hcall => h.reading settled (cleanup_eq_reading hcall)
    ready := fun hcall => h.ready (cleanup_eq_reading hcall) }

/-- An attempt ends once its call of `value.cancel` has settled. -/
theorem Sound.endAttempt (h : s.Sound) (result : Settlement Unit) {canceling : Nat}
    (hsettled : canceling = 0) :
    (({ s with canceling := canceling } : Admission).endAttempt result).Sound :=
  { h.cleans result with
    uncanceled := fun he => ⟨rfl, (h.uncanceled he).2⟩
    aborted := fun hany => h.aborted (hany.imp_left fun hno => by cases hno)
    owned := fun hany hwaiting => h.owned (hany.imp_left fun hno => by cases hno)
      ((waiting_cleanup _ _).symm.trans hwaiting)
    flight := hsettled
    progress := fun stage hstage => by cases hstage
    success := fun hcanceled => ⟨rfl, (h.success hcanceled).2⟩ }

theorem Sound.failAttempt (h : s.Sound) (hstage : s.attempt ≠ some .value) :
    s.failAttempt.Sound :=
  h.endAttempt (.rejected .other) (h.idle hstage)

/-- A cancellation attempt excludes the entry and a success. -/
theorem Sound.attempting (h : s.Sound) {stage : Attempt} (hstage : s.attempt = some stage) :
    s.entered = false ∧ s.canceled = false ∧ s.aborted.isSome = true ∧
      (s.call.waiting = true → s.stopped = true) := by
  have hsome : s.attempt.isSome = true := by simp [hstage]
  refine ⟨?_, ?_, h.aborted (.inl hsome), h.owned (.inl hsome)⟩
  · by_contra hentered
    have hnone := (h.uncanceled (by simpa using hentered)).1
    simp [hstage] at hnone
  · by_contra hcanceled
    have hnone := (h.success (by simpa using hcanceled)).1
    simp [hstage] at hnone

theorem Sound.cancelPrepared (h : s.Sound) : s.cancelPrepared.Sound := by
  unfold Admission.cancelPrepared
  split
  next hstage =>
    have ⟨hentered, hcanceled, haborted, howned⟩ := h.attempting hstage
    split
    · exact h
    next k hprepared =>
      exact h.cancelValue hentered hcanceled (by simp [hstage]) haborted howned ⟨k, hprepared⟩
    next cause hfailed =>
      have hdropped : Sound { s with retained := false } :=
        { h with retained := .inr (.inr (.inr ⟨cause, hfailed⟩)) }
      refine (hdropped.stop cause).failAttempt ?_
      simp [Admission.stop, hstage]
  · exact h

/-- An attempt goes on to a later stage. -/
theorem Sound.advances (h : s.Sound) {stage next : Attempt} (hstage : s.attempt = some stage)
    (hnext : next ≠ .value) (hidle : stage ≠ .value) (hprogress : s.Progress next.rank) :
    Sound { s with attempt := some next } := by
  have ⟨hentered, hcanceled, haborted, howned⟩ := h.attempting hstage
  exact { h with
    uncanceled := fun he => absurd (hentered.symm.trans he) (by simp)
    aborted := fun _ => haborted
    owned := fun _ => howned
    flight := by
      have hzero := h.idle (by simp [hstage, hidle])
      simp [hzero, hnext]
    progress := fun stage hattempt => by
      have heq : next = stage := Option.some.inj hattempt
      exact heq ▸ hprogress
    success := fun hdone => absurd (hcanceled.symm.trans hdone) (by simp) }

theorem Sound.cancelSettled (h : s.Sound) (fulfilled : Bool) :
    (s.cancelSettled fulfilled).Sound := by
  unfold Admission.cancelSettled
  split
  next hstage =>
    have hflight : s.canceling = 1 := by
      have hone := h.flight
      rwa [if_pos hstage] at hone
    have hzero : s.canceling - 1 = 0 := by omega
    split
    · have ⟨hentered, hcanceled, haborted, howned⟩ := h.attempting hstage
      have hbefore := h.progress _ hstage
      exact { h.executes keeps_settleNoWork with
        uncanceled := fun he => absurd (hentered.symm.trans he) (by simp)
        aborted := fun _ => haborted
        owned := fun _ => howned
        flight := by simp [hzero]
        progress := fun stage hattempt => by
          have heq : Attempt.execution = stage := Option.some.inj hattempt
          subst heq
          constructor
          case prepared => exact fun _ => hbefore.prepared (by simp [Attempt.rank])
          case called => exact fun _ => hbefore.called (by simp [Attempt.rank])
          case canceled => exact fun _ => Nat.le_add_left 1 s.cancellations
          all_goals simp [Attempt.rank]
        success := fun hdone => absurd (hcanceled.symm.trans hdone) (by simp) }
    · exact h.endAttempt (.rejected .other) hzero
  · exact h

theorem Sound.executionJoined (h : s.Sound) (fulfilled : Bool) :
    (s.executionJoined fulfilled).Sound := by
  unfold Admission.executionJoined
  split
  next hstage =>
    split
    · have hbefore := (h.progress _ hstage).executes keeps_joined
      have hjoined : ∀ e, s.execution.map (fun e => { e with joined := true }) = some e →
          e.joined = true := by
        intro e he
        have ⟨before, _, hsame⟩ := Option.map_eq_some_iff.mp he
        exact hsame ▸ rfl
      refine (h.executes keeps_joined).advances hstage ?_ (by simp) ?_
      · split <;> simp
      · constructor
        case prepared => exact fun _ => hbefore.prepared (by simp [Attempt.rank])
        case called => exact fun _ => hbefore.called (by simp [Attempt.rank])
        case canceled => exact fun _ => hbefore.canceled (by simp [Attempt.rank])
        case joined => exact fun _ => hjoined
        case noWork =>
          intro hrank hnative
          simp only at hnative
          simp [hnative, Attempt.rank] at hrank
        case callback =>
          intro hrank
          split at hrank <;> simp [Attempt.rank] at hrank
    · exact h.failAttempt (by simp [hstage])
  · exact h

theorem Sound.cancelOutcome (h : s.Sound) : s.cancelOutcome.Sound := by
  unfold Admission.cancelOutcome
  split
  next hstage =>
    split
    · exact h
    next houtcome =>
      have hbefore := h.progress _ hstage
      refine h.advances hstage (by simp) (by simp) ?_
      constructor
      case prepared => exact fun _ => hbefore.prepared (by simp [Attempt.rank])
      case called => exact fun _ => hbefore.called (by simp [Attempt.rank])
      case canceled => exact fun _ => hbefore.canceled (by simp [Attempt.rank])
      case joined => exact fun _ => hbefore.joined (by simp [Attempt.rank])
      case noWork => exact fun _ _ => houtcome
      case callback => simp [Attempt.rank]
    · exact h.failAttempt (by simp [hstage])
  · exact h

theorem release_ne_owned (r : Reservation) : r.release ≠ .owned := by
  cases r <;> simp [Reservation.release]

theorem release_eq_none {r : Reservation} : r.release = .none ↔ r = .none := by
  cases r <;> simp [Reservation.release]

theorem Sound.cancelCallback (h : s.Sound) : s.cancelCallback.Sound := by
  unfold Admission.cancelCallback
  split
  next hready =>
    have ⟨hstage, hcallback⟩ := hready
    have ⟨hentered, _, haborted, howned⟩ := h.attempting hstage
    have hbefore := h.progress _ hstage
    have hzero := h.idle (by simp [hstage])
    exact { h.endAttempt (.fulfilled ()) hzero with
      uncanceled := fun he => absurd (hentered.symm.trans he) (by simp)
      aborted := fun _ => haborted
      owned := fun _ hwaiting => howned ((waiting_cleanup _ _).symm.trans hwaiting)
      success := fun _ => ⟨rfl, ⟨fun _ => hbefore.prepared (by simp [Attempt.rank]),
        fun _ => hbefore.called (by simp [Attempt.rank]),
        fun _ => hbefore.canceled (by simp [Attempt.rank]),
        fun _ => hbefore.joined (by simp [Attempt.rank]),
        fun _ => hbefore.noWork (by simp [Attempt.rank]), fun _ => hcallback⟩,
        release_ne_owned s.reservation⟩
      released := fun _ => .inr rfl
      retained := .inr (.inr (.inl rfl))
      preparing := fun settled hcall => by
        have ⟨hnone, hrest⟩ := h.preparing settled (cleanup_eq_preparing hcall)
        exact ⟨release_eq_none.mpr hnone, hrest⟩
      native := fun hne => h.native fun hnone => hne (release_eq_none.mpr hnone)
      reading := fun settled hcall => by
        have ⟨hne, hrest⟩ := h.reading settled (cleanup_eq_reading hcall)
        exact ⟨fun hnone => hne (release_eq_none.mp hnone), hrest⟩ }
  · exact h

theorem Sound.cleanup (h : s.Sound) : s.cleanup.Sound := by
  unfold Admission.cleanup
  split
  next hready => exact h.cancel hready.2.2 fun _ => hready.2.1
  · exact h

/-! ## The call -/

theorem Sound.entered_of_waiting (h : s.Sound) (hwaiting : s.call.waiting = true) :
    s.entered = false := by
  rw [← h.phase]
  revert hwaiting
  cases s.call <;> simp [Call.waiting, Call.entered]

theorem Sound.catches (h : s.Sound) (hentered : s.entered = false) (failure : Cause)
    (settled : Settlement Unit) : Sound { s with call := .canceling failure settled } :=
  { h with
    phase := hentered.symm
    owned := fun _ hwaiting => by cases hwaiting
    resolved := fun hcall => by cases hcall
    preparing := fun _ hcall => by cases hcall
    reading := fun _ hcall => by cases hcall
    ready := fun hcall => by cases hcall }

theorem Sound.fails (h : s.Sound) (hentered : s.entered = false) (cause : Cause) :
    (s.fails cause).Sound :=
  (h.catches hentered _ _).cancel hentered fun hwaiting => by cases hwaiting

/-- No attempt was made while the signal has not aborted. -/
theorem Sound.fresh (h : s.Sound) (haborted : s.aborted = none) :
    s.attempt = none ∧ s.canceled = false ∧ s.cancels = 0 := by
  have hno : ¬(s.attempt.isSome = true ∨ s.canceled = true ∨ 1 ≤ s.cancels) := by
    intro hany
    have hsome := h.aborted hany
    simp [haborted] at hsome
  push Not at hno
  exact ⟨by simpa using hno.1, by simpa using hno.2.1, by omega⟩

/-- The entry, once every check has passed. -/
theorem Sound.entering (h : s.Sound) (hentered : s.entered = false) (haborted : s.aborted = none) :
    s.dispatch.Sound := by
  have ⟨hattempt, hcanceled, hcancels⟩ := h.fresh haborted
  have hkeeps : Keeps Execution.admitDispatch :=
    ⟨fun _ he => he, fun _ he => he, fun _ _ hparked => by cases hparked⟩
  exact { h.executes hkeeps with
    once := by
      have hzero := h.once
      rw [hentered, if_neg (by simp)] at hzero
      simp [dispatch, hzero]
    phase := rfl
    uncanceled := fun _ => ⟨hattempt, hcanceled, hcancels⟩
    owned := fun _ hwaiting => by cases hwaiting
    released := fun _ => .inl rfl
    retained := .inr (.inl rfl)
    resolved := fun hcall => by cases hcall
    preparing := fun _ hcall => by cases hcall
    reading := fun _ hcall => by cases hcall
    ready := fun hcall => by cases hcall }

/-- The checks the call makes right before the entry. -/
structure Checked (s : Admission) : Prop where
  current : s.current = true
  usable : s.unusable = none
  signal : s.aborted = none
  inTime : s.late = false
  callback : s.callbackFailure = false
  outcome : s.outcomeFailure = false ∧ s.earlyOutcome = none
  owned : s.reservation = .none ∨ s.ownsExecution = true
  parked : s.outputEnded = false

theorem entryRefusal_eq_none (h : s.entryRefusal = none) : s.Checked := by
  unfold Admission.entryRefusal at h
  by_cases hcurrent : s.current = false
  · simp [hcurrent] at h
  · by_cases husable : s.unusable.isSome = true
    · rw [if_neg hcurrent, if_pos husable] at h
      simp [h] at husable
    · by_cases haborted : s.aborted.isSome = true
      · rw [if_neg hcurrent, if_neg husable, if_pos haborted] at h
        simp [h] at haborted
      · rw [if_neg hcurrent, if_neg husable, if_neg haborted] at h
        by_cases hlate : s.late = true
        · simp [hlate] at h
        · by_cases hcallback : s.callbackFailure = true
          · simp [hlate, hcallback] at h
          · by_cases houtcome : s.outcomeFailure = true ∨ s.earlyOutcome.isSome = true
            · rw [if_neg hlate, if_neg hcallback, if_pos houtcome] at h
              cases h
            · by_cases howned : s.reservation ≠ .none ∧ s.ownsExecution = false
              · rw [if_neg hlate, if_neg hcallback, if_neg houtcome, if_pos howned] at h
                cases h
              · by_cases hended : s.outputEnded = true
                · rw [if_neg hlate, if_neg hcallback, if_neg houtcome, if_neg howned,
                    if_pos hended] at h
                  cases h
                · push Not at houtcome
                  refine ⟨by simpa using hcurrent, by simpa using husable, by simpa using haborted,
                    by simpa using hlate, by simpa using hcallback, by simpa using houtcome, ?_,
                    by simpa using hended⟩
                  by_cases hnone : s.reservation = .none
                  · exact .inl hnone
                  · have hyes : s.ownsExecution ≠ false := fun hno => howned ⟨hnone, hno⟩
                    exact .inr (by simpa using hyes)

theorem Sound.enters (h : s.Sound) (hentered : s.entered = false) : s.enters.Sound := by
  unfold Admission.enters
  split
  next cause _ => exact h.fails hentered cause
  next hnone => exact h.entering hentered (entryRefusal_eq_none hnone).signal

theorem Sound.installs (h : s.Sound) (host : Host) (hcall : s.call = .preparing settled)
    (hnative : s.preparation = .fulfilled .native_continuation) : (s.installs host).Sound := by
  have hentered := h.entered_of_waiting (by simp [hcall, Call.waiting])
  have ⟨_, _, _, _⟩ := h.preparing settled hcall
  unfold Admission.installs
  split
  · exact h.fails hentered _
  · split
    · exact h.fails hentered _
    next hfree =>
      have hstopped : s.stopped = false := by
        push Not at hfree
        simpa using hfree.1
      -- an attempt would have stopped the owner
      have hidle : s.attempt = none ∧ s.canceled = false := by
        have hno : ¬(s.attempt.isSome = true ∨ s.canceled = true) := by
          intro hany
          have hstop := h.owned hany (by simp [hcall, Call.waiting])
          simp [hstopped] at hstop
        push Not at hno
        exact ⟨by simpa using hno.1, by simpa using hno.2⟩
      have hreserved : ∀ failure settled, Sound { s with
          reservation := .owned, call := .canceling failure settled } := by
        intro failure settled
        exact { h.catches hentered failure settled with
          success := fun hdone => absurd (hidle.2.symm.trans hdone) (by simp)
          released := fun hno => by cases hno
          preparing := fun _ hc => by cases hc
          native := fun _ => hnative
          reading := fun _ hc => by cases hc }
      split
      next cause _ => exact (hreserved _ _).cancel hentered fun hw => by cases hw
      · exact { h with
          phase := hentered.symm
          owned := fun hany => by simp [hidle.1, hidle.2] at hany
          progress := fun stage hstage => by simp [hidle.1] at hstage
          success := fun hdone => absurd (hidle.2.symm.trans hdone) (by simp)
          released := fun hno => by cases hno
          resolved := fun hc => by cases hc
          preparing := fun _ hc => by cases hc
          native := fun _ => hnative
          reading := fun _ _ => ⟨by simp, rfl⟩
          ready := fun hc => by
            simp only [Call.reading.injEq] at hc
            split at hc <;> cases hc
          pull := fun e he _ hready => by
            have heq : ({} : Execution) = e := Option.some.inj he
            subst heq
            cases hready }

theorem Sound.admits (h : s.Sound) (host : Host) (hcall : s.call = .preparing settled) :
    (s.admits host).Sound := by
  have hentered := h.entered_of_waiting (by simp [hcall, Call.waiting])
  unfold Admission.admits
  split
  · exact h.fails hentered _
  · split
    next cause _ => exact h.fails hentered cause
    · split
      · exact h.fails hentered _
      · split
        next hnative => exact h.installs host hcall hnative
        · exact h.enters hentered

theorem Sound.throws (h : s.Sound) (hentered : s.entered = false) (failure : Cause)
    (cleanup : Bool) : (s.throws failure cleanup).Sound :=
  { h with
    phase := hentered.symm
    owned := fun _ hwaiting => by cases hwaiting
    retained := by
      cases hcanceled : s.canceled with
      | true => exact .inr (.inr (.inl hcanceled))
      | false => simpa [Admission.throws, hcanceled] using h.retained
    resolved := fun hcall => by cases hcall
    preparing := fun _ hcall => by cases hcall
    reading := fun _ hcall => by cases hcall
    ready := fun hcall => by cases hcall }

theorem Sound.resume (h : s.Sound) (host : Host) : (s.resume host).Sound := by
  have hentered : ∀ {call : Call}, s.call = call → call.entered = false → s.entered = false := by
    intro call hcall hno
    rw [← h.phase, hcall, hno]
  unfold Admission.resume
  split
  next hcall => exact h.admits host hcall
  next cause hcall => exact h.fails (hentered hcall rfl) cause
  next hcall => exact h.enters (hentered hcall rfl)
  next cause hcall => exact h.fails (hentered hcall rfl) cause
  next failure _ hcall =>
    split
    · exact (h.stop failure).throws (hentered hcall rfl) failure false
    · exact h.throws (hentered hcall rfl) failure false
  next failure cause hcall => exact (h.stop failure).throws (hentered hcall rfl) failure true
  · exact h

theorem Sound.retryCleanup (h : s.Sound) : s.retryCleanup.Sound := by
  unfold Admission.retryCleanup
  split
  next failure k hcall _ =>
    have hentered : s.entered = false := by rw [← h.phase, hcall]; rfl
    exact h.cancel hentered fun hwaiting => by simp [hcall, Call.waiting] at hwaiting
  · exact h

theorem Sound.answers (h : s.Sound) : s.answers.Sound := by
  unfold Admission.answers
  split
  next hcall =>
    have hentered : s.entered = true := by rw [← h.phase, hcall]; rfl
    exact { h with
      phase := hentered.symm
      owned := fun _ hwaiting => by cases hwaiting
      retained := .inr (.inl hentered)
      resolved := fun hc => by cases hc
      preparing := fun _ hc => by cases hc
      reading := fun _ hc => by cases hc
      ready := fun hc => by cases hc }
  · exact h

/-! ## Promises -/

/-- The preparation settles. -/
theorem Sound.prepares (h : s.Sound) (hpending : s.preparation = .pending) (requested : Bool)
    (result : Settlement ResponseKind) :
    Sound { s with requested := requested, preparation := result } := by
  have hprogress : ∀ rank, s.Progress rank → 1 ≤ rank → False := by
    intro rank hbehind hrank
    have ⟨k, hk⟩ := hbehind.prepared hrank
    simp [hpending] at hk
  exact { h with
    progress := fun stage hstage => by
      have hbehind := h.progress stage hstage
      have hzero : stage.rank = 0 := by
        by_contra hne
        exact hprogress _ hbehind (Nat.one_le_iff_ne_zero.mpr hne)
      rw [hzero]
      constructor <;> simp
    success := fun hcanceled =>
      absurd (hprogress _ (h.success hcanceled).2.1 (by simp)) not_false
    retained := by
      rcases h.retained with hkept | hentered | hcanceled | ⟨cause, hcause⟩
      · exact .inl hkept
      · exact .inr (.inl hentered)
      · exact .inr (.inr (.inl hcanceled))
      · simp [hpending] at hcause
    resolved := fun hcall => by
      have ⟨k, hk⟩ := h.resolved hcall
      simp [hpending] at hk
    native := fun hne => by
      have hk := h.native hne
      simp [hpending] at hk }

theorem Sound.request (h : s.Sound) : s.request.Sound := by
  unfold Admission.request
  split
  next hfirst =>
    split
    · exact h.prepares hfirst.2 s.requested _
    · split
      next cause _ => exact h.prepares hfirst.2 s.requested _
      · exact { h with }
  · exact h

theorem Sound.prepare (h : s.Sound) (result : Settlement ResponseKind) :
    (s.prepare result).Sound := by
  unfold Admission.prepare
  split
  next hpending => exact h.prepares hpending.2 s.requested result
  · exact h

theorem Sound.observeOutcome (h : s.Sound) (value : Option ContinuationOutcome) :
    (s.observeOutcome value).Sound := by
  unfold Admission.observeOutcome
  split
  next hnative =>
    have hprogress : ∀ rank outcome, s.Progress rank →
        Behind s.preparation outcome s.execution s.callback s.cancels s.cancellations rank := by
      intro rank outcome hbehind
      exact { hbehind with
        noWork := fun hrank hk => by
          have hdone := hbehind.noWork hrank hk
          simp [hnative.2] at hdone }
    exact { h with
      progress := fun stage hstage => hprogress _ _ (h.progress stage hstage)
      success := fun hcanceled =>
        have ⟨hnone, hbehind, howned⟩ := h.success hcanceled
        ⟨hnone, hprogress _ _ hbehind, howned⟩ }
  · exact h

theorem Sound.recordOutcome (h : s.Sound) : s.recordOutcome.Sound := by
  unfold Admission.recordOutcome
  split
  next cause _ =>
    have hrecorded : Sound { s with outcomeFailure := true } := { h with }
    split
    · exact hrecorded.stop cause
    · exact hrecorded
  · exact h

theorem Sound.preparationReady (h : s.Sound) : s.preparationReady.Sound := by
  unfold Admission.preparationReady
  split
  next settled k hcall hprepared =>
    refine h.settles _ (fun _ _ _ => ⟨k, hprepared⟩) fun _ before hreading => ?_
    simp [hcall] at hreading
  next settled cause _ _ => exact h.rejects cause
  · exact h

theorem Sound.readerReady (h : s.Sound) : s.readerReady.Sound := by
  unfold Admission.readerReady
  split
  next settled hcall =>
    split
    next hready =>
      refine h.settles _ (fun _ before hpreparing => by simp [hcall] at hpreparing) fun _ _ _ => ?_
      cases hexecution : s.execution with
      | none => simp [hexecution] at hready
      | some e => exact ⟨e, rfl, by simpa [hexecution] using hready⟩
    · exact h
  · exact h

theorem Sound.rejectionReady (h : s.Sound) : s.rejectionReady.Sound := by
  unfold Admission.rejectionReady
  split
  next cause _ _ => exact h.rejects cause
  · exact h

theorem Sound.readinessTimer (h : s.Sound) : s.readinessTimer.Sound := by
  unfold Admission.readinessTimer
  split
  · split
    · exact h.rejects _
    · exact h.rejects _
    · exact h
  · exact h

theorem Sound.settleCallback (h : s.Sound) (result : Settlement Unit) :
    (s.settleCallback result).Sound := by
  unfold Admission.settleCallback
  split
  next hpending =>
    have hprogress : ∀ rank, s.Progress rank → Behind s.preparation s.outcome s.execution
        (some result) s.cancels s.cancellations rank := by
      intro rank hbehind
      exact { hbehind with
        callback := fun hrank => absurd hpending (hbehind.callback hrank) }
    exact { h with
      progress := fun stage hstage => hprogress _ (h.progress stage hstage)
      success := fun hcanceled =>
        have ⟨hnone, hbehind, howned⟩ := h.success hcanceled
        ⟨hnone, hprogress _ hbehind, howned⟩
      preparing := fun settled hcall => by
        have ⟨_, _, hnone, _⟩ := h.preparing settled hcall
        simp [hnone] at hpending }
  · exact h

theorem Sound.recordCallback (h : s.Sound) : s.recordCallback.Sound := by
  unfold Admission.recordCallback
  split
  next cause hrejected =>
    have hrecorded : Sound { s with callbackFailure := true } :=
      { h with
        preparing := fun settled hcall => by
          have ⟨_, _, hnone, _⟩ := h.preparing settled hcall
          simp [hnone] at hrejected }
    split
    · exact hrecorded.stop cause
    · exact hrecorded
  · exact h

theorem Sound.release (h : s.Sound) : s.release.Sound := by
  unfold Admission.release
  split
  next outcome _ =>
    split
    next hready =>
      have ⟨hentered, howned, _⟩ := hready
      have hcanceled := (h.uncanceled hentered).2.1
      exact { h.executes keeps_joined with
        success := fun hdone => absurd (hcanceled.symm.trans hdone) (by simp)
        released := fun _ => .inl hentered
        preparing := fun settled hcall => by
          have hnone := (h.preparing settled hcall).1
          simp [howned] at hnone
        native := fun _ => h.native (by simp [howned])
        reading := fun settled hcall => by
          have ⟨_, hsome⟩ := h.reading settled hcall
          exact ⟨by simp, by simpa using hsome⟩ }
    · exact h
  · exact h

theorem Sound.step (h : s.Sound) (event : AdmissionEvent) : (s.step event).Sound := by
  cases event with
  | loseCurrent | readinessPassed => exact { h with }
  | fence cause => exact h.fences cause
  | stop cause => exact h.stop cause
  | abort reason => exact h.abort reason
  | request => exact h.request
  | prepare result => exact h.prepare result
  | outcome value => exact h.observeOutcome value
  | recordOutcome => exact h.recordOutcome
  | preparationReady => exact h.preparationReady
  | readerReady => exact h.readerReady
  | rejectionReady => exact h.rejectionReady
  | readinessTimer => exact h.readinessTimer
  | resume host => exact h.resume host
  | pull => exact h.executes keeps_pull
  | endOutput => exact h.executes keeps_stop
  | callback result => exact h.settleCallback result
  | recordCallback => exact h.recordCallback
  | cancelPrepared => exact h.cancelPrepared
  | cancelSettled fulfilled => exact h.cancelSettled fulfilled
  | executionJoined fulfilled => exact h.executionJoined fulfilled
  | cancelOutcome => exact h.cancelOutcome
  | cancelCallback => exact h.cancelCallback
  | cleanupDeadline => exact h.cleans _
  | cleanup => exact h.cleanup
  | retryCleanup => exact h.retryCleanup
  | answers => exact h.answers
  | receipt | complete =>
    simp only [Admission.step]
    split
    · exact { h with }
    · exact h
  | release => exact h.release

theorem sound_after (events : List AdmissionEvent) : (after events).Sound :=
  Machine.run_invariant step (fun _ event h => h.step event) sound_empty events

end Admission

end AgentSdk.Runtime.Prepared
