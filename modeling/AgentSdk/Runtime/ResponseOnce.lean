import AgentSdk.Runtime.ResponseEntry

/-!
# One entry or one cancellation

A step either enters the provider, with every check behind it, or is quiet: it
leaves the count of entries alone and calls `value.cancel` no more once a
cancellation has succeeded.  The facts the invariant keeps at the entry and at
the release of a reservation then hold of every run.

## Main results

* `Admission.Sound.step_cases` — a step enters the provider or is quiet.
* `prepared_response_entered_once` — the entry, the cancellation and the
  release over every run.
-/

namespace AgentSdk.Runtime.Prepared

namespace Admission

variable {s t u : Admission}

/-! ## Steps that do not enter -/

/-- Neither enters the provider nor calls `value.cancel` after a success. -/
structure Quiet (s t : Admission) : Prop where
  dispatches : t.dispatches = s.dispatches
  kept : s.canceled = true → t.canceled = true ∧ t.cancels = s.cancels

theorem Quiet.refl (s : Admission) : Quiet s s :=
  ⟨rfl, fun hcanceled => ⟨hcanceled, rfl⟩⟩

theorem Quiet.trans (h : Quiet s t) (h' : Quiet t u) : Quiet s u :=
  ⟨h'.dispatches.trans h.dispatches, fun hcanceled =>
    have ⟨hstill, hsame⟩ := h.kept hcanceled
    have ⟨hlater, heq⟩ := h'.kept hstill
    ⟨hlater, heq.trans hsame⟩⟩

/-- A change of the other parts. -/
theorem Quiet.of_same (hdispatches : t.dispatches = s.dispatches)
    (hcanceled : t.canceled = s.canceled) (hcancels : t.cancels = s.cancels) : Quiet s t :=
  ⟨hdispatches, fun hdone => ⟨hcanceled.trans hdone, hcancels⟩⟩

theorem quiet_cancel : Quiet s s.cancel := by
  unfold Admission.cancel
  split
  · exact Quiet.refl s
  next hfree =>
    have hcanceled : s.canceled = false := by
      push Not at hfree
      simpa using hfree.1
    simp only
    split
    · exact ⟨rfl, fun hdone => absurd (hcanceled.symm.trans hdone) (by simp)⟩
    · exact Quiet.of_same rfl rfl rfl

theorem quiet_fails (cause : Cause) : Quiet s (s.fails cause) := by
  have hcaught : ∀ call, Quiet s { s with call := call } := fun _ => Quiet.of_same rfl rfl rfl
  exact (hcaught _).trans quiet_cancel

theorem quiet_installs (host : Host) : Quiet s (s.installs host) := by
  unfold Admission.installs
  split
  · exact quiet_fails _
  · split
    · exact quiet_fails _
    · have hreserved : Quiet s { s with reservation := .owned } := Quiet.of_same rfl rfl rfl
      split
      next cause _ => exact hreserved.trans (quiet_fails cause)
      · exact Quiet.of_same rfl rfl rfl

theorem quiet_throws (failure : Cause) (cleanup : Bool) : Quiet s (s.throws failure cleanup) :=
  Quiet.of_same rfl rfl rfl

theorem quiet_stop (cause : Cause) : Quiet s (s.stop cause) := Quiet.of_same rfl rfl rfl

/-- The attempt's steps: while one is under way no cancellation has succeeded. -/
theorem quiet_cancelPrepared (h : s.Sound) : Quiet s s.cancelPrepared := by
  unfold Admission.cancelPrepared
  split
  next hstage =>
    have hcanceled := (h.attempting hstage).2.1
    split
    · exact Quiet.refl s
    · exact ⟨rfl, fun hdone => absurd (hcanceled.symm.trans hdone) (by simp)⟩
    · exact Quiet.of_same rfl rfl rfl
  · exact Quiet.refl s

theorem quiet_cancelSettled (fulfilled : Bool) : Quiet s (s.cancelSettled fulfilled) := by
  unfold Admission.cancelSettled
  split
  · split <;> exact Quiet.of_same rfl rfl rfl
  · exact Quiet.refl s

theorem quiet_executionJoined (fulfilled : Bool) : Quiet s (s.executionJoined fulfilled) := by
  unfold Admission.executionJoined
  split
  · split <;> exact Quiet.of_same rfl rfl rfl
  · exact Quiet.refl s

theorem quiet_cancelOutcome : Quiet s s.cancelOutcome := by
  unfold Admission.cancelOutcome
  split
  · split <;> exact Quiet.of_same rfl rfl rfl
  · exact Quiet.refl s

theorem quiet_cancelCallback : Quiet s s.cancelCallback := by
  unfold Admission.cancelCallback
  split
  · exact ⟨rfl, fun _ => ⟨rfl, rfl⟩⟩
  · exact Quiet.refl s

theorem quiet_cleanup : Quiet s s.cleanup := by
  unfold Admission.cleanup
  split
  · exact quiet_cancel
  · exact Quiet.refl s

theorem quiet_retryCleanup : Quiet s s.retryCleanup := by
  unfold Admission.retryCleanup
  split
  · exact quiet_cancel
  · exact Quiet.refl s

theorem quiet_request : Quiet s s.request := by
  unfold Admission.request
  split
  · split
    · exact Quiet.of_same rfl rfl rfl
    · split <;> exact Quiet.of_same rfl rfl rfl
  · exact Quiet.refl s

theorem quiet_recordOutcome : Quiet s s.recordOutcome := by
  unfold Admission.recordOutcome
  split
  · split <;> exact Quiet.of_same rfl rfl rfl
  · exact Quiet.refl s

theorem quiet_recordCallback : Quiet s s.recordCallback := by
  unfold Admission.recordCallback
  split
  · split <;> exact Quiet.of_same rfl rfl rfl
  · exact Quiet.refl s

theorem quiet_readerReady : Quiet s s.readerReady := by
  unfold Admission.readerReady
  split
  · split <;> exact Quiet.of_same rfl rfl rfl
  · exact Quiet.refl s

theorem quiet_readinessTimer : Quiet s s.readinessTimer := by
  unfold Admission.readinessTimer
  split
  · split <;> exact Quiet.of_same rfl rfl rfl
  · exact Quiet.refl s

theorem quiet_preparationReady : Quiet s s.preparationReady := by
  unfold Admission.preparationReady
  split <;> exact Quiet.of_same rfl rfl rfl

theorem quiet_rejectionReady : Quiet s s.rejectionReady := by
  unfold Admission.rejectionReady
  split <;> exact Quiet.of_same rfl rfl rfl

theorem quiet_prepare (result : Settlement ResponseKind) : Quiet s (s.prepare result) := by
  unfold Admission.prepare
  split <;> exact Quiet.of_same rfl rfl rfl

theorem quiet_observeOutcome (value : Option ContinuationOutcome) :
    Quiet s (s.observeOutcome value) := by
  unfold Admission.observeOutcome
  split <;> exact Quiet.of_same rfl rfl rfl

theorem quiet_settleCallback (result : Settlement Unit) : Quiet s (s.settleCallback result) := by
  unfold Admission.settleCallback
  split <;> exact Quiet.of_same rfl rfl rfl

theorem quiet_answers : Quiet s s.answers := by
  unfold Admission.answers
  split <;> exact Quiet.of_same rfl rfl rfl

theorem quiet_release : Quiet s s.release := by
  unfold Admission.release
  split
  · split <;> exact Quiet.of_same rfl rfl rfl
  · exact Quiet.refl s

/-! ## The entry -/

/-- What stands when the call enters the provider. -/
structure Ready (s : Admission) : Prop where
  current : s.current = true
  usable : s.unusable = none
  signal : s.aborted = none
  inTime : s.late = false
  prepared : ∃ kind, s.preparation = .fulfilled kind
  outcome : s.outcomeFailure = false ∧ s.earlyOutcome = none
  native : s.preparation = .fulfilled .native_continuation →
    s.reservation = .owned ∧ s.stopped = false ∧ s.callbackFailure = false ∧
      ∃ e, s.execution = some e ∧ e.state = .parked ∧ e.pulling = true

/-- Where the entry stands: after the preparation of a plain response, or after
the first pull of a continuation. -/
def Entering (s : Admission) : Prop :=
  (s.call = .preparing (.fulfilled ()) ∧ s.preparation ≠ .fulfilled .native_continuation) ∨
    s.call = .reading (.fulfilled ())

theorem Sound.ready_of (h : s.Sound) (hcheck : s.Checked) (hcall : s.Entering) : s.Ready := by
  have ⟨hprepared, hnative⟩ : (∃ kind, s.preparation = .fulfilled kind) ∧
      (s.preparation = .fulfilled .native_continuation →
        s.reservation = .owned ∧ s.stopped = false ∧ s.callbackFailure = false ∧
          ∃ e, s.execution = some e ∧ e.state = .parked ∧ e.pulling = true) := by
    rcases hcall with hplain | hreading
    · exact ⟨h.resolved hplain.1, fun hkind => absurd hkind hplain.2⟩
    · have ⟨hreserved, _⟩ := h.reading _ hreading
      have howned : s.ownsExecution = true := hcheck.owned.resolve_left hreserved
      have ⟨hstopped, hreservation⟩ : s.stopped = false ∧ s.reservation = .owned := by
        simpa [ownsExecution] using howned
      have ⟨e, he, hready⟩ := h.ready hreading
      have hparked : e.state = .parked := by
        have hended := hcheck.parked
        simpa [outputEnded, he] using hended
      exact ⟨⟨_, h.native hreserved⟩, fun _ =>
        ⟨hreservation, hstopped, hcheck.callback, e, he, hparked, h.pull e he hparked hready⟩⟩
  exact ⟨hcheck.current, hcheck.usable, hcheck.signal, hcheck.inTime, hprepared, hcheck.outcome,
    hnative⟩

/-- An entry passes every check, or leaves `dispatches` alone. -/
theorem enters_cases (s : Admission) :
    Quiet s s.enters ∨ (s.Checked ∧ s.enters = s.dispatch) := by
  unfold Admission.enters
  split
  next cause _ => exact .inl (quiet_fails cause)
  next hnone => exact .inr ⟨entryRefusal_eq_none hnone, rfl⟩

theorem resume_cases (s : Admission) (host : Host) :
    Quiet s (s.resume host) ∨
      (s.Checked ∧ s.Entering ∧ s.resume host = s.dispatch) := by
  unfold Admission.resume
  split
  next hcall =>
    unfold Admission.admits
    split
    · exact .inl (quiet_fails _)
    · split
      next cause _ => exact .inl (quiet_fails cause)
      · split
        · exact .inl (quiet_fails _)
        · split
          · exact .inl (quiet_installs host)
          next hplain =>
            rcases s.enters_cases with hquiet | hentry
            · exact .inl hquiet
            · exact .inr ⟨hentry.1, .inl ⟨hcall, hplain⟩, hentry.2⟩
  next cause _ => exact .inl (quiet_fails cause)
  next hcall =>
    rcases s.enters_cases with hquiet | hentry
    · exact .inl hquiet
    · exact .inr ⟨hentry.1, .inr hcall, hentry.2⟩
  next cause _ => exact .inl (quiet_fails cause)
  next failure _ _ =>
    split
    · exact .inl ((quiet_stop failure).trans (quiet_throws failure false))
    · exact .inl (quiet_throws failure false)
  next failure _ _ => exact .inl ((quiet_stop failure).trans (quiet_throws failure true))
  · exact .inl (Quiet.refl s)

/-- A step enters the provider or is quiet. -/
theorem Sound.step_cases (h : s.Sound) (event : AdmissionEvent) :
    Quiet s (s.step event) ∨ (s.Checked ∧ s.Entering ∧ s.step event = s.dispatch) := by
  cases event with
  | resume host => exact s.resume_cases host
  | stop cause => exact .inl (quiet_stop cause)
  | request => exact .inl quiet_request
  | prepare result => exact .inl (quiet_prepare result)
  | outcome value => exact .inl (quiet_observeOutcome value)
  | recordOutcome => exact .inl quiet_recordOutcome
  | preparationReady => exact .inl quiet_preparationReady
  | readerReady => exact .inl quiet_readerReady
  | rejectionReady => exact .inl quiet_rejectionReady
  | readinessTimer => exact .inl quiet_readinessTimer
  | callback result => exact .inl (quiet_settleCallback result)
  | recordCallback => exact .inl quiet_recordCallback
  | cancelPrepared => exact .inl (quiet_cancelPrepared h)
  | cancelSettled fulfilled => exact .inl (quiet_cancelSettled fulfilled)
  | executionJoined fulfilled => exact .inl (quiet_executionJoined fulfilled)
  | cancelOutcome => exact .inl quiet_cancelOutcome
  | cancelCallback => exact .inl quiet_cancelCallback
  | cleanup => exact .inl quiet_cleanup
  | retryCleanup => exact .inl quiet_retryCleanup
  | answers => exact .inl quiet_answers
  | receipt | complete =>
    simp only [Admission.step]
    split <;> exact .inl (Quiet.of_same rfl rfl rfl)
  | release => exact .inl quiet_release
  | _ => exact .inl (Quiet.of_same rfl rfl rfl)

/-- Nothing cancels or enters once a cancellation has succeeded. -/
structure Over (s t : Admission) : Prop where
  kept : s.canceled = true →
    t.canceled = true ∧ t.cancels = s.cancels ∧ t.dispatches = s.dispatches

theorem Sound.over (h : s.Sound) (event : AdmissionEvent) : Over s (s.step event) := by
  constructor
  intro hcanceled
  rcases h.step_cases event with hquiet | hentry
  · have ⟨hstill, hsame⟩ := hquiet.kept hcanceled
    exact ⟨hstill, hsame, hquiet.dispatches⟩
  · -- the attempt aborted the signal of the call
    have haborted := h.aborted (.inr (.inl hcanceled))
    simp [hentry.1.signal] at haborted

theorem over_run (h : s.Sound) (later : List AdmissionEvent) :
    Over s (Machine.run Admission.step s later) :=
  Machine.run_related (P := Sound) (R := Over) (fun _ => ⟨fun hdone => ⟨hdone, rfl, rfl⟩⟩)
    (fun _ _ _ h₁ h₂ => ⟨fun hdone =>
      have ⟨hstill, hcancels, hdispatches⟩ := h₁.kept hdone
      have ⟨hlater, hcancels', hdispatches'⟩ := h₂.kept hstill
      ⟨hlater, hcancels'.trans hcancels, hdispatches'.trans hdispatches⟩⟩)
    (fun _ event h => h.step event) (fun _ event h => h.over event) h later

/-! ## The cancellation -/

/-- The attempt the cleanup starts, or the one it joins, calls `value.cancel`. -/
theorem Sound.cleanup_cancels (h : s.Sound) {kind : ResponseKind}
    (hprepared : s.preparation = .fulfilled kind) (hentered : s.entered = false)
    (hstopped : s.stopped = true) : 1 ≤ ((s.step .cleanup).step .cancelPrepared).cancels := by
  have hprepares : ∀ t : Admission, t.preparation = s.preparation → t.attempt = some .preparation →
      t.cancels = s.cancels → 1 ≤ (t.step .cancelPrepared).cancels := by
    intro t hsame hstage _
    simp [Admission.step, Admission.cancelPrepared, hstage, hsame, hprepared, Admission.cancelValue]
  have hlater : ∀ stage, s.attempt = some stage → stage ≠ .preparation →
      1 ≤ (s.step .cancelPrepared).cancels := by
    intro stage hstage hne
    have hrank : 1 ≤ stage.rank := by cases stage <;> simp_all [Attempt.rank]
    have hcalled := (h.progress stage hstage).called hrank
    simpa [Admission.step, Admission.cancelPrepared, hstage, hne] using hcalled
  by_cases hcanceled : s.canceled = true
  · have hdone := (h.success hcanceled).2.1.called (by simp)
    have hcleanup : s.cleanup = s := by
      unfold Admission.cleanup Admission.cancel
      simp [hcanceled]
    have hnone := (h.success hcanceled).1
    simpa [Admission.step, hcleanup, Admission.cancelPrepared, hnone] using hdone
  · have hretained : s.retained = true := by
      rcases h.retained with hkept | hno | hno | ⟨cause, hno⟩
      · exact hkept
      · exact absurd (hentered.symm.trans hno) (by simp)
      · exact absurd hno hcanceled
      · simp [hprepared] at hno
    have hcleanup : s.step .cleanup = s.cancel := if_pos ⟨hretained, hstopped, hentered⟩
    cases hstage : s.attempt with
    | none =>
      have hcancel : s.cancel = (s.abort .abort).cancelValue := by
        unfold Admission.cancel
        rw [if_neg (by simp [hcanceled, hstage])]
        simp [Admission.abort, hprepared]
      rw [hcleanup, hcancel]
      simp [Admission.step, Admission.cancelPrepared, Admission.cancelValue]
    | some stage =>
      have hcancel : s.cancel = s := if_pos (.inr (by simp [hstage]))
      rw [hcleanup, hcancel]
      by_cases hfirst : stage = .preparation
      · exact hprepares s rfl (hfirst ▸ hstage) rfl
      · exact hlater stage hstage hfirst

/-- What stands behind the release of a reservation that was never entered. -/
structure Joined (s : Admission) : Prop where
  canceled : 1 ≤ s.cancellations ∧ s.canceling = 0
  execution : ∀ e, s.execution = some e → e.joined = true
  callback : s.callback ≠ some .pending
  outcome : s.outcome = .fulfilled .not_started

theorem Sound.joined (h : s.Sound) (hentered : s.entered = false)
    (hreleased : s.reservation = .released) : s.Joined := by
  have hcanceled : s.canceled = true :=
    (h.released hreleased).resolve_left (by simp [hentered])
  have ⟨hnone, hbehind, _⟩ := h.success hcanceled
  have hnative := h.native (by simp [hreleased])
  exact ⟨⟨hbehind.canceled (by simp), h.idle (by simp [hnone])⟩, hbehind.joined (by simp),
    hbehind.callback (by simp), hbehind.noWork (by simp) hnative⟩

theorem Sound.canceling_le (h : s.Sound) : s.canceling ≤ 1 := by
  rw [h.flight]
  split <;> simp

theorem Sound.dispatches_le (h : s.Sound) : s.dispatches ≤ 1 := by
  rw [h.once]
  split <;> simp

theorem Sound.dispatches_eq_zero (h : s.Sound) : s.dispatches = 0 ↔ s.entered = false := by
  rw [h.once]
  cases s.entered <;> simp

theorem after_append (events later : List AdmissionEvent) :
    after (events ++ later) = Machine.run step (after events) later :=
  Machine.run_append step {} events later

end Admission

open Admission

/-- After every sequence of events: `value.dispatch` was called at most once,
with every check standing and no cancellation begun; a prepared value that is
not entered is canceled by the cleanup of the stopped owner at the latest, one
call at a time and none after a success; and its reservation is released after
all of its parts have joined. -/
theorem prepared_response_entered_once (events : List AdmissionEvent) :
    (after events).dispatches ≤ 1 ∧
    (∀ event, (after (events ++ [event])).dispatches ≠ (after events).dispatches →
      (after events).Ready ∧ (after events).cancels = 0) ∧
    (1 ≤ (after events).dispatches → (after events).cancels = 0) ∧
    (after events).canceling ≤ 1 ∧
    ((after events).dispatches = 0 → (∃ kind, (after events).preparation = .fulfilled kind) →
      (after events).stopped = true →
        1 ≤ (after (events ++ [.cleanup, .cancelPrepared])).cancels) ∧
    ((after events).canceled = true → 1 ≤ (after events).cancellations ∧ ∀ later,
      (after (events ++ later)).cancels = (after events).cancels ∧
        (after (events ++ later)).dispatches = 0) ∧
    ((after events).dispatches = 0 → (after events).reservation = .released →
      (after events).Joined) := by
  have h := sound_after events
  refine ⟨h.dispatches_le, ?entry, ?exclusive, h.canceling_le, ?cleanup, ?success, ?released⟩
  case entry =>
    intro event hchanged
    rw [after_append] at hchanged
    rcases h.step_cases event with hquiet | hentry
    · exact absurd hquiet.dispatches hchanged
    · have ⟨hcheck, hcall, _⟩ := hentry
      exact ⟨h.ready_of hcheck hcall, (h.fresh hcheck.signal).2.2⟩
  case exclusive =>
    intro hone
    have hentered : (after events).entered = true := by
      by_contra hno
      have hzero := h.dispatches_eq_zero.mpr (by simpa using hno)
      omega
    exact (h.uncanceled hentered).2.2
  case cleanup =>
    intro hzero ⟨kind, hprepared⟩ hstopped
    rw [after_append]
    exact h.cleanup_cancels hprepared (h.dispatches_eq_zero.mp hzero) hstopped
  case success =>
    intro hcanceled
    refine ⟨(h.success hcanceled).2.1.canceled (by simp), fun later => ?_⟩
    have hentered : (after events).entered = false := by
      by_contra hno
      have hnever := (h.uncanceled (by simpa using hno)).2.1
      simp [hcanceled] at hnever
    have ⟨_, hcancels, hdispatches⟩ := (over_run h later).kept hcanceled
    rw [after_append]
    exact ⟨hcancels, hdispatches.trans (h.dispatches_eq_zero.mpr hentered)⟩
  case released =>
    intro hzero hreleased
    exact h.joined (h.dispatches_eq_zero.mp hzero) hreleased

/-- A continuation whose reader pulls, and whose host rejects before the call
goes on. -/
def rejectedLate : List AdmissionEvent :=
  [.request, .prepare (.fulfilled .native_continuation), .preparationReady, .resume {}, .pull,
    .readerReady, .callback (.rejected .other)]

/-- A stopped owner cancels, and the outcome turns out invalid. -/
def invalidOutcome : List AdmissionEvent :=
  [.request, .prepare (.fulfilled .native_continuation), .stop .other, .cleanup,
    .cancelSettled true, .executionJoined true, .outcome none, .cancelOutcome]

/-- The entry sees the host's rejection once its reaction ran, and a fulfilled
`value.cancel` whose attempt failed later is repeated. -/
theorem rejection_unseen_and_cancel_repeated :
    ((after rejectedLate).callback = some (.rejected .other) ∧
      (after rejectedLate).dispatches = 0 ∧
      (after (rejectedLate ++ [.resume {}])).dispatches = 1) ∧
    ((after invalidOutcome).cancels = 1 ∧ (after invalidOutcome).cancellations = 1 ∧
      (after (invalidOutcome ++ [.cleanup])).cancels = 2) := by
  decide

end AgentSdk.Runtime.Prepared
