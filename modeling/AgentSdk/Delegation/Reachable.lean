import AgentSdk.Delegation.Commit

/-!
# Reachable stores

The rule by which an invariant is proved for every run of the store, and the
invariant every other one rests on: rows refer to rows that exist, a run's
fields agree with its phase, and each reserved operation is recorded once.

## Main results

* `Store.run_rule` — what the empty store has and every commit preserves holds
  after every list of calls.
* `Linked.reachable` — every reachable store is linked.
-/

namespace AgentSdk.Delegation

open AgentSdk.Text AgentSdk.Outcome

variable {options : StoreOptions} {s : Store} {command : StoreCommand}
  {task : TaskRecord} {run run' : RunRecord} {e : Effect}

section

variable [Platform]

/-! ## Steps of the store -/

/-- The store under another owner. -/
def Store.withOwner (s : Store) (owner : Option OwnerToken) (epoch : Nat) : Store :=
  { s with owner, epoch }

/-- A commit that changed the store. -/
structure Committed (options : StoreOptions) (s : Store) (command : StoreCommand) (e : Effect) :
    Prop where
  fenced : Fenced options s command
  transition : Transition options s command e
  task : (e.finalTask s).schema = true
  run : ∀ run ∈ e.run, run.schema = true

variable (options s) in
/-- What a call does: it exchanges the owner, changes nothing, or commits. -/
theorem Store.step_cases (call : StoreCall) :
    (∃ owner epoch, s.step options call = s.withOwner owner epoch) ∨
      ∃ command e, call = .commit command ∧ Committed options s command e ∧
        s.step options call = s.apply e := by
  cases call with
  | acquireOwner nonce =>
    refine Or.inl ?_
    cases howner : s.owner with
    | some owner =>
      have hstep : s.step options (.acquireOwner nonce) = s := by
        simp [Store.step, acquireOwner, howner]
      exact ⟨s.owner, s.epoch, hstep⟩
    | none =>
      cases hparse : parse OwnerToken.schema
          { storeId := options.storeId, epoch := s.epoch + 1, nonce } with
      | ok owner =>
        exact ⟨some owner, s.epoch + 1,
          by simp [Store.step, acquireOwner, howner, hparse, withOwner]⟩
      | error failure =>
        exact ⟨none, s.epoch + 1,
          by simp [Store.step, acquireOwner, howner, hparse, withOwner]⟩
  | releaseOwner token =>
    refine Or.inl ?_
    cases hrelease' : s.releaseOwner options token with
    | error failure => exact ⟨s.owner, s.epoch, by simp [Store.step, hrelease', withOwner]⟩
    | ok s' =>
      have hrelease := hrelease'
      simp only [releaseOwner, failIf_bind_eq_ok, pure_eq_ok, Except.ok.injEq] at hrelease
      exact ⟨none, s.epoch, by rw [Store.step, hrelease', withOwner, hrelease.2]⟩
  | commit command =>
    cases hcommit : s.commit options command with
    | error failure =>
      exact Or.inl ⟨s.owner, s.epoch, by simp [Store.step, hcommit, withOwner]⟩
    | ok result =>
      obtain ⟨s', receipt⟩ := result
      have hstep : s.step options (.commit command) = s' := by simp [Store.step, hcommit]
      obtain ⟨hfenced, ⟨-, hsame⟩ | ⟨e, htransition, happly, -, htask, hrun⟩⟩ :=
        commit_cases hcommit
      · exact Or.inl ⟨s.owner, s.epoch, by rw [hstep, hsame, withOwner]⟩
      · exact Or.inr ⟨command, e, rfl, ⟨hfenced, htransition, htask, hrun⟩,
          hstep.trans happly⟩

/-- **The invariant rule of the store.** -/
theorem Store.run_rule {P : Store → Prop} (hempty : P .empty)
    (howner : ∀ s owner epoch, P s → P (s.withOwner owner epoch))
    (hcommit : ∀ s command e, P s → Committed options s command e → P (s.apply e))
    (calls : List StoreCall) : P (Store.empty.run options calls) := by
  refine Machine.run_invariant _ (fun s call hs => ?_) hempty calls
  obtain ⟨owner, epoch, hstep⟩ | ⟨command, e, -, hcommitted, hstep⟩ :=
    Store.step_cases options s call
  · exact hstep ▸ howner s owner epoch hs
  · exact hstep ▸ hcommit s command e hs hcommitted

end

/-! ## Agreement of a run with its phase -/

/-- The fields of a run that agree with its phase. -/
structure RunRecord.Sound (run : RunRecord) : Prop where
  pending : run.pendingRequest ≠ none → 2 ≤ run.phase.rank
  dispatch : run.dispatch ≠ .none → 2 ≤ run.phase.rank
  live : run.phase.rank = 2 → run.dispatch ≠ .none
  preparation : run.preparation ≠ .none → 1 ≤ run.phase.rank
  waiting : run.phase = .waiting ↔ ∃ r ∈ run.pendingRequest, r.state = .waiting
  closed : run.phase = .settled → ∀ r ∈ run.pendingRequest, r.state = .unavailable
  outcome : run.phase = .settled ↔ run.outcome.isSome = true
  settledAt : run.phase = .settled ↔ run.settledAt.isSome = true
  finalization : run.phase = .settled ↔ run.finalization.isSome = true

theorem admittedRun_sound (command : StoreCommand) (admission : RunAdmission) (ordinal : Nat) :
    (admittedRun command admission ordinal).Sound := by
  constructor <;> simp [admittedRun, RunPhase.rank]

/-- A run that is not settled has none of the three marks of a settlement. -/
theorem RunRecord.Sound.unsettled (h : run.Sound) (hne : run.phase ≠ .settled) :
    run.outcome.isSome = false ∧ run.settledAt.isSome = false ∧
      run.finalization.isSome = false :=
  ⟨Bool.eq_false_iff.2 fun hs => hne (h.outcome.2 hs),
    Bool.eq_false_iff.2 fun hs => hne (h.settledAt.2 hs),
    Bool.eq_false_iff.2 fun hs => hne (h.finalization.2 hs)⟩

/-- A run that was not dispatched waits for no request. -/
theorem RunRecord.Sound.no_pending (h : run.Sound) (hrank : run.phase.rank < 2) :
    run.pendingRequest = none := by
  by_contra hne
  exact absurd (h.pending hne) (not_le.2 hrank)

theorem RunRecord.Sound.next (h : run.Sound) : run.next.Sound :=
  { h with }

theorem RunRecord.Sound.countOperation (h : run.Sound) (kind : OperationKind) :
    (run.countOperation kind).Sound := by
  unfold RunRecord.countOperation
  split
  · exact h
  · exact { h with }

variable {kind : OperationKind} {o prior : OperationRecord}

theorem RunRecord.Sound.entered (h : run.Sound) {target : Option TargetReference}
    (hentered : Entered options s command run target kind run') : run'.Sound := by
  cases hentered with
  | prepare hphase hdispatch =>
    obtain ⟨ho, ha, hf⟩ := h.unsettled (by rw [hphase]; decide)
    have hpending := h.no_pending (by rw [hphase]; decide)
    constructor <;> simp [RunRecord.next, RunPhase.rank, hdispatch, hpending, ho, ha, hf]
  | turn hphase =>
    obtain ⟨ho, ha, hf⟩ := h.unsettled (by rw [hphase]; decide)
    have hpending := h.no_pending (by rw [hphase]; decide)
    constructor <;> simp [RunRecord.next, RunPhase.rank, hpending, ho, ha, hf]
  | _ => exact h.next

theorem RunRecord.Sound.answered (h : run.Sound) {disposition : Disposition}
    {eligibility : Option Eligibility} {status : ReceiptStatus}
    (hanswered : Answered run prior disposition eligibility run' status) : run'.Sound := by
  cases hanswered with
  | plain | elsewhere => exact h.next
  | pending identity request phase _ _ hrequest _ hstate hphase =>
    have hrank : 2 ≤ run.phase.rank := h.pending (by rw [hrequest]; exact Option.some_ne_none _)
    by_cases hsettled : run.phase = .settled
    · have hunavailable := h.closed hsettled request hrequest
      have hanswer : answeredState request.state disposition eligibility = .unavailable := by
        rw [answeredState, if_pos hunavailable]
      rw [if_pos hsettled] at hphase
      subst hphase
      obtain ⟨ho, ha, hf⟩ : run.outcome.isSome = true ∧ run.settledAt.isSome = true ∧
          run.finalization.isSome = true :=
        ⟨h.outcome.1 hsettled, h.settledAt.1 hsettled, h.finalization.1 hsettled⟩
      constructor <;> simp [RunRecord.next, RunPhase.rank, hanswer, ho, ha, hf]
    · have hlive : run.phase.rank = 2 := by
        cases hp : run.phase <;> simp [hp, RunPhase.rank] at hrank hsettled ⊢
      have hdispatch := h.live hlive
      obtain ⟨ho, ha, hf⟩ := h.unsettled hsettled
      rw [if_neg hsettled] at hphase
      split at hphase <;> rename_i hanswer <;> subst hphase <;> constructor <;>
        simp [RunRecord.next, RunPhase.rank, hanswer, hdispatch, ho, ha, hf]

theorem RunRecord.Sound.settleIntent (h : run.Sound) (kind : OperationKind)
    (disposition : Disposition) (hturn : kind = .turn → 2 ≤ run.phase.rank)
    (hprepare : kind = .prepare → 1 ≤ run.phase.rank) :
    (settleIntent kind disposition run).Sound := by
  unfold AgentSdk.Delegation.settleIntent
  split
  · exact { h with dispatch := fun _ => hturn rfl, live := fun _ => by simp }
  · exact { h with preparation := fun _ => hprepare rfl }
  · exact { h with preparation := fun _ => hprepare rfl }
  · exact { h with preparation := fun hne => absurd rfl hne }
  · exact { h with }
  · exact { h with }
  · exact { h with }
  · exact h

theorem RunRecord.Sound.requested (h : run.Sound) {request : HistoricalRequest}
    {step : RequestStep} (hrequested : Requested command run request step run') : run'.Sound := by
  cases hrequested with
  | opened hphase hwaiting =>
    have hdispatch := h.live (by rw [hphase]; rfl)
    obtain ⟨ho, ha, hf⟩ := h.unsettled (by rw [hphase]; decide)
    constructor <;> simp [RunRecord.next, RunPhase.rank, hdispatch, hwaiting, ho, ha, hf]
  | resolved pending hpending _ hstate =>
    have hrank : 2 ≤ run.phase.rank := h.pending (by rw [hpending]; exact Option.some_ne_none _)
    have hnotWaiting : run.phase ≠ .waiting := by
      intro hphase
      obtain ⟨r, hr, hw⟩ := h.waiting.1 hphase
      rw [hpending, Option.mem_some_iff] at hr
      rw [← hr, hstate] at hw
      cases hw
    have hnotSettled : run.phase ≠ .settled := by
      intro hphase
      have hu := h.closed hphase pending hpending
      rw [hstate] at hu
      cases hu
    refine ⟨fun _ => hrank, h.dispatch, h.live, h.preparation, ?_, ?_, h.outcome, h.settledAt,
      h.finalization⟩
    · simp [RunRecord.next, hnotWaiting]
    · intro hphase
      exact absurd hphase hnotSettled
  | unavailable pending hpending =>
    have hrank : 2 ≤ run.phase.rank := h.pending (by rw [hpending]; exact Option.some_ne_none _)
    by_cases hphase : run.phase = .waiting
    · have hdispatch := h.live (by rw [hphase]; rfl)
      obtain ⟨ho, ha, hf⟩ := h.unsettled (by rw [hphase]; decide)
      constructor <;> simp [RunRecord.next, RunPhase.rank, hphase, hdispatch, ho, ha, hf]
    · simp only [if_neg hphase]
      refine ⟨fun _ => hrank, h.dispatch, h.live, h.preparation, ?_, ?_, h.outcome, h.settledAt,
        h.finalization⟩
      · simp [hphase]
      · simp

theorem finish_sound (run : RunRecord) (command : StoreCommand) (task : TaskRecord)
    (outcome : RunOutcome) (atTime : JsString) : (run.finish command task outcome atTime).Sound := by
  constructor <;> simp [RunRecord.finish, RunPhase.rank]

/-! ## Operation rows -/

/-- How far a run has come when an operation of a kind is recorded for it. -/
def OperationKind.rank : OperationKind → Nat
  | .admitRun | .cancel | .sessionClose | .bindingCleanup => 0
  | .prepare | .configure | .interrupt => 1
  | .turn | .steer | .requestResolution => 2

/-- Operations that reach the provider, each by the one executor of its run. -/
def OperationKind.provider : OperationKind → Bool
  | .prepare | .configure | .turn | .steer | .requestResolution | .interrupt => true
  | .admitRun | .cancel | .sessionClose | .bindingCleanup => false

theorem OperationKind.rank_of_provider (h : kind.provider = true) : 1 ≤ kind.rank := by
  cases kind <;> simp [OperationKind.provider, OperationKind.rank] at h ⊢

/-- A row recorded under a new identity. -/
structure Recorded (s : Store) (command : StoreCommand) (e : Effect) (o : OperationRecord) :
    Prop where
  free : s.operations.get o.key = none
  operationId : o.operationId = command.operationId
  inputDigest : o.inputDigest = command.inputDigest
  ownerEpoch : o.ownerEpoch = command.owner.epoch
  taskId : o.taskId = command.taskId
  parent : o.parent = e.task.parent
  run : ∃ r ∈ e.run, r.runId = o.runId ∧ o.kind.rank ≤ r.phase.rank
  slot : o.kind.critical = true → s.slotFree o.runId o.kind

/-- A row written over an earlier one of the same operation. -/
structure Revised (prior o : OperationRecord) : Prop where
  operationId : o.operationId = prior.operationId
  parent : o.parent = prior.parent
  taskId : o.taskId = prior.taskId
  runId : o.runId = prior.runId
  kind : o.kind = prior.kind
  inputDigest : o.inputDigest = prior.inputDigest
  request : o.request = prior.request
  ownerEpoch : prior.kind.provider = true → o.ownerEpoch = prior.ownerEpoch
  receipt : receiptDispositions prior.kind = [] → o.receipt = prior.receipt

theorem Revised.key (h : Revised prior o) : o.key = prior.key := by
  rw [OperationRecord.key, OperationRecord.key, h.parent, h.operationId]

theorem Entered.rank {target : Option TargetReference}
    (h : Entered options s command run target kind run') : kind.rank ≤ run'.phase.rank := by
  cases h with
  | prepare | turn => exact le_rfl
  | configure hphase => exact hphase ▸ (le_rfl : OperationKind.configure.rank ≤ _)
  | steer hphase => exact hphase ▸ (le_rfl : OperationKind.steer.rank ≤ _)
  | interrupt hqueued =>
    show 1 ≤ run.phase.rank
    cases hp : run.phase <;> simp [hp, RunPhase.rank] at hqueued ⊢
  | _ => exact Nat.zero_le _

@[simp] theorem RunRecord.countOperation_phase (run : RunRecord) (kind : OperationKind) :
    (run.countOperation kind).phase = run.phase := by
  unfold RunRecord.countOperation
  split <;> rfl

@[simp] theorem RunRecord.countOperation_runId (run : RunRecord) (kind : OperationKind) :
    (run.countOperation kind).runId = run.runId := by
  unfold RunRecord.countOperation
  split <;> rfl

variable [Platform]

/-- The operation row a change writes. -/
theorem Change.operation_cases (h : Change options s command task run e)
    (htask : task.taskId = command.taskId) (ho : o ∈ e.operation) :
    Recorded s command e o ∨ ∃ prior ∈ s.operations.rows, Revised prior o := by
  cases h with
  | retryCleanup kind atTime target prior _ hcleanup _ hprior _ hsame =>
    cases ho
    refine Or.inr ⟨prior, hprior, ⟨rfl, rfl, rfl, rfl, rfl, rfl, rfl, fun hprovider => ?_,
      fun hfixed => ?_⟩⟩
    · rw [hsame] at hprovider
      rcases hcleanup with rfl | rfl <;> cases hprovider
    · rw [hsame] at hfixed
      rcases hcleanup with rfl | rfl <;> cases hfixed
  | receipt disposition atTime message eligibility prior run' status receipt _ hprior _ _ _
      hdisposition =>
      cases ho
      refine Or.inr ⟨prior, Table.mem_of_get hprior,
        ⟨rfl, rfl, rfl, rfl, rfl, rfl, rfl, fun _ => rfl, fun hfixed => ?_⟩⟩
      rw [hfixed] at hdisposition
      cases hdisposition
  | intent kind atTime target attempt run' receipt _ _ hslot _ _ hentered _ hfree =>
    cases ho
    refine Or.inl ⟨hfree, rfl, rfl, rfl, htask, rfl, ⟨_, rfl, ?_, ?_⟩, hslot⟩
    · rw [RunRecord.countOperation_runId]
      exact hentered.advances.runId
    · rw [RunRecord.countOperation_phase]
      exact hentered.rank
  | resolution request pending atTime receipt _ _ _ _ _ _ _ _ _ hfree =>
    cases ho
    exact Or.inl ⟨hfree, rfl, rfl, rfl, htask, rfl, ⟨_, rfl, rfl, le_rfl⟩,
      fun hcritical => absurd hcritical Bool.false_ne_true⟩
  | cancelSettled | cancelPending | cancelQueued =>
    cases ho
    exact Or.inl ⟨by assumption, rfl, rfl, rfl, htask, rfl, ⟨_, rfl, rfl, Nat.zero_le _⟩,
      fun _ => by assumption⟩
  | _ => exact absurd ho (Option.not_mem_none o)

/-- The operation row a transition writes. -/
theorem Transition.operation_cases (h : Transition options s command e) (ho : o ∈ e.operation) :
    Recorded s command e o ∨ ∃ prior ∈ s.operations.rows, Revised prior o := by
  cases h with
  | admitTask admission receipt _ _ _ hadmissible =>
    rw [admissionEffect] at ho
    cases ho
    exact Or.inl ⟨hadmissible.free, rfl, rfl, rfl, rfl, rfl, ⟨_, rfl, rfl, Nat.zero_le _⟩,
      fun hcritical => absurd hcritical Bool.false_ne_true⟩
  | continueTask admission task previous receipt _ htask _ hcontinues hadmissible =>
    rw [admissionEffect] at ho
    cases ho
    refine Or.inl ⟨?_, rfl, rfl, rfl, (Store.taskId_of_get htask : task.taskId = _), rfl,
      ⟨_, rfl, rfl, Nat.zero_le _⟩, fun hcritical => absurd hcritical Bool.false_ne_true⟩
    have hfree := hadmissible.free
    rw [hcontinues.parent] at hfree
    exact hfree
  | act task run e htask _ _ _ _ _ hchange =>
    exact hchange.operation_cases (Store.taskId_of_get htask) ho
  | retire => exact absurd ho (Option.not_mem_none o)

omit [Platform] in
theorem Revised.refl (o : OperationRecord) : Revised o o :=
  ⟨rfl, rfl, rfl, rfl, rfl, rfl, rfl, fun _ => rfl, fun _ => rfl⟩

omit [Platform] in
theorem Revised.trans {a b c : OperationRecord} (hab : Revised a b) (hbc : Revised b c) :
    Revised a c :=
  ⟨hbc.operationId.trans hab.operationId, hbc.parent.trans hab.parent, hbc.taskId.trans hab.taskId,
    hbc.runId.trans hab.runId, hbc.kind.trans hab.kind, hbc.inputDigest.trans hab.inputDigest,
    hbc.request.trans hab.request,
    fun h => (hbc.ownerEpoch (hab.kind.symm ▸ h)).trans (hab.ownerEpoch h),
    fun h => (hbc.receipt (hab.kind.symm ▸ h)).trans (hab.receipt h)⟩

/-- Where a row comes from: it was recorded by this transition, or it revises
an earlier row. -/
theorem Transition.operation_origin (h : Transition options s command e)
    (ho : o ∈ (s.apply e).operations.rows) :
    (Recorded s command e o ∧ o ∈ e.operation) ∨ ∃ prior ∈ s.operations.rows, Revised prior o := by
  rcases Table.mem_putOption.1 ho with hnew | ⟨hold, -⟩
  · exact (h.operation_cases hnew).imp (fun hrecorded => ⟨hrecorded, hnew⟩) fun hrevised => hrevised
  · exact Or.inr ⟨o, hold, .refl o⟩

/-- Every operation row is still there after a transition, possibly revised. -/
theorem Transition.exists_revised (h : Transition options s command e)
    (hprior : prior ∈ s.operations.rows) :
    ∃ o ∈ (s.apply e).operations.rows, Revised prior o ∧ (o = prior ∨ o ∈ e.operation) := by
  by_cases hwritten : ∃ o ∈ e.operation, prior.key = o.key
  · obtain ⟨o, ho, hkey⟩ := hwritten
    rcases h.operation_cases ho with hrecorded | ⟨earlier, hearlier, hrevised⟩
    · exact absurd hkey (Table.get_eq_none.1 hrecorded.free prior hprior)
    · have hsame : earlier = prior := Table.eq_of_key_eq hearlier hprior
        (hrevised.key.symm.trans hkey.symm)
      subst hsame
      exact ⟨o, Table.mem_putOption.2 (Or.inl ho), hrevised, Or.inr ho⟩
  · simp only [not_exists, not_and] at hwritten
    exact ⟨prior, Table.mem_putOption.2 (Or.inr ⟨hprior, hwritten⟩), .refl prior, Or.inl rfl⟩

/-! ## Linked stores -/

/-- Rows refer to rows that exist, and every run agrees with its phase. -/
structure Linked (s : Store) : Prop where
  runTask : ∀ run ∈ s.runs.rows, ∃ task, s.tasks.get run.taskId = some task
  operationRun : ∀ o ∈ s.operations.rows, ∃ run ∈ s.runs.rows, run.runId = o.runId ∧
    run.taskId = o.taskId ∧ o.kind.rank ≤ run.phase.rank
  operationTask : ∀ o ∈ s.operations.rows, ∃ task, s.tasks.get o.taskId = some task ∧
    o.parent = task.parent
  observed : ∀ o ∈ s.observations.rows, ∃ run ∈ s.runs.rows, run.runId = o.runId ∧
    o.index ≤ run.observationIndex
  reserved : ∀ a ∈ s.operations.rows, ∀ b ∈ s.operations.rows, a.kind.critical = true →
    a.kind = b.kind → a.runId = b.runId → a = b
  sound : ∀ run ∈ s.runs.rows, run.Sound

omit [Platform] in
theorem Linked.empty : Linked .empty := by
  constructor <;> simp [Store.empty]

/-- A change keeps its run in agreement with its phase. -/
theorem Change.sound (h : Change options s command task run e) (hsound : run.Sound)
    (hoperations : ∀ o ∈ s.operations.rows, o.runId = run.runId → o.kind.rank ≤ run.phase.rank) :
    ∀ r ∈ e.run, r.Sound := by
  have hnext := hsound.next
  cases h with
  | intent kind atTime target attempt run' receipt _ _ _ _ _ hentered =>
    rintro r ⟨⟩
    exact (hsound.entered hentered).countOperation kind
  | receipt disposition atTime message eligibility prior run' status receipt _ hprior _ hrun _ _ _
      _ _ _ _ hanswered =>
      rintro r ⟨⟩
      have hrank := (hoperations prior (Table.mem_of_get hprior) hrun).trans hanswered.advances.rank
      exact (hsound.answered hanswered).settleIntent prior.kind disposition
        (fun hkind => by rw [hkind] at hrank; exact hrank)
        (fun hkind => by rw [hkind] at hrank; exact hrank)
  | request state request atTime run' _ hrequested =>
    rintro r ⟨⟩
    exact hsound.requested hrequested
  | resolution request pending atTime receipt _ hpending _ hphase =>
    rintro r ⟨⟩
    obtain ⟨ho, ha, hf⟩ := hsound.unsettled (by rw [hphase]; decide)
    have hdispatch := hsound.live (by rw [hphase]; rfl)
    constructor <;>
      simp [RunRecord.countOperation, OperationKind.critical, RunRecord.next, RunPhase.rank,
        hdispatch, ho, ha, hf]
  | cancelQueued | settle =>
    rintro r ⟨⟩
    exact finish_sound _ _ _ _ _
  | cancelPending | observe | overflow =>
    rintro r ⟨⟩
    exact { hnext with }
  | _ =>
    rintro r ⟨⟩
    exact hnext

/-- The observation row a change writes: the next of its run, or the marker of
its omissions once more. -/
theorem Change.observation_cases (h : Change options s command task run e) {o : TaskObservation}
    (ho : o ∈ e.observation) :
    (o.runId = run.runId ∧ o.index = run.observationIndex + 1 ∧
        ∃ r ∈ e.run, r.runId = run.runId ∧ r.observationIndex = o.index) ∨
      ∃ old ∈ s.observations.rows, old.kind = .omitted ∧
        ∃ omitted, o = { old with omitted } := by
  cases h with
  | observe observation _ _ _ _ _ _ hrun hindex =>
    cases ho
    exact Or.inl ⟨hrun, hindex, _, rfl, rfl, rfl⟩
  | overflow observation marker _ _ _ _ _ _ _ hindex _ hmarker =>
    cases ho
    rcases hmarker with ⟨old, hold, _, hkind, rfl⟩ | ⟨_, rfl⟩
    · exact Or.inr ⟨old, hold, hkind, _, rfl⟩
    · exact Or.inl ⟨rfl, hindex, _, rfl, rfl, rfl⟩
  | _ => exact absurd ho (Option.not_mem_none o)

/-- The observation row a transition writes. -/
theorem Transition.observation_cases (h : Transition options s command e) {o : TaskObservation}
    (ho : o ∈ e.observation) :
    (∃ run ∈ s.runs.rows, o.runId = run.runId ∧ o.index = run.observationIndex + 1 ∧
        ∃ r ∈ e.run, r.runId = run.runId ∧ r.observationIndex = o.index) ∨
      ∃ old ∈ s.observations.rows, old.kind = .omitted ∧
        ∃ omitted, o = { old with omitted } := by
  cases h with
  | act task run e _ hrun _ _ _ _ hchange =>
    rcases hchange.observation_cases ho with ⟨hid, hindex, hnew⟩ | hmarker
    · exact Or.inl ⟨run, hrun, hid, hindex, hnew⟩
    · exact Or.inr hmarker
  | _ => exact absurd ho (Option.not_mem_none o)

/-- A transition keeps every run in agreement with its phase. -/
theorem Transition.sound (h : Transition options s command e) (hlinked : Linked s) :
    ∀ r ∈ e.run, r.Sound := by
  cases h with
  | admitTask admission | continueTask admission =>
    rintro r ⟨⟩
    exact (admittedRun_sound command admission _).countOperation .admitRun
  | act task run e _ hrun _ _ _ _ hchange =>
    refine hchange.sound (hlinked.sound run hrun) fun o ho hid => ?_
    obtain ⟨owner, howner, hrunId, _, hrank⟩ := hlinked.operationRun o ho
    rwa [Store.run_eq howner hrun (hrunId.trans hid)] at hrank
  | retire reason atTime task named receipt _ _ _ hnamed =>
    intro r hr
    obtain ⟨run, hrun, rfl⟩ := Option.map_eq_some_iff.1 hr
    exact (hlinked.sound run (hnamed run hrun).1).next

/-- A transition keeps the store linked. -/
theorem Linked.apply (h : Transition options s command e) (hlinked : Linked s) :
    Linked (s.apply e) := by
  have hplaced := h.place
  have htask : ∀ taskId, (∃ task, s.tasks.get taskId = some task) →
      ∃ task, (s.apply e).tasks.get taskId = some task := by
    rintro taskId ⟨task, hget⟩
    obtain ⟨task', hget', -⟩ := h.exists_advanced_task hget
    exact ⟨task', hget'⟩
  have hnamed : (s.apply e).tasks.get command.taskId = some (e.finalTask s) := by
    rw [Store.apply_tasks_get, if_pos hplaced.task.symm]
  refine ⟨?_, ?_, ?_, ?_, ?_, ?_⟩
  · intro run hrun
    rcases Table.mem_putOption.1 hrun with hnew | ⟨hold, -⟩
    · rw [hplaced.run run hnew]
      exact ⟨_, hnamed⟩
    · exact htask _ (hlinked.runTask run hold)
  · intro o ho
    have hadvanced : ∀ prior ∈ s.operations.rows, ∃ run ∈ (s.apply e).runs.rows,
        run.runId = prior.runId ∧ run.taskId = prior.taskId ∧
          prior.kind.rank ≤ run.phase.rank := by
      intro prior hprior
      obtain ⟨run, hrun, hid, htaskId, hrank⟩ := hlinked.operationRun prior hprior
      obtain ⟨new, hnew, hadvances⟩ := h.exists_advanced hrun
      exact ⟨new, hnew, hadvances.runId.trans hid, hadvances.taskId.trans htaskId,
        hrank.trans hadvances.rank⟩
    rcases h.operation_origin ho with ⟨hrecorded, -⟩ | ⟨prior, hprior, hrevised⟩
    · obtain ⟨r, hr, hid, hrank⟩ := hrecorded.run
      exact ⟨r, Table.mem_putOption.2 (Or.inl hr), hid,
        (hplaced.run r hr).trans hrecorded.taskId.symm, hrank⟩
    · rw [hrevised.runId, hrevised.taskId, hrevised.kind]
      exact hadvanced prior hprior
  · intro o ho
    have hkept : ∀ prior ∈ s.operations.rows, ∃ task,
        (s.apply e).tasks.get prior.taskId = some task ∧ prior.parent = task.parent := by
      intro prior hprior
      obtain ⟨task, hget, hparent⟩ := hlinked.operationTask prior hprior
      obtain ⟨task', hget', hadvances⟩ := h.exists_advanced_task hget
      exact ⟨task', hget', hparent.trans hadvances.parent.symm⟩
    rcases h.operation_origin ho with ⟨hrecorded, -⟩ | ⟨prior, hprior, hrevised⟩
    · exact ⟨e.finalTask s, hrecorded.taskId ▸ hnamed, hrecorded.parent⟩
    · rw [hrevised.taskId, hrevised.parent]
      exact hkept prior hprior
  · intro o ho
    have hkept : ∀ old ∈ s.observations.rows, ∃ run ∈ (s.apply e).runs.rows,
        run.runId = old.runId ∧ old.index ≤ run.observationIndex := by
      intro old hold
      obtain ⟨run, hrun, hid, hindex⟩ := hlinked.observed old hold
      obtain ⟨new, hnew, hadvances⟩ := h.exists_advanced hrun
      exact ⟨new, hnew, hadvances.runId.trans hid, hindex.trans hadvances.observed⟩
    rcases Table.mem_putOption.1 ho with hnew | ⟨hold, -⟩
    · rcases h.observation_cases hnew with ⟨run, -, hid, -, r, hr, hrunId, hindex⟩ |
        ⟨old, hold, -, omitted, rfl⟩
      · exact ⟨r, Table.mem_putOption.2 (Or.inl hr), hrunId.trans hid.symm, hindex.ge⟩
      · exact hkept old hold
    · exact hkept o hold
  · -- Two rows of one reserved kind: a new one would have found the slot taken.
    intro a ha b hb hcritical hkind hrun
    rcases h.operation_origin ha with ⟨hrecorded, hnew⟩ | ⟨pa, hpa, hreva⟩
    · rcases h.operation_origin hb with ⟨-, hnew'⟩ | ⟨pb, hpb, hrevb⟩
      · exact Option.mem_unique hnew hnew'
      · exact absurd (hrevb.kind.symm.trans hkind.symm)
          (hrecorded.slot hcritical pb hpb (hrevb.runId.symm.trans hrun.symm))
    · rcases h.operation_origin hb with ⟨hrecorded, -⟩ | ⟨pb, hpb, hrevb⟩
      · exact absurd (hreva.kind.symm.trans hkind) (hrecorded.slot (hkind ▸ hcritical) pa hpa
          (hreva.runId.symm.trans hrun))
      · have hsame : pa = pb := hlinked.reserved pa hpa pb hpb (hreva.kind ▸ hcritical)
          (hreva.kind.symm.trans (hkind.trans hrevb.kind))
          (hreva.runId.symm.trans (hrun.trans hrevb.runId))
        subst hsame
        exact Table.eq_of_key_eq ha hb (hreva.key.trans hrevb.key.symm)
  · intro run hrun
    rcases Table.mem_putOption.1 hrun with hnew | ⟨hold, -⟩
    · exact h.sound hlinked run hnew
    · exact hlinked.sound run hold

omit [Platform] in
theorem Linked.withOwner (h : Linked s) (owner : Option OwnerToken) (epoch : Nat) :
    Linked (s.withOwner owner epoch) :=
  { h with }

/-- **Every reachable store is linked.** -/
theorem Linked.reachable (options : StoreOptions) (calls : List StoreCall) :
    Linked (Store.empty.run options calls) := by
  exact Store.run_rule .empty (fun s owner epoch hs => hs.withOwner owner epoch)
    (fun s command e hs hcommitted => hs.apply hcommitted.transition) calls

end AgentSdk.Delegation
