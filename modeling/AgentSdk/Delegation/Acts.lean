import AgentSdk.Delegation.Transition

/-!
# Provider work is a change

What a commit reads, what a command that repeats nothing may rely on, and the
inversion of the handlers of provider intents, receipts and requests: each
leaves the rows of one change.

## Main results

* `dispatchIntent_cases`, `operationReceipt_cases`, `requestState_cases`.
-/

namespace AgentSdk.Delegation

open AgentSdk.Text AgentSdk.Calendar AgentSdk.Outcome

variable [Platform] {options : StoreOptions} {s : Store} {command : StoreCommand}

/-! ## What a commit reads -/

theorem mem_current_runs {run : RunRecord} :
    run ∈ (s.current options command).runs ↔ run ∈ s.runs.rows ∧ run.taskId = command.taskId := by
  simp [Store.current]

theorem mem_current_criticalOperations {operation : OperationRecord} :
    operation ∈ (s.current options command).criticalOperations ↔
      operation ∈ s.operations.rows ∧ some operation.runId = commandRunId command ∧
        operation.kind.critical = true := by
  simp only [Store.current, List.mem_filter, decide_eq_true_eq, and_assoc]

theorem namedRun_eq_some {run : RunRecord}
    (h : (s.current options command).namedRun command = some run) :
    run ∈ s.runs.rows ∧ run.taskId = command.taskId ∧ command.runId = some run.runId := by
  have hmem := mem_current_runs.1 (List.mem_of_find?_eq_some h)
  have hid := List.find?_some h
  simp only [decide_eq_true_eq] at hid
  exact ⟨hmem.1, hmem.2, hid.symm⟩

/-! ## Repeated commands -/

/-- What a retained operation and a command agree on when the command is not a
repetition of it. -/
structure NotRepeated (command : StoreCommand) (prior : OperationRecord) : Prop where
  digest : prior.inputDigest = command.inputDigest
  kind : ∀ k ∈ operationKind command, prior.kind = k
  place : command.isAdmit = false →
    prior.taskId = command.taskId ∧ some prior.runId = command.runId
  disposition : ∀ d a m e, command.body = .operationReceipt d a m e → prior.disposition ≠ d
  retry : (operationKind command).isSome = true → cleanupRetry command prior = true

omit [Platform] in
theorem duplicateOperation_eq_none {prior : OperationRecord}
    (h : duplicateOperation command prior = .ok none) : NotRepeated command prior := by
  rw [duplicateOperation, failIf_bind_eq_ok] at h
  obtain ⟨hguard, hrest⟩ := h
  simp only [not_or, not_and, ne_eq, not_not, Bool.not_eq_true, Option.any_eq_false,
    decide_eq_false_iff_not] at hguard
  obtain ⟨hdigest, hkind, hplace⟩ := hguard
  refine ⟨hdigest, hkind, hplace, ?_, ?_⟩
  · intro d a m e hbody hd
    simp only [hbody, hd, if_true, failIf_bind_eq_ok, pure_eq_ok, Except.ok.injEq,
      reduceCtorEq, and_false] at hrest
  · intro hsome
    by_contra hretry
    rw [Bool.not_eq_true] at hretry
    have hreceipt : ∀ d a m e, command.body ≠ .operationReceipt d a m e := by
      intro d a m e hbody
      simp [operationKind, hbody] at hsome
    cases hbody : command.body <;>
      first
        | exact hreceipt _ _ _ _ hbody
        | simp [hbody, hsome, hretry] at hrest

variable (options s command) in
/-- A command that is no delivery command and repeats nothing. -/
theorem notRepeated_of_duplicate
    (hclaim : ∀ n r a t, command.body ≠ .deliveryClaim n r a t)
    (hanswer : ∀ n r a d t, command.body ≠ .deliveryReceipt n r a d t)
    (h : duplicate command (s.current options command) = .ok none) :
    ∀ prior ∈ (s.current options command).operation, NotRepeated command prior := by
  intro prior hprior
  rw [Option.mem_def] at hprior
  cases hbody : command.body with
  | deliveryClaim n r a t => exact absurd hbody (hclaim n r a t)
  | deliveryReceipt n r a d t => exact absurd hbody (hanswer n r a d t)
  | _ =>
    simp only [duplicate, hbody, bind_eq_ok, duplicateRetained, hprior] at h
    obtain ⟨retained, hretained, hrest⟩ := h
    cases retained with
    | none => exact duplicateOperation_eq_none hretained
    | some receipt => simp at hrest

variable {atTime : JsString} {kind : OperationKind} {target : Option TargetReference}

theorem cancelSlot_of_duplicate {reason : JsString} (hbody : command.body = .cancel atTime reason)
    (h : duplicate command (s.current options command) = .ok none) {runId : JsString}
    (hrun : command.runId = some runId) : s.slotFree runId .cancel := by
  simp only [duplicate, hbody, bind_eq_ok] at h
  obtain ⟨retained, -, hrest⟩ := h
  cases retained with
  | some receipt => simp at hrest
  | none =>
    intro operation hmem hid hkind
    cases hfind : (s.current options command).criticalOperations.find?
        (fun o => decide (o.kind = .cancel)) with
    | some canonical => simp [hfind] at hrest
    | none =>
      have hcritical : operation ∈ (s.current options command).criticalOperations :=
        mem_current_criticalOperations.2
          ⟨hmem, by rw [commandRunId, hbody, hrun, hid], by rw [hkind]; rfl⟩
      simpa [hkind] using List.find?_eq_none.1 hfind operation hcritical

theorem unfinal_of_duplicate {outcome : RunOutcome} {run : RunRecord}
    (hbody : command.body = .settle outcome atTime)
    (h : duplicate command (s.current options command) = .ok none)
    (hrun : (s.current options command).namedRun command = some run) : run.finalization = none := by
  simp only [duplicate, hbody, bind_eq_ok, hrun] at h
  obtain ⟨retained, -, hrest⟩ := h
  cases retained with
  | some receipt => simp at hrest
  | none =>
    cases hfinal : run.finalization with
    | none => rfl
    | some finalization => simp [duplicateSettlement, hfinal, failIf_bind_eq_ok] at hrest

/-- The fences of a delivery command that repeats nothing. -/
theorem deliverable_of_duplicate {slot : DeliverySlot} {notificationId attemptId : JsString}
    {run : RunRecord} {prior : NotificationRecord}
    (hrun : command.runId = some run.runId)
    (hprior : s.notifications.get notificationId = some prior)
    (hcurrent : (s.current options command).notification = some prior)
    (hpolicy : prior.envelope.policy ≠ .collect)
    (h : duplicateDelivery command (s.current options command) slot notificationId attemptId =
      .ok none) :
    Deliverable s command run slot notificationId attemptId prior.revision prior := by
  simp only [duplicateDelivery, hcurrent, bind_eq_ok, failIf_eq_ok, exists_const] at h
  obtain ⟨hplace, hother, hrest⟩ := h
  simp only [not_or, ne_eq, not_not, hrun, Option.some.injEq] at hplace
  cases hretained : (prior.slot slot).filter
      (fun retained => decide (retained.operationId = command.operationId)) with
  | some retained =>
    simp [hretained, bind_eq_ok, failIf_eq_ok] at hrest
  | none =>
    simp only [hretained, bind_eq_ok, failIf_eq_ok, exists_const, not_or, not_lt, gt_iff_lt,
      ne_eq, not_not] at hrest
    obtain ⟨⟨hmax, hmin⟩, ⟨hattempt, hoperation⟩, _⟩ := hrest
    refine ⟨hprior, hplace.2.1, hplace.2.2, ?_, ?_, ⟨by omega, hmax⟩, hattempt, hoperation, rfl,
      hpolicy⟩
    · intro record hrecord heq
      rw [Option.mem_def] at hrecord
      simp [hrecord, heq] at hother
    · intro record hrecord heq
      rw [Option.mem_def] at hrecord
      simp [hrecord, heq] at hretained

/-! ## Handlers -/

/-- The rows an effect writes besides the task, the run and the counters. -/
def Store.writeRows (t : Store) (e : Effect) : Store :=
  { t with
    operations := t.operations.putOption e.operation,
    observations := t.observations.putOption e.observation,
    notifications := t.notifications.putOption e.notification,
    ceilings := t.ceilings.putOption e.ceiling }

/-- A finished working copy has the contents of an effect. -/
structure Realizes (options : StoreOptions) (s : Store) (command : StoreCommand)
    (context : CommitContext) (e : Effect) : Prop where
  current : context.current = s.current options command
  task : context.task = e.task
  run : context.run = e.run
  capacity : context.capacity = e.capacity
  receipt : context.receipt = e.receipt
  writes : ∀ t : Store,
    (context.mutations.map (finalizeMutation context.receipt)).foldl Store.write t = t.writeRows e

/-- The working copy of a command on an existing run. -/
def actContext (options : StoreOptions) (s : Store) (command : StoreCommand) (task : TaskRecord)
    (run : RunRecord) : CommitContext :=
  { command, current := s.current options command, task := task.next, run := some run.next,
    capacity := s.capacity, mutations := [],
    receipt := baseReceipt command task.next (some run.next) }

variable {task : TaskRecord} {run : RunRecord} {context : CommitContext}

/-- No retained operation carries the identity of a command that records one. -/
theorem operationFree_of_notRepeated (task : TaskRecord)
    (hsome : (operationKind command).isSome = true)
    (hretry : ∀ prior, cleanupRetry command prior = false)
    (hparent : commandParent s command = some task.parent)
    (hrepeat : ∀ prior ∈ (s.current options command).operation, NotRepeated command prior) :
    s.operationFree task command := by
  cases hget : s.operations.get (operationKey task.parent command.operationId) with
  | none => exact hget
  | some prior =>
    have hprior : (s.current options command).operation = some prior := by
      simp only [Store.current, hparent, Option.bind_some, hget]
    have hagain := (hrepeat prior hprior).retry hsome
    rw [hretry prior] at hagain
    exact absurd hagain Bool.false_ne_true

/-- The guard of a first intent, from the handler's own check. -/
theorem enterIntent_cases (hkind : kind ≠ .admitRun ∧ kind ≠ .cancel)
    (hnamed : command.runId = some run.runId)
    (hbody : ∃ atTime attempt, command.body = .dispatchIntent kind atTime target attempt)
    (hclose : kind = .bindingCleanup → (s.current options command).criticalOperations.any
      (fun operation => decide (operation.kind = .sessionClose)) = true)
    (h : enterIntent (actContext options s command task run) run.next kind target = .ok context) :
    ∃ run', Entered options s command run target kind run' ∧
      context = { actContext options s command task run with
        capacity := s.capacity.moveRun run.phase run'.phase, run := some run' } := by
  obtain ⟨atTime, attempt, hbody⟩ := hbody
  cases kind with
  | admitRun => exact absurd rfl hkind.1
  | cancel => exact absurd rfl hkind.2
  | prepare =>
    simp only [enterIntent, bind_eq_ok, failIf_eq_ok, exists_const, not_or, ne_eq, not_not,
      setRun_of _ _ (show (actContext options s command task run).run = some run.next from rfl),
      Except.ok.injEq] at h
    obtain ⟨⟨hphase, hdispatch⟩, ⟨halone, hroom⟩, rfl⟩ := h
    refine ⟨_, .prepare hphase hdispatch ?_ (not_le.1 hroom), rfl⟩
    intro other hmem htask hne
    simp only [List.any_eq_true, Bool.and_eq_true, decide_eq_true_eq, not_exists, not_and,
      not_or] at halone
    have hidle := halone other (mem_current_runs.2 ⟨hmem, htask⟩) hne
    cases hother : other.phase <;> simp [hother] at hidle ⊢
  | turn =>
    simp only [enterIntent, bind_eq_ok, failIf_eq_ok, exists_const, not_or, ne_eq, not_not,
      setRun_of _ _ (show (actContext options s command task run).run = some run.next from rfl),
      Except.ok.injEq] at h
    obtain ⟨⟨hphase, hpreparation, hdispatch, hsame, hsome⟩, rfl⟩ := h
    cases target with
    | none => exact absurd rfl hsome
    | some applied =>
      have happlied : applied = run.admittedTarget :=
        TargetReference.eq_of_same (by
          simp only [Option.all_some, Bool.not_eq_false] at hsame
          exact hsame)
      exact ⟨_, .turn hphase hpreparation hdispatch (by rw [happlied]), rfl⟩
  | configure =>
    simp only [enterIntent, failIf_bind_eq_ok, pure_eq_ok, Except.ok.injEq, ne_eq, not_not] at h
    obtain ⟨hphase, rfl⟩ := h
    exact ⟨_, .configure hphase, by rw [RunRecord.next, Capacity.moveRun_self]; rfl⟩
  | steer =>
    simp only [enterIntent, failIf_bind_eq_ok, pure_eq_ok, Except.ok.injEq, ne_eq, not_not] at h
    obtain ⟨hphase, rfl⟩ := h
    exact ⟨_, .steer hphase, by rw [RunRecord.next, Capacity.moveRun_self]; rfl⟩
  | requestResolution => simp [enterIntent] at h
  | interrupt =>
    simp only [enterIntent, failIf_bind_eq_ok, pure_eq_ok, Except.ok.injEq, not_or,
      Bool.not_eq_false] at h
    obtain ⟨⟨hqueued, hsettled, hcancel⟩, rfl⟩ := h
    exact ⟨_, .interrupt hqueued hsettled hcancel,
      by rw [RunRecord.next, Capacity.moveRun_self]; rfl⟩
  | sessionClose =>
    simp only [enterIntent, pure_eq_ok, Except.ok.injEq] at h
    subst h
    exact ⟨_, .sessionClose, by rw [RunRecord.next, Capacity.moveRun_self]; rfl⟩
  | bindingCleanup =>
    simp only [enterIntent, pure_eq_ok, Except.ok.injEq] at h
    subst h
    obtain ⟨operation, hmem, hsession⟩ := List.any_eq_true.1 (hclose rfl)
    obtain ⟨hrow, hrunId, _⟩ := mem_current_criticalOperations.1 hmem
    rw [commandRunId, hbody, hnamed] at hrunId
    exact ⟨_, .bindingCleanup ⟨operation, hrow, by simpa using hrunId, by simpa using hsession⟩,
      by rw [RunRecord.next, Capacity.moveRun_self]; rfl⟩

omit [Platform] in
/-- The run a first intent leaves keeps what the ledgers count. -/
theorem Entered.counts {run' : RunRecord} (h : Entered options s command run target kind run') :
    run'.ordinaryOperationCount = run.ordinaryOperationCount ∧ run'.runId = run.runId := by
  cases h <;> exact ⟨rfl, rfl⟩

theorem dispatchIntent_cases {attempt : Option Nat}
    (hbody : command.body = .dispatchIntent kind atTime target attempt)
    (hschema : kind ≠ .admitRun ∧ kind ≠ .cancel) (hnamed : command.runId = some run.runId)
    (hparent : commandParent s command = some task.parent)
    (hrepeat : ∀ prior ∈ (s.current options command).operation, NotRepeated command prior)
    (h : dispatchIntent (actContext options s command task run) kind atTime target attempt =
      .ok context) :
    ∃ e, Change options s command task run e ∧ Realizes options s command context e := by
  have hrun : (actContext options s command task run).run = some run.next := rfl
  simp only [dispatchIntent, requireRun_of _ hrun, ok_bind, failIf_bind_eq_ok] at h
  obtain ⟨hepoch, h⟩ := h
  have hepoch' : run.ownerEpoch = command.owner.epoch ∨ kind = .prepare := by
    by_contra hne
    exact hepoch ⟨fun he => hne (Or.inl he), fun hk => hne (Or.inr hk)⟩
  cases hfind : (s.current options command).criticalOperations.find?
      (fun operation => decide (operation.kind = kind)) with
  | some prior =>
    have hmem := mem_current_criticalOperations.1 (List.mem_of_find?_eq_some hfind)
    have hkind : prior.kind = kind := by simpa using List.find?_some hfind
    have hfind' : (actContext options s command task run).current.criticalOperations.find?
        (fun operation => decide (operation.kind = kind)) = some prior := hfind
    simp only [hfind', failIf_bind_eq_ok, pure_eq_ok, Except.ok.injEq] at h
    obtain ⟨hguard, rfl⟩ := h
    simp only [not_or, not_and, ne_eq, not_not] at hguard
    obtain ⟨hcleanup, hattempt, hfirst, hdisposition, hid, hdigest⟩ := hguard
    have hrunId : prior.runId = run.runId := by
      have := hmem.2.1
      rw [commandRunId, hbody, hnamed] at this
      simpa using this
    have hcleanup' : kind = .sessionClose ∨ kind = .bindingCleanup := by
      by_cases hk : kind = .sessionClose
      · exact Or.inl hk
      · exact Or.inr (hcleanup hk)
    refine ⟨_, .retryCleanup kind atTime target prior (by rw [hbody, hattempt]) hcleanup' ?_
      hmem.1 hrunId hkind hfirst ?_ hid hdigest, ⟨rfl, rfl, rfl, rfl, rfl, fun t => rfl⟩⟩
    · rcases hepoch' with he | hk
      · exact he
      · rcases hcleanup' with hk' | hk' <;> rw [hk] at hk' <;> cases hk'
    · by_cases hr : prior.disposition = .rejected
      · exact Or.inl hr
      · exact Or.inr (hdisposition hr)
  | none =>
    have hfind' : (actContext options s command task run).current.criticalOperations.find?
        (fun operation => decide (operation.kind = kind)) = none := hfind
    simp only [hfind', bind_eq_ok, failIf_eq_ok, exists_const] at h
    obtain ⟨hattempt, hclose, hlive, entered, hentered, added, hadded, final, hfinal, hdone⟩ := h
    obtain ⟨run', hrun', rfl⟩ := enterIntent_cases hschema hnamed ⟨_, _, hbody⟩
      (fun hk => by
        by_contra hne
        exact hclose ⟨hk, Bool.not_eq_true _ ▸ hne⟩) hentered
    rw [addOperation_eq_ok run' rfl] at hadded
    obtain ⟨hledger, -, rfl⟩ := hadded
    rw [requireRun_of _ rfl] at hfinal
    cases hfinal
    rw [pure_eq_ok] at hdone
    cases hdone
    obtain ⟨hcount, hrunId⟩ := hrun'.counts
    have hstatus : (run'.countOperation kind).phase = run'.phase := by
      unfold RunRecord.countOperation
      split <;> rfl
    refine ⟨_, .intent kind atTime target attempt run' _ hbody hepoch' ?_ (not_not.1 hattempt) ?_
      hrun' ?_ ?_ rfl, ⟨rfl, rfl, rfl, rfl, ?_, fun t => ?_⟩⟩
    · intro hcritical operation hmem hid hkind
      have hcrit : operation ∈ (s.current options command).criticalOperations :=
        mem_current_criticalOperations.2
          ⟨hmem, by rw [commandRunId, hbody, hnamed, hid], by rw [hkind]; exact hcritical⟩
      simpa [hkind] using List.find?_eq_none.1 hfind operation hcrit
    · intro hcritical
      simp only [not_and, not_or, Bool.not_eq_true] at hlive
      exact hlive hcritical
    · intro hcritical
      obtain ⟨hfew, hroom⟩ := hledger hcritical
      have hmoved := (s.capacity.moveRun_rest run.phase run'.phase).2.2.2.2.1
      rw [hcount] at hfew
      exact ⟨hfew, hmoved ▸ hroom⟩
    · refine operationFree_of_notRepeated _ (by rw [operationKind, hbody]; rfl) ?_ hparent hrepeat
      intro prior
      have hfirst : attempt ≠ some 2 := by
        rintro rfl
        exact hattempt (by decide)
      simp [cleanupRetry, hbody, hfirst]
    · simp only [hstatus]
      rfl
    · simp only [hrunId, hstatus]
      rfl

omit [Platform] in
/-- How a receipt reached the pending request. -/
theorem answerRequest_cases {start : CommitContext} {prior : OperationRecord}
    {disposition : Disposition} {eligibility : Option Eligibility}
    (hkind : prior.kind = .requestResolution) (hrun : start.run = some run.next)
    (h : answerRequest start prior disposition eligibility = .ok context) :
    ∃ run' status, Answered run prior disposition eligibility run' status ∧
      context = { start with
        run := some run', capacity := start.capacity.moveRun run.phase run'.phase,
        receipt := { start.receipt with status } } := by
  simp only [answerRequest, requireRun_of _ hrun, ok_bind] at h
  cases hidentity : prior.request with
  | none => simp [hidentity] at h
  | some identity =>
    simp only [hidentity, bind_eq_ok] at h
    obtain ⟨answered, hanswered, final, hfinal, hdone⟩ := h
    cases hpending : run.next.pendingRequest.filter
        (fun pending => decide (pending.is identity)) with
    | none =>
      simp only [hpending, answerIdentity, pure_eq_ok, Except.ok.injEq] at hanswered
      subst hanswered
      rw [requireRun_of _ hrun] at hfinal
      cases hfinal
      rw [pure_eq_ok] at hdone
      cases hdone
      refine ⟨_, _, .elsewhere identity hkind hidentity ?_, ?_⟩
      · intro pending hmem hmatch
        rw [Option.mem_def] at hmem
        have hnext : run.next.pendingRequest = some pending := hmem
        rw [hnext] at hpending
        simp [HistoricalRequest.is, hmatch] at hpending
      · rw [RunRecord.next, Capacity.moveRun_self, ← RunRecord.next, ← hrun]
        rfl
    | some pending =>
      obtain ⟨hmem, hmatch⟩ := Option.filter_eq_some_iff.1 hpending
      simp only [hpending, answerIdentity, answerPending, failIf_bind_eq_ok, setRun_of _ _ hrun,
        Except.ok.injEq] at hanswered
      obtain ⟨hstate, rfl⟩ := hanswered
      rw [requireRun_of _ rfl] at hfinal
      cases hfinal
      rw [pure_eq_ok] at hdone
      cases hdone
      refine ⟨_, _, .pending identity pending _ hkind hidentity hmem
        (of_decide_eq_true hmatch) ?_ rfl, rfl⟩
      by_cases hs : pending.state = .resolutionIntended
      · exact Or.inl hs
      · exact Or.inr (by
          by_contra hu
          exact hstate ⟨hs, hu⟩)

omit [Platform] in
/-- A receipt's own effect keeps the phase of its run. -/
theorem settleIntent_phase (kind : OperationKind) (disposition : Disposition) (run : RunRecord) :
    (settleIntent kind disposition run).phase = run.phase := by
  cases kind <;> cases disposition <;> rfl

theorem operationReceipt_cases {disposition : Disposition} {message : Option JsString}
    {eligibility : Option Eligibility}
    (hbody : command.body = .operationReceipt disposition atTime message eligibility)
    (hnamed : command.runId = some run.runId)
    (hparent : commandParent s command = some task.parent)
    (hrepeat : ∀ prior ∈ (s.current options command).operation, NotRepeated command prior)
    (h : operationReceipt (actContext options s command task run) disposition atTime message
      eligibility = .ok context) :
    ∃ e, Change options s command task run e ∧ Realizes options s command context e := by
  have hoperation : (actContext options s command task run).current.operation =
      s.operations.get (operationKey task.parent command.operationId) := by
    simp only [actContext, Store.current, hparent, Option.bind_some]
  cases hget : s.operations.get (operationKey task.parent command.operationId) with
  | none => simp [operationReceipt, hoperation, hget] at h
  | some prior =>
    have hprior : (s.current options command).operation = some prior := by
      rw [← hget]
      exact hoperation
    have hnew := hrepeat prior hprior
    simp only [operationReceipt, hoperation, hget, bind_eq_ok, failIf_eq_ok, exists_const,
      delegationDataBytes_eq_ok] at h
    obtain ⟨hplace, hdisposition, heligibility, hopen, hepoch, hcleanup, n, -, -,
      answered, hanswered, hset⟩ := h
    simp only [not_or, ne_eq, not_not] at hplace
    have hrunId : prior.runId = run.runId := by
      have hsome : some prior.runId = command.runId := hplace.1
      rw [hnamed, Option.some.injEq] at hsome
      exact hsome
    have hstart : ∃ run' status, Answered run prior disposition eligibility run' status ∧
        answered = { actContext options s command task run with
          mutations := [.operation { prior with
            disposition, atTime,
            requestState := if eligibility.isSome then eligibility else prior.requestState,
            message := if message.any (fun m => decide (m ≠ [])) then message
              else prior.message,
            receipt := { baseReceipt command task.next (some run.next) with
              operationId := some command.operationId } }],
          run := some run', capacity := s.capacity.moveRun run.phase run'.phase,
          receipt := { baseReceipt command task.next (some run.next) with status } } := by
      by_cases hkind : prior.kind = .requestResolution
      · rw [answerOperation, if_pos hkind] at hanswered
        obtain ⟨run', status, hanswer, rfl⟩ := answerRequest_cases hkind rfl hanswered
        exact ⟨run', status, hanswer, rfl⟩
      · rw [answerOperation, if_neg hkind, pure_eq_ok] at hanswered
        cases hanswered
        exact ⟨_, _, .plain hkind, by rw [RunRecord.next, Capacity.moveRun_self]; rfl⟩
    obtain ⟨run', status, hanswer, rfl⟩ := hstart
    rw [setRun_of run' _ rfl] at hset
    cases hset
    refine ⟨_, .receipt disposition atTime message eligibility prior run' status _ hbody hget
      (hnew.place (by rw [StoreCommand.isAdmit, hbody])).1 hrunId hplace.2
      (not_not.1 hdisposition) (hnew.disposition _ _ _ _ hbody) (not_not.1 heligibility) ?_
      (not_not.1 hepoch) ?_ hanswer rfl, ⟨rfl, rfl, rfl, ?_, rfl, fun t => rfl⟩⟩
    · simp only [not_or] at hopen
      exact hopen
    · intro hk hd
      by_contra hne
      refine hcleanup ⟨hk, hd, ?_⟩
      rw [Bool.eq_false_iff]
      intro hany
      obtain ⟨operation, hmem, hclosed⟩ := List.any_eq_true.1 hany
      obtain ⟨hrow, hrunId, _⟩ := mem_current_criticalOperations.1 hmem
      rw [commandRunId, hbody, hnamed] at hrunId
      exact hne ⟨operation, hrow, by simpa using hrunId, of_decide_eq_true hclosed⟩
    · simp only [settleIntent_phase, Capacity.moveRun_self]

theorem requestState_cases {state : RequestStep} {request : HistoricalRequest}
    (hbody : command.body = .requestState state request atTime)
    (hparent : commandParent s command = some task.parent)
    (hrepeat : ∀ prior ∈ (s.current options command).operation, NotRepeated command prior)
    (h : requestState (actContext options s command task run) state request atTime =
      .ok context) :
    ∃ e, Change options s command task run e ∧ Realizes options s command context e := by
  have hrun : (actContext options s command task run).run = some run.next := rfl
  simp only [requestState, requireRun_of _ hrun, ok_bind, bind_eq_ok] at h
  obtain ⟨stepped, hstep, final, hfinal, hdone⟩ := h
  have hfinish : ∀ {run' : RunRecord},
      stepped = { actContext options s command task run with
        capacity := s.capacity.moveRun run.phase run'.phase, run := some run' } →
      Requested command run request state run' →
      ∃ e, Change options s command task run e ∧ Realizes options s command context e := by
    rintro run' rfl hrequested
    rw [requireRun_of run' rfl, Except.ok.injEq] at hfinal
    subst hfinal
    rw [pure_eq_ok] at hdone
    cases hdone
    exact ⟨_, .request state request atTime run' hbody hrequested, ⟨rfl, rfl, rfl, rfl, rfl, fun t => rfl⟩⟩
  by_cases hopened : state = .opened
  · subst hopened
    simp only [requestStep, if_true, failIf_bind_eq_ok, not_or, ne_eq, not_not, setRun_of _ _ hrun,
      Except.ok.injEq] at hstep
    obtain ⟨⟨hphase, hwaiting, hepoch⟩, hstepped⟩ := hstep
    exact hfinish hstepped.symm (.opened hphase hwaiting hepoch)
  · rw [requestStep, if_neg hopened] at hstep
    cases hpending : run.pendingRequest with
    | none =>
      have hnext : run.next.pendingRequest = none := hpending
      simp [hnext] at hstep
    | some pending =>
      have hnext : run.next.pendingRequest = some pending := hpending
      simp only [hnext, failIf_bind_eq_ok, not_or, ne_eq, not_not] at hstep
      obtain ⟨hmatch, hstep⟩ := hstep
      cases state with
      | opened => exact absurd rfl hopened
      | resolved =>
        simp only [pendingStep, failIf_bind_eq_ok, ne_eq, not_not, setRun_of _ _ hrun,
          Except.ok.injEq] at hstep
        obtain ⟨hstate, hstepped⟩ := hstep
        exact hfinish hstepped.symm (.resolved pending hpending hmatch hstate)
      | unavailable =>
        simp only [pendingStep, setRun_of _ _ hrun, Except.ok.injEq] at hstep
        exact hfinish hstep.symm (.unavailable pending hpending hmatch)
      | resolutionIntended =>
        simp only [pendingStep, bind_eq_ok, failIf_eq_ok, exists_const] at hstep
        obtain ⟨hblocked, added, hadded, hset⟩ := hstep
        simp only [resolutionBlocked, not_or, ne_eq, not_not, Bool.not_eq_true] at hblocked
        obtain ⟨hphase, hstate, hepoch, hcancel, hlive⟩ := hblocked
        rw [addOperation_eq_ok _ hrun] at hadded
        obtain ⟨hledger, -, rfl⟩ := hadded
        rw [setRun_of (run.next.countOperation .requestResolution) _ rfl,
          Except.ok.injEq] at hset
        subst hset
        rw [requireRun_of _ rfl] at hfinal
        cases hfinal
        rw [pure_eq_ok] at hdone
        cases hdone
        refine ⟨_, .resolution request pending atTime _ hbody hpending hmatch hphase hstate
          hepoch hcancel hlive hledger ?_ rfl, ⟨rfl, rfl, rfl, ?_, rfl, fun t => rfl⟩⟩
        · exact operationFree_of_notRepeated _ (by rw [operationKind, hbody]; rfl)
            (fun prior => by rw [cleanupRetry, hbody]) hparent hrepeat
        · have hmoved : ∀ c : Capacity, c.moveRun .waiting .running = c := fun c => by
            simp [Capacity.moveRun]
          have hcounted : (run.next.countOperation .requestResolution).phase = .waiting := hphase
          simp only [hcounted, hmoved]
          rfl

end AgentSdk.Delegation
