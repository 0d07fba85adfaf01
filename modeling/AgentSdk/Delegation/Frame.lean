import AgentSdk.Delegation.Transition

/-!
# What a transition leaves alone

The identity of a run and the data it was admitted with never change, and a
transition concerns the task its command names and one run of it.

## Main results

* `Change.advances` — a change keeps the admission of its run, its phase does
  not go back and its outcome is final.
* `Transition.place` — the rows of a transition belong to the named task.
-/

namespace AgentSdk.Delegation

open AgentSdk.Text

variable {options : StoreOptions} {s : Store} {command : StoreCommand}
  {task : TaskRecord} {run run' : RunRecord} {e : Effect}

/-- How far a run has come. -/
def RunPhase.rank : RunPhase → Nat
  | .queued => 0
  | .preparing => 1
  | .running | .waiting => 2
  | .settled => 3

/-- What one commit may do to a run: its admission is fixed, its phase does not
go back, and its outcome is final. -/
structure Advances (run run' : RunRecord) : Prop where
  taskId : run'.taskId = run.taskId
  runId : run'.runId = run.runId
  ordinal : run'.ordinal = run.ordinal
  previousRunId : run'.previousRunId = run.previousRunId
  admittedTarget : run'.admittedTarget = run.admittedTarget
  input : run'.input = run.input
  revision : run.revision ≤ run'.revision
  rank : run.phase.rank ≤ run'.phase.rank
  observed : run.observationIndex ≤ run'.observationIndex
  final : run.outcome.isSome = true → run'.outcome = run.outcome ∧
    run'.settledAt = run.settledAt ∧ run'.finalization = run.finalization
  recovery : run.recoveryReason.isSome = true → run'.recoveryReason.isSome = true

theorem RunPhase.rank_le_settled (phase : RunPhase) : phase.rank ≤ RunPhase.settled.rank := by
  cases phase <;> decide

/-- An update of other fields of the next row. -/
theorem Advances.of_next (htaskId : run'.taskId = run.taskId) (hrunId : run'.runId = run.runId)
    (hordinal : run'.ordinal = run.ordinal) (hprevious : run'.previousRunId = run.previousRunId)
    (htarget : run'.admittedTarget = run.admittedTarget) (hinput : run'.input = run.input)
    (hrevision : run'.revision = run.revision + 1) (hrank : run.phase.rank ≤ run'.phase.rank)
    (hobserved : run'.observationIndex = run.observationIndex)
    (hfinal : run'.outcome = run.outcome ∧ run'.settledAt = run.settledAt ∧
      run'.finalization = run.finalization)
    (hrecovery : run'.recoveryReason = run.recoveryReason) : Advances run run' :=
  ⟨htaskId, hrunId, hordinal, hprevious, htarget, hinput, hrevision ▸ Nat.le_succ _, hrank,
    hobserved.ge, fun _ => hfinal, fun hsome => hrecovery ▸ hsome⟩

theorem Advances.refl (run : RunRecord) : Advances run run :=
  ⟨rfl, rfl, rfl, rfl, rfl, rfl, le_rfl, le_rfl, le_rfl, fun _ => ⟨rfl, rfl, rfl⟩, fun hsome => hsome⟩

theorem Advances.trans {a b c : RunRecord} (hab : Advances a b) (hbc : Advances b c) :
    Advances a c := by
  refine ⟨hbc.taskId.trans hab.taskId, hbc.runId.trans hab.runId, hbc.ordinal.trans hab.ordinal,
    hbc.previousRunId.trans hab.previousRunId, hbc.admittedTarget.trans hab.admittedTarget,
    hbc.input.trans hab.input, hab.revision.trans hbc.revision, hab.rank.trans hbc.rank,
    hab.observed.trans hbc.observed, fun hsome => ?_, fun hsome => hbc.recovery (hab.recovery hsome)⟩
  obtain ⟨houtcome, hat, hfinal⟩ := hab.final hsome
  obtain ⟨houtcome', hat', hfinal'⟩ := hbc.final (houtcome ▸ hsome)
  exact ⟨houtcome'.trans houtcome, hat'.trans hat, hfinal'.trans hfinal⟩

theorem RunRecord.next_advances (run : RunRecord) : Advances run run.next :=
  .of_next rfl rfl rfl rfl rfl rfl rfl le_rfl rfl ⟨rfl, rfl, rfl⟩ rfl

theorem Advances.countOperation (h : Advances run run') (kind : OperationKind) :
    Advances run (run'.countOperation kind) := by
  unfold RunRecord.countOperation
  split
  · exact h
  · exact { h with }

theorem Advances.settleIntent (h : Advances run run') (kind : OperationKind)
    (disposition : Disposition) : Advances run (settleIntent kind disposition run') := by
  unfold AgentSdk.Delegation.settleIntent
  split <;> refine { h with recovery := ?_ } <;> first | exact h.recovery | exact fun _ => rfl

theorem Entered.advances {target : Option TargetReference} {kind : OperationKind}
    (h : Entered options s command run target kind run') : Advances run run' := by
  cases h with
  | prepare hphase =>
    exact .of_next rfl rfl rfl rfl rfl rfl rfl (hphase ▸ Nat.zero_le _) rfl ⟨rfl, rfl, rfl⟩ rfl
  | turn hphase =>
    have hrank : run.phase.rank ≤ RunPhase.running.rank := hphase ▸ by decide
    exact .of_next rfl rfl rfl rfl rfl rfl rfl hrank rfl ⟨rfl, rfl, rfl⟩ rfl
  | _ => exact run.next_advances

theorem Answered.advances {prior : OperationRecord} {disposition : Disposition}
    {eligibility : Option Eligibility} {status : ReceiptStatus}
    (h : Answered run prior disposition eligibility run' status) : Advances run run' := by
  cases h with
  | pending identity request phase _ _ _ _ _ hphase =>
    refine .of_next rfl rfl rfl rfl rfl rfl rfl ?_ rfl ⟨rfl, rfl, rfl⟩ rfl
    subst hphase
    by_cases hsettled : run.phase = .settled
    · simp [hsettled]
    · rw [if_neg hsettled]
      split <;> cases hp : run.phase <;> simp [hp, RunPhase.rank] at hsettled ⊢
  | _ => exact run.next_advances

theorem Requested.advances {request : HistoricalRequest} {step : RequestStep}
    (h : Requested command run request step run') : Advances run run' := by
  cases h with
  | opened hphase =>
    have hrank : run.phase.rank ≤ RunPhase.waiting.rank := hphase ▸ le_rfl
    exact .of_next rfl rfl rfl rfl rfl rfl rfl hrank rfl ⟨rfl, rfl, rfl⟩ rfl
  | resolved => exact .of_next rfl rfl rfl rfl rfl rfl rfl le_rfl rfl ⟨rfl, rfl, rfl⟩ rfl
  | unavailable =>
    refine .of_next rfl rfl rfl rfl rfl rfl rfl ?_ rfl ⟨rfl, rfl, rfl⟩ rfl
    show run.phase.rank ≤ (if run.phase = .waiting then RunPhase.running else run.phase).rank
    split
    · rename_i hphase
      rw [hphase]
      decide
    · exact le_rfl

variable [Platform]

/-- **A change advances its run**, and bumps the revisions of the task and of
the run. -/
theorem Change.advances (h : Change options s command task run e) :
    ∃ run', e.run = some run' ∧ Advances run run' ∧ e.task = task.next ∧ e.ceiling = none := by
  cases h with
  | intent kind atTime target attempt run' receipt _ _ _ _ _ hentered =>
    exact ⟨_, rfl, hentered.advances.countOperation kind, rfl, rfl⟩
  | receipt disposition _ _ _ prior run' _ _ _ _ _ _ _ _ _ _ _ _ _ hanswered =>
    exact ⟨_, rfl, hanswered.advances.settleIntent prior.kind disposition, rfl, rfl⟩
  | request state request atTime run' _ hrequested => exact ⟨_, rfl, hrequested.advances, rfl, rfl⟩
  | observe observation _ _ _ _ _ _ _ hindex | overflow observation marker _ _ _ _ _ _ _ hindex =>
    exact ⟨_, rfl, ⟨rfl, rfl, rfl, rfl, rfl, rfl, Nat.le_succ _, le_rfl, by simp [hindex],
      fun _ => ⟨rfl, rfl, rfl⟩, fun hsome => hsome⟩, rfl, rfl⟩
  | resolution request pending atTime receipt _ _ _ hphase =>
    have hrank : run.phase.rank ≤ RunPhase.running.rank := hphase ▸ le_rfl
    exact ⟨_, rfl, .of_next rfl rfl rfl rfl rfl rfl rfl hrank rfl ⟨rfl, rfl, rfl⟩ rfl, rfl, rfl⟩
  | cancelQueued atTime reason expiresAt receipt _ _ _ _ houtcome
  | settle outcome atTime expiresAt _ _ houtcome =>
    exact ⟨_, rfl, ⟨rfl, rfl, rfl, rfl, rfl, rfl, Nat.le_succ _, run.phase.rank_le_settled, le_rfl,
      fun hsome => by simp [houtcome] at hsome, fun hsome => hsome⟩, rfl, rfl⟩
  | cancelPending =>
    exact ⟨_, rfl, .of_next rfl rfl rfl rfl rfl rfl rfl le_rfl rfl ⟨rfl, rfl, rfl⟩ rfl, rfl, rfl⟩
  | _ => exact ⟨_, rfl, run.next_advances, rfl, rfl⟩

/-! ## The end of a run -/

omit [Platform] in
theorem settleIntent_end (kind : OperationKind) (disposition : Disposition) (run : RunRecord) :
    (settleIntent kind disposition run).phase = run.phase ∧
      (settleIntent kind disposition run).outcome = run.outcome ∧
      (settleIntent kind disposition run).settledAt = run.settledAt ∧
      (settleIntent kind disposition run).finalization = run.finalization := by
  unfold settleIntent
  split <;> exact ⟨rfl, rfl, rfl, rfl⟩

/-- How a change leaves the end of its run: it does not touch it, or it settles
the run and writes its notification. -/
inductive Ended (options : StoreOptions) (s : Store) (command : StoreCommand) (task : TaskRecord)
    (run : RunRecord) (e : Effect) : RunRecord → Prop
  | untouched (run' : RunRecord) (houtcome : run'.outcome = run.outcome)
      (hsettledAt : run'.settledAt = run.settledAt)
      (hfinalization : run'.finalization = run.finalization)
      (hphase : run'.phase = .settled ↔ run.phase = .settled)
      (hnotification : ∀ n ∈ e.notification, ∃ prior, s.notifications.get n.key = some prior ∧
        n.envelope = prior.envelope) :
      Ended options s command task run e run'
  | settled (base : RunRecord) (outcome : RunOutcome) (atTime expiresAt : JsString)
      (houtcome : run.outcome = none)
      (hterminal : outcome.terminalTruth = true →
        (run.phase = .running ∨ run.phase = .waiting) ∧ run.ownerEpoch = command.owner.epoch)
      (hnotification : e.notification = some (completionNotification
        (settlementEnvelope options task run outcome atTime expiresAt))) :
      Ended options s command task run e
        (base.finish command task.next (finalOutcome run outcome) atTime)

/-- A change that writes no notification and keeps the marks of the run's
end. -/
theorem Ended.of_quiet (hnone : e.notification = none) (houtcome : run'.outcome = run.outcome)
    (hsettledAt : run'.settledAt = run.settledAt)
    (hfinalization : run'.finalization = run.finalization)
    (hphase : run'.phase = .settled ↔ run.phase = .settled) :
    Ended options s command task run e run' :=
  .untouched run' houtcome hsettledAt hfinalization hphase fun n hn => by
    rw [hnone] at hn
    exact absurd hn (Option.not_mem_none n)

omit [Platform] in
theorem answerNotification_envelope (notification : NotificationRecord) (result : DeliveryResult) :
    (answerNotification notification result).envelope = notification.envelope := by
  cases result <;> rfl

theorem Claimed.envelope {notificationId attemptId atTime : JsString}
    {prior notification : NotificationRecord}
    (h : Claimed command task run notificationId attemptId atTime prior notification) :
    notification.envelope = prior.envelope := by
  cases h <;> rfl

/-- A notification written over the one a delivery command found keeps its
envelope and its key. -/
theorem Deliverable.kept {slot : DeliverySlot} {notificationId attemptId : JsString}
    {revision : Nat} {prior n : NotificationRecord}
    (h : Deliverable s command run slot notificationId attemptId revision prior)
    (henvelope : n.envelope = prior.envelope) :
    ∃ prior, s.notifications.get n.key = some prior ∧ n.envelope = prior.envelope := by
  have hkey : prior.key = notificationId := Table.key_of_get h.retained
  refine ⟨prior, ?_, henvelope⟩
  rw [NotificationRecord.key, henvelope, ← NotificationRecord.key, hkey]
  exact h.retained

/-- How a change ends its run. -/
theorem Change.ended (h : Change options s command task run e) :
    ∃ run', e.run = some run' ∧ Ended options s command task run e run' := by
  cases h with
  | intent kind atTime target attempt run' receipt _ _ _ _ _ hentered =>
    refine ⟨_, rfl, .of_quiet rfl ?_ ?_ ?_ ?_⟩
    iterate 3
      unfold RunRecord.countOperation
      split <;> cases hentered <;> rfl
    · have hphase : run'.phase = .settled ↔ run.phase = .settled := by
        cases hentered with
        | prepare hqueued => simp [hqueued]
        | turn hpreparing => simp [hpreparing]
        | _ => exact Iff.rfl
      unfold RunRecord.countOperation
      split <;> exact hphase
  | receipt disposition atTime message eligibility prior run' status receipt _ _ _ _ _ _ _ _ _ _ _
      hanswered =>
      obtain ⟨hphase, houtcome, hsettledAt, hfinalization⟩ :=
        settleIntent_end prior.kind disposition run'
      have hends : run'.outcome = run.outcome ∧ run'.settledAt = run.settledAt ∧
          run'.finalization = run.finalization := by
        cases hanswered <;> exact ⟨rfl, rfl, rfl⟩
      refine ⟨_, rfl, .of_quiet rfl (houtcome.trans hends.1) (hsettledAt.trans hends.2.1)
        (hfinalization.trans hends.2.2) ?_⟩
      rw [hphase]
      cases hanswered with
      | pending identity request phase _ _ _ _ _ hmoved =>
        rw [hmoved]
        by_cases hsettled : run.phase = .settled
        · rw [if_pos hsettled]
          exact ⟨fun _ => hsettled, fun _ => rfl⟩
        · rw [if_neg hsettled]
          split
          · exact ⟨RunPhase.noConfusion, fun hp => absurd hp hsettled⟩
          · exact ⟨RunPhase.noConfusion, fun hp => absurd hp hsettled⟩
      | _ => exact Iff.rfl
  | request state request atTime run' _ hrequested =>
    refine ⟨_, rfl, ?_⟩
    cases hrequested with
    | opened hphase =>
      exact .of_quiet rfl rfl rfl rfl (by simp [hphase])
    | resolved => exact .of_quiet rfl rfl rfl rfl Iff.rfl
    | unavailable =>
      refine .of_quiet rfl rfl rfl rfl ?_
      split
      · rename_i hphase
        simp [hphase]
      · exact Iff.rfl
  | resolution request pending atTime receipt _ _ _ hphase =>
    exact ⟨_, rfl, .of_quiet rfl rfl rfl rfl (by simp [hphase])⟩
  | cancelQueued atTime reason expiresAt receipt _ _ _ _ houtcome =>
    exact ⟨_, rfl, .settled _ _ atTime expiresAt houtcome
      (fun hterminal => absurd hterminal Bool.false_ne_true) rfl⟩
  | settle outcome atTime expiresAt _ _ houtcome hterminal _ _ hepoch =>
    refine ⟨_, rfl, .settled _ _ atTime expiresAt houtcome (fun htruth => ?_) rfl⟩
    have hphase := hterminal htruth
    refine ⟨hphase, ?_⟩
    rcases hepoch with howner | hrecovery | huntouched
    · exact howner
    · cases outcome <;> simp [RunOutcome.terminalTruth, RunOutcome.isRecovery] at htruth hrecovery
    · rw [huntouched.1] at hphase
      rcases hphase with hphase | hphase <;> cases hphase
  | claim notificationId attemptId atTime revision prior notification _ hdeliverable _ hclaimed =>
    refine ⟨_, rfl, .untouched _ rfl rfl rfl Iff.rfl ?_⟩
    rintro n ⟨⟩
    exact hdeliverable.kept hclaimed.envelope
  | answer notificationId attemptId atTime revision result prior notification held _ hdeliverable _
      _ _ _ _ hnotification =>
      refine ⟨_, rfl, .untouched _ rfl rfl rfl Iff.rfl ?_⟩
      rintro n ⟨⟩
      refine hdeliverable.kept ?_
      rw [hnotification, answerNotification_envelope]
      rfl
  | _ => exact ⟨_, rfl, .of_quiet rfl rfl rfl rfl Iff.rfl⟩

/-- The task and the run of an effect belong to the named task, and no row of
another task is replaced. -/
structure Placed (s : Store) (command : StoreCommand) (e : Effect) : Prop where
  task : e.task.taskId = command.taskId
  run : ∀ run ∈ e.run, run.taskId = command.taskId
  old : ∀ run ∈ e.run, ∀ old ∈ s.runs.rows, old.runId = run.runId → old.taskId = command.taskId

omit [Platform] in
/-- The row named by a key is the only one. -/
theorem Store.run_eq {a b : RunRecord} (ha : a ∈ s.runs.rows) (hb : b ∈ s.runs.rows)
    (h : a.runId = b.runId) : a = b := Table.eq_of_key_eq ha hb h

omit [Platform] in
theorem Store.taskId_of_get {taskId : JsString} (h : s.tasks.get taskId = some task) :
    task.taskId = taskId := Table.key_of_get h

theorem Transition.place (h : Transition options s command e) : Placed s command e := by
  have hfresh : ∀ {admission : RunAdmission} {ordinal : Nat},
      s.runs.get admission.runId = none →
      ∀ run ∈ some ((admittedRun command admission ordinal).countOperation .admitRun),
        run.taskId = command.taskId ∧
          ∀ old ∈ s.runs.rows, old.runId = run.runId → old.taskId = command.taskId := by
    rintro admission ordinal hnone run hrun
    cases hrun
    exact ⟨rfl, fun old hold hid => absurd hid (Table.get_eq_none.1 hnone old hold)⟩
  cases h with
  | admitTask admission receipt _ _ _ hadmissible =>
    exact ⟨rfl, fun r hr => (hfresh hadmissible.fresh r hr).1,
      fun r hr => (hfresh hadmissible.fresh r hr).2⟩
  | continueTask admission task previous receipt _ htask _ _ hadmissible =>
    exact ⟨(Store.taskId_of_get htask : task.taskId = _), fun r hr => (hfresh hadmissible.fresh r hr).1,
      fun r hr => (hfresh hadmissible.fresh r hr).2⟩
  | act task run e htask hrun htaskId _ _ _ hchange =>
    obtain ⟨run', hrun', hadvances, htask', -⟩ := hchange.advances
    refine ⟨htask' ▸ (Store.taskId_of_get htask : task.taskId = _), ?_, ?_⟩
    · rintro r hr
      rw [hrun'] at hr
      cases hr
      exact hadvances.taskId.trans htaskId
    · rintro r hr old hold hid
      rw [hrun'] at hr
      cases hr
      rw [Store.run_eq hold hrun (hid.trans hadvances.runId)]
      exact htaskId
  | retire reason atTime task named receipt _ htask _ hnamed =>
    refine ⟨(Store.taskId_of_get htask : task.taskId = _), ?_, ?_⟩
    · intro r hr
      obtain ⟨old, hold, rfl⟩ := Option.map_eq_some_iff.1 hr
      exact (hnamed old hold).2.1
    · intro r hr other hother hid
      obtain ⟨old, hold, rfl⟩ := Option.map_eq_some_iff.1 hr
      rw [Store.run_eq hother (hnamed old hold).1 hid]
      exact (hnamed old hold).2.1

omit [Platform] in
/-- The runs a finished working copy derives its task from are the runs of the
task after the effect. -/
theorem workingRuns_eq {context : CommitContext} {taskId : JsString}
    (hcurrent : context.current.runs = runsOf s.runs taskId)
    (hrun : ∀ run ∈ context.run, run.taskId = taskId)
    (hold : ∀ run ∈ context.run, ∀ old ∈ s.runs.rows, old.runId = run.runId →
      old.taskId = taskId) :
    workingRuns context = runsOf (s.runs.putOption context.run) taskId := by
  cases hcontext : context.run with
  | none => simp only [workingRuns, hcontext, hcurrent, Table.putOption]
  | some run =>
    have htask := hrun run hcontext
    simp only [workingRuns, hcontext, hcurrent, Table.putOption]
    cases hget : s.runs.get run.runId with
    | none =>
      have hne := Table.get_eq_none.1 hget
      have hmap : (runsOf s.runs taskId).map (fun r => if r.runId = run.runId then run else r) =
          runsOf s.runs taskId := by
        refine (List.map_congr_left fun r hr => ?_).trans (List.map_id _)
        rw [if_neg (hne r (List.mem_of_mem_filter hr)), id]
      have hany : (runsOf s.runs taskId).any (fun r => decide (r.runId = run.runId)) = false := by
        rw [List.any_eq_false]
        intro r hr
        simpa using hne r (List.mem_of_mem_filter hr)
      rw [hmap, hany, if_neg Bool.false_ne_true, runsOf, runsOf, Table.rows_put_new hget,
        List.filter_append]
      simp [htask]
    | some old =>
      obtain ⟨hmem, hid⟩ := Table.get_eq_some.1 hget
      have holdTask := hold run hcontext old hmem hid
      have hany : ((runsOf s.runs taskId).map
          (fun r => if r.runId = run.runId then run else r)).any
            (fun r => decide (r.runId = run.runId)) = true := by
        rw [List.any_eq_true]
        refine ⟨run, List.mem_map.2 ⟨old, List.mem_filter.2 ⟨hmem, decide_eq_true holdTask⟩, ?_⟩,
          decide_eq_true rfl⟩
        rw [if_pos hid]
      rw [hany, if_pos rfl, runsOf, runsOf, Table.rows_put_old hget, List.filter_map]
      congr 1
      refine List.filter_congr fun r hr => ?_
      rw [Function.comp_apply]
      split
      · rename_i hkey
        rw [hold run hcontext r hr hkey, htask]
      · rfl

/-! ## What a transition does to the rows it replaces -/

/-- A row replaced by a transition advances to the row written. -/
theorem Transition.run_advances (h : Transition options s command e) {new old : RunRecord}
    (hnew : new ∈ e.run) (hold : old ∈ s.runs.rows) (hid : old.runId = new.runId) :
    Advances old new := by
  cases h with
  | admitTask admission receipt _ _ _ hadmissible
  | continueTask admission task previous receipt _ _ _ _ hadmissible =>
    rw [admissionEffect] at hnew
    cases hnew
    exact absurd hid (Table.get_eq_none.1 hadmissible.fresh old hold)
  | act task run e _ hrun _ _ _ _ hchange =>
    obtain ⟨run', hrun', hadvances, -, -⟩ := hchange.advances
    rw [hrun'] at hnew
    cases hnew
    rw [Store.run_eq hold hrun (hid.trans hadvances.runId)]
    exact hadvances
  | retire reason atTime task named receipt _ _ _ hnamed =>
    obtain ⟨run, hrun, rfl⟩ := Option.map_eq_some_iff.1 hnew
    rw [Store.run_eq hold (hnamed run hrun).1 hid]
    exact run.next_advances

/-- Where a run of the store after a transition comes from. -/
theorem Transition.run_origin (h : Transition options s command e) {r : RunRecord}
    (hr : r ∈ (s.apply e).runs.rows) :
    (∃ old ∈ s.runs.rows, Advances old r) ∨ (r ∈ e.run ∧ s.runs.get r.runId = none) := by
  rcases Table.mem_putOption.1 hr with hnew | ⟨hold, -⟩
  · cases hget : s.runs.get r.runId with
    | none => exact Or.inr ⟨hnew, rfl⟩
    | some old =>
      obtain ⟨hmem, hid⟩ := Table.get_eq_some.1 hget
      exact Or.inl ⟨old, hmem, h.run_advances hnew hmem hid⟩
  · exact Or.inl ⟨r, hold, .refl r⟩

omit [Platform] in
/-- The runs of a task a write does not concern. -/
theorem runsOf_putOption_of_ne {runs : Table RunRecord.runId} {written : Option RunRecord}
    {taskId : JsString} (hrun : ∀ r ∈ written, r.taskId ≠ taskId)
    (hold : ∀ r ∈ written, ∀ old ∈ runs.rows, old.runId = r.runId → old.taskId ≠ taskId) :
    runsOf (runs.putOption written) taskId = runsOf runs taskId := by
  cases written with
  | none => rfl
  | some r =>
    have hne := hrun r rfl
    unfold runsOf
    rw [Table.putOption]
    cases hget : runs.get r.runId with
    | none =>
      rw [Table.rows_put_new hget, List.filter_append]
      simp [hne]
    | some old =>
      rw [Table.rows_put_old hget, List.filter_map]
      have hpred : ∀ x ∈ runs.rows, ((fun x : RunRecord => decide (x.taskId = taskId)) ∘
          fun x => if x.runId = r.runId then r else x) x = decide (x.taskId = taskId) := by
        intro x hx
        rw [Function.comp_apply]
        split
        · rename_i hkey
          rw [decide_eq_false hne, decide_eq_false (hold r rfl x hx hkey)]
        · rfl
      rw [List.filter_congr hpred]
      refine (List.map_congr_left fun x hx => ?_).trans (List.map_id _)
      obtain ⟨hmem, htask⟩ := List.mem_filter.1 hx
      have hkey : x.runId ≠ r.runId := fun hkey =>
        hold r rfl x hmem hkey (of_decide_eq_true htask)
      rw [if_neg hkey, id]

/-- Every run is still there after a transition, and has advanced. -/
theorem Transition.exists_advanced (h : Transition options s command e) {old : RunRecord}
    (hold : old ∈ s.runs.rows) : ∃ new ∈ (s.apply e).runs.rows, Advances old new := by
  by_cases hwritten : ∃ new ∈ e.run, old.runId = new.runId
  · obtain ⟨new, hnew, hid⟩ := hwritten
    exact ⟨new, Table.mem_putOption.2 (Or.inl hnew), h.run_advances hnew hold hid⟩
  · simp only [not_exists, not_and] at hwritten
    exact ⟨old, Table.mem_putOption.2 (Or.inr ⟨hold, hwritten⟩), .refl old⟩

/-- What one commit may do to a task. -/
structure TaskAdvances (task task' : TaskRecord) : Prop where
  parent : task'.parent = task.parent
  ancestorTaskId : task'.ancestorTaskId = task.ancestorTaskId
  depth : task'.depth = task.depth
  policyCeilingRef : task'.policyCeilingRef = task.policyCeilingRef
  completionPolicy : task'.completionPolicy = task.completionPolicy
  revision : task.revision ≤ task'.revision
  runCount : task.runCount ≤ task'.runCount

omit [Platform] in
theorem TaskAdvances.refl (task : TaskRecord) : TaskAdvances task task :=
  ⟨rfl, rfl, rfl, rfl, rfl, le_rfl, le_rfl⟩

/-- A task row replaced by a transition advances to the row written. -/
theorem Transition.task_advances (h : Transition options s command e)
    (htask : s.tasks.get e.task.taskId = some task) : TaskAdvances task (e.finalTask s) := by
  have hunique : ∀ {task'}, s.tasks.get command.taskId = some task' →
      s.tasks.get task'.taskId = some task → task' = task := by
    intro task' hget hsame
    rw [Store.taskId_of_get hget, hget] at hsame
    exact Option.some.inj hsame
  cases h with
  | admitTask admission receipt _ hnone =>
    have hget : s.tasks.get command.taskId = some task := htask
    rw [hnone] at hget
    cases hget
  | continueTask admission task' previous receipt _ hget =>
    obtain rfl := hunique hget htask
    exact ⟨rfl, rfl, rfl, rfl, rfl, Nat.le_succ _, Nat.le_succ _⟩
  | act task' run e hget _ _ _ _ _ hchange =>
    obtain ⟨run', -, -, htask', -⟩ := hchange.advances
    rw [htask'] at htask
    obtain rfl := hunique hget htask
    unfold Effect.finalTask
    rw [htask']
    exact ⟨rfl, rfl, rfl, rfl, rfl, Nat.le_succ _, le_rfl⟩
  | retire reason atTime task' named receipt _ hget =>
    obtain rfl := hunique hget htask
    exact ⟨rfl, rfl, rfl, rfl, rfl, Nat.le_succ _, le_rfl⟩

omit [Platform] in
/-- The task rows after an effect. -/
theorem Store.apply_tasks_get (s : Store) (e : Effect) (taskId : JsString) :
    (s.apply e).tasks.get taskId =
      if taskId = e.task.taskId then some (e.finalTask s) else s.tasks.get taskId :=
  Table.get_put s.tasks (e.finalTask s) taskId

/-- Every task is still there after a transition, and has advanced. -/
theorem Transition.exists_advanced_task (h : Transition options s command e) {taskId : JsString}
    (htask : s.tasks.get taskId = some task) :
    ∃ task', (s.apply e).tasks.get taskId = some task' ∧ TaskAdvances task task' := by
  by_cases hid : taskId = e.task.taskId
  · subst hid
    exact ⟨_, by rw [Store.apply_tasks_get, if_pos rfl], h.task_advances htask⟩
  · exact ⟨task, by rw [Store.apply_tasks_get, if_neg hid, htask], .refl task⟩

end AgentSdk.Delegation
