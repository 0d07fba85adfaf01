import AgentSdk.Delegation.Frame
import AgentSdk.Delegation.Acts

/-!
# Every commit is a transition

The inversion of the commit: a commit that succeeds either repeats an earlier
command and changes nothing, or it passed every fence and its rows are those of
one transition.

## Main results

* `commit_cases` — what a successful commit did.
-/

namespace AgentSdk.Delegation

open AgentSdk.Text AgentSdk.Calendar AgentSdk.Outcome

variable [Platform] {options : StoreOptions} {s : Store} {command : StoreCommand}
  {task : TaskRecord} {run : RunRecord} {context : CommitContext}

/-! ## Observations -/

omit [Platform] in
/-- The marker a command reads is the omission marker of the run it observes. -/
theorem commandOmission_eq {observation : TaskObservation}
    (hbody : command.body = .observe observation) :
    (∃ marker ∈ s.observations.rows, marker.runId = observation.runId ∧ marker.kind = .omitted ∧
        commandOmission s command = some marker) ∨
      (∀ o ∈ s.observations.rows, o.runId = observation.runId → o.kind ≠ .omitted) ∧
        commandOmission s command = none := by
  cases hfind : (s.observations.rows.filter
      fun o => decide (o.runId = observation.runId)).find? fun o => decide (o.kind = .omitted) with
  | some marker =>
    have hmem := List.mem_filter.1 (List.mem_of_find?_eq_some hfind)
    have hkind := List.find?_some hfind
    exact Or.inl ⟨marker, hmem.1, of_decide_eq_true hmem.2, of_decide_eq_true hkind,
      by rw [commandOmission, hbody]; exact hfind⟩
  | none =>
    refine Or.inr ⟨?_, by rw [commandOmission, hbody]; exact hfind⟩
    intro o ho hrun hkind
    have hmem : o ∈ s.observations.rows.filter fun o => decide (o.runId = observation.runId) :=
      List.mem_filter.2 ⟨ho, decide_eq_true hrun⟩
    exact absurd (decide_eq_true hkind) (List.find?_eq_none.1 hfind o hmem)

theorem observeRun_cases {observation : TaskObservation}
    (hbody : command.body = .observe observation)
    (h : observeRun (actContext options s command task run) observation = .ok context) :
    ∃ e, Change options s command task run e ∧ Realizes options s command context e := by
  have hrun : (actContext options s command task run).run = some run.next := rfl
  simp only [observeRun, requireRun_of _ hrun, ok_bind, failIf_bind_eq_ok, not_or, ne_eq,
    not_not] at h
  obtain ⟨⟨hqueued, hsettled, hepoch, hstore, htask, hrunId, hindex, hkind⟩, h⟩ := h
  split at h
  · rw [setRun_of run.next _ rfl] at h
    simp only [ok_bind, pure_eq_ok, Except.ok.injEq] at h
    subst h
    have hcase := commandOmission_eq (s := s) hbody
    refine ⟨_, .overflow observation (omissionMarker (actContext options s command task run) run.next
      observation (run.omittedObservations + 1)) hbody hqueued hsettled hepoch hstore htask hrunId
      hindex hkind ?_, ⟨rfl, rfl, rfl, ?_, rfl, fun t => rfl⟩⟩
    · have hcurrent : (actContext options s command task run).current.omissionObservation =
          commandOmission s command := rfl
      rcases hcase with ⟨marker, hmem, hid, hmarker, hsome⟩ | ⟨hall, hnone⟩
      · exact Or.inl ⟨marker, hmem, hid.trans hrunId, hmarker,
          by simp only [omissionMarker, hcurrent, hsome]⟩
      · refine Or.inr ⟨fun o ho hid => hall o ho (hid.trans hrunId.symm), ?_⟩
        simp only [omissionMarker, hcurrent, hnone]
        rfl
    · exact Capacity.moveRun_self _ _
  · rename_i hfits
    rw [setRun_of run.next _ rfl] at h
    simp only [ok_bind, pure_eq_ok, Except.ok.injEq] at h
    subst h
    simp only [observationOverflows, not_or, not_lt, ge_iff_le, gt_iff_lt, not_le] at hfits
    refine ⟨_, .observe observation hbody hqueued hsettled hepoch hstore htask hrunId hindex hkind
      hfits, ⟨rfl, rfl, rfl, ?_, rfl, fun t => rfl⟩⟩
    have hsame : (run.next).phase = run.phase := rfl
    simp only [hsame, Capacity.moveRun_self]
    rfl

/-! ## Cancellation and settlement -/

theorem cancelRun_cases {atTime reason : JsString} (hbody : command.body = .cancel atTime reason)
    (hslot : s.slotFree run.runId .cancel) (hfree : s.operationFree task command)
    (h : cancelRun (actContext options s command task run) atTime = .ok context) :
    ∃ e, Change options s command task run e ∧ Realizes options s command context e := by
  have hrun : (actContext options s command task run).run = some run.next := rfl
  simp only [cancelRun, requireRun_of _ hrun, ok_bind] at h
  split at h
  · rename_i hphase
    rw [addOperation_eq_ok run.next rfl] at h
    obtain ⟨-, -, rfl⟩ := h
    exact ⟨_, .cancelSettled atTime reason _ hbody hphase hslot hfree rfl,
      ⟨rfl, rfl, rfl, rfl, rfl, fun t => rfl⟩⟩
  · rename_i hphase
    rw [setRun_of run.next _ rfl] at h
    simp only [ok_bind, bind_eq_ok, Capacity.moveRun_self, cancelUntouched] at h
    obtain ⟨canceled, hcanceled, hadded⟩ := h
    split at hcanceled
    · rename_i huntouched
      rw [settleRun_eq_ok { run.next with cancelRequested := true } rfl] at hcanceled
      obtain ⟨hnone, expiresAt, hexpiry, -, hschema, -, rfl⟩ := hcanceled
      rw [addOperation_eq_ok ({ run.next with cancelRequested := true }.finish command
        task.next (finalOutcome run (.canceled .notDispatched)) atTime) rfl] at hadded
      obtain ⟨-, -, rfl⟩ := hadded
      exact ⟨_, .cancelQueued atTime reason expiresAt _ hbody huntouched hslot hfree hnone hexpiry
        hschema rfl, ⟨rfl, rfl, rfl, rfl, rfl, fun t => rfl⟩⟩
    · rename_i htouched
      rw [pure_eq_ok] at hcanceled
      cases hcanceled
      rw [addOperation_eq_ok { run.next with cancelRequested := true } rfl] at hadded
      obtain ⟨-, -, rfl⟩ := hadded
      exact ⟨_, .cancelPending atTime reason _ hbody hphase htouched hslot hfree rfl,
        ⟨rfl, rfl, rfl, rfl, rfl, fun t => rfl⟩⟩

theorem settle_cases {outcome : RunOutcome} {atTime : JsString}
    (hbody : command.body = .settle outcome atTime) (hunfinal : run.finalization = none)
    (h : settle (actContext options s command task run) outcome atTime = .ok context) :
    ∃ e, Change options s command task run e ∧ Realizes options s command context e := by
  have hrun : (actContext options s command task run).run = some run.next := rfl
  simp only [settle, requireRun_of _ hrun, ok_bind, failIf_bind_eq_ok] at h
  obtain ⟨hterminal, hfailed, hundispatched, hepoch, h⟩ := h
  rw [settleRun_eq_ok run.next rfl] at h
  obtain ⟨hnone, expiresAt, hexpiry, -, hschema, -, rfl⟩ := h
  refine ⟨_, .settle outcome atTime expiresAt hbody hunfinal hnone ?_ ?_ ?_ ?_ hexpiry hschema,
    ⟨rfl, rfl, rfl, rfl, rfl, fun t => rfl⟩⟩
  · intro hterm
    by_contra hne
    exact hterminal ⟨hterm, fun hp => hne (Or.inl hp), fun hp => hne (Or.inr hp)⟩
  · intro hfail hphase
    by_contra hne
    refine hfailed ⟨hfail, ?_, hphase⟩
    by_contra hprep
    exact hne ⟨fun hp => hprep (Or.inl hp), fun hp => hprep (Or.inr hp)⟩
  · intro hnot
    by_contra hne
    exact hundispatched ⟨hnot, hne⟩
  · by_contra hne
    simp only [not_or] at hne
    exact hepoch ⟨hne.1, Bool.not_eq_true _ ▸ hne.2.1, hne.2.2⟩

/-! ## Delivery -/

/-- The notification a delivery command reads. -/
theorem delivery_cases {slot : DeliverySlot} {notificationId attemptId : JsString} {revision : Nat}
    {next : CommitContext → NotificationRecord → NotificationRecord → Result NotificationRecord}
    (hid : commandNotificationId command = some notificationId)
    (hnamed : command.runId = some run.runId)
    (hfresh : duplicateDelivery command (s.current options command) slot notificationId attemptId =
      .ok none)
    (h : delivery (actContext options s command task run) slot notificationId revision attemptId
      next = .ok context) :
    ∃ prior notification, Deliverable s command run slot notificationId attemptId revision prior ∧
      next { actContext options s command task run with
          receipt := { baseReceipt command task.next (some run.next) with
            notificationId := some notificationId } } prior
        (retainedNotification command task run slot prior notificationId attemptId) =
          .ok notification ∧
      notification.schema = true ∧
      context = { actContext options s command task run with
        receipt := { baseReceipt command task.next (some run.next) with
          notificationId := some notificationId },
        mutations := [.notification notification] } := by
  have hcurrent : (s.current options command).notification = s.notifications.get notificationId := by
    simp only [Store.current, hid, Option.bind_some]
  have hread : (actContext options s command task run).current.notification =
      s.notifications.get notificationId := hcurrent
  cases hprior : s.notifications.get notificationId with
  | none => simp [delivery, hread, hprior] at h
  | some prior =>
    simp only [delivery, hread, hprior, bind_eq_ok, failIf_eq_ok, exists_const, not_or, ne_eq,
      not_not, parse_eq_ok, pure_eq_ok, Except.ok.injEq] at h
    obtain ⟨⟨hrevision, hpolicy⟩, notification, hnext, parsed, ⟨-, hschema, hparsed⟩, rfl⟩ := h
    subst hparsed hrevision
    exact ⟨prior, parsed, deliverable_of_duplicate hnamed hprior (hcurrent.trans hprior) hpolicy
      hfresh, hnext, hschema, rfl⟩

theorem deliveryClaim_cases {notificationId attemptId atTime : JsString} {revision : Nat}
    (hbody : command.body = .deliveryClaim notificationId revision attemptId atTime)
    (hnamed : command.runId = some run.runId)
    (hfresh : duplicateDelivery command (s.current options command) .claim notificationId
      attemptId = .ok none)
    (h : deliveryClaim (actContext options s command task run) notificationId revision attemptId
      atTime = .ok context) :
    ∃ e, Change options s command task run e ∧ Realizes options s command context e := by
  obtain ⟨prior, notification, hdeliverable, hnext, hschema, rfl⟩ :=
    delivery_cases (by rw [commandNotificationId, hbody]) hnamed hfresh h
  simp only [claimNotification, failIf_bind_eq_ok, ne_eq, not_not] at hnext
  obtain ⟨hstate, hnext⟩ := hnext
  have hclaimed : Claimed command task run notificationId attemptId atTime prior notification := by
    split at hnext
    · rename_i hexpired
      rw [pure_eq_ok] at hnext
      cases hnext
      exact .expired hexpired.1 hexpired.2
    · rename_i hlive
      simp only [failIf_bind_eq_ok, pure_eq_ok, Except.ok.injEq, Bool.not_eq_true,
        Option.any_eq_false] at hnext
      obtain ⟨hretry, rfl⟩ := hnext
      exact .claimed hlive fun retryAt hmem => by simpa using hretry retryAt hmem
  exact ⟨_, .claim notificationId attemptId atTime revision prior notification hbody hdeliverable
    hstate hclaimed hschema, ⟨rfl, rfl, rfl, rfl, rfl, fun t => rfl⟩⟩

theorem deliveryReceipt_cases {notificationId attemptId atTime : JsString} {revision : Nat}
    {result : DeliveryResult}
    (hbody : command.body = .deliveryReceipt notificationId revision attemptId result atTime)
    (hnamed : command.runId = some run.runId)
    (hfresh : duplicateDelivery command (s.current options command) .receipt notificationId
      attemptId = .ok none)
    (h : deliveryReceipt (actContext options s command task run) notificationId revision attemptId
      result atTime = .ok context) :
    ∃ e, Change options s command task run e ∧ Realizes options s command context e := by
  obtain ⟨prior, notification, hdeliverable, hnext, hschema, rfl⟩ :=
    delivery_cases (by rw [commandNotificationId, hbody]) hnamed hfresh h
  simp only [receiptNotification, failIf_bind_eq_ok, pure_eq_ok, Except.ok.injEq] at hnext
  obtain ⟨hheld, hretry, hnotification⟩ := hnext
  simp only [not_or, ne_eq, not_not, not_and] at hheld
  obtain ⟨hstate, hattempt, howner⟩ := hheld
  cases hclaim : prior.claim with
  | none => simp [hclaim] at hattempt
  | some held =>
    refine ⟨_, .answer notificationId attemptId atTime revision result prior notification held
      hbody hdeliverable hstate hclaim ?_ ?_ ?_ hnotification.symm hschema,
      ⟨rfl, rfl, rfl, rfl, rfl, fun t => rfl⟩⟩
    · simpa [hclaim] using hattempt
    · by_contra hne
      simp only [not_or, Bool.not_eq_true] at hne
      refine howner ?_ hne.2
      rw [hclaim, Option.any_some]
      exact decide_eq_true hne.1
    · intro retryAt hmem
      rw [Bool.not_eq_true, Option.any_eq_false] at hretry
      simpa using hretry retryAt hmem

/-! ## Admission and retirement -/

/-- What a continuation passed. -/
theorem continues_of_check {admission : RunAdmission}
    (htask : s.tasks.get command.taskId = some task) {start : TaskRecord}
    (h : admitTaskCheck (commitContext command (s.current options command) start) admission =
      .ok ()) :
    ∃ previous, Continues options s command admission task previous := by
  have hread : (commitContext command (s.current options command) start).current.task = some task :=
    htask
  rw [admitTaskCheck, hread] at h
  cases hprevious : (s.current options command).runs.find?
      (fun run => decide (some run.runId = admission.previousRunId)) with
  | none =>
    have hnone : (commitContext command (s.current options command) start).current.runs.find?
        (fun run => decide (some run.runId = admission.previousRunId)) = none := hprevious
    simp [admitContinuation, hnone] at h
  | some previous =>
    have hsome : (commitContext command (s.current options command) start).current.runs.find?
        (fun run => decide (some run.runId = admission.previousRunId)) = some previous := hprevious
    have hmem := mem_current_runs.1 (List.mem_of_find?_eq_some hprevious)
    have hid : some previous.runId = admission.previousRunId := by
      simpa using List.find?_some hprevious
    simp only [admitContinuation, hsome, bind_eq_ok, failIf_eq_ok, exists_const] at h
    obtain ⟨hnamed, hmode, hplace, hroom⟩ := h
    simp only [not_or, ne_eq, not_not] at hnamed hplace hroom
    obtain ⟨hretired, hrecovery, hparent, hdepth, hceiling, hpolicy, hancestor, hlatest,
      hqueued⟩ := hplace
    obtain ⟨hwaiting, hcount⟩ := hroom
    refine ⟨previous, ⟨hmem, ⟨hid.symm, hnamed.1⟩, hnamed.2, ?_, ?_, ⟨hretired, hrecovery⟩, ?_,
      hdepth, hceiling, hpolicy, hancestor, ?_, ?_, not_le.1 hcount⟩⟩
    · intro hnext
      refine ⟨?_, ?_⟩
      · by_contra hne
        exact hmode (Or.inl ⟨hnext, Or.inl hne⟩)
      · by_contra hne
        exact hmode (Or.inl ⟨hnext, Or.inr (Bool.not_eq_false _ ▸ hne)⟩)
    · intro hfollow
      refine ⟨?_, ?_⟩
      · by_contra hne
        exact hmode (Or.inr ⟨hfollow, Or.inl hne⟩)
      · by_contra hne
        exact hmode (Or.inr ⟨hfollow, Or.inr (Bool.not_eq_false _ ▸ hne)⟩)
    · exact (ParentScope.eq_of_same (Bool.not_eq_false _ ▸ hparent)).symm
    · rw [← Option.some.injEq, hid]
      exact hlatest
    · intro other hother htaskId
      have hcurrent : other ∈ (s.current options command).runs :=
        mem_current_runs.2 ⟨hother, htaskId⟩
      refine ⟨fun hphase => hqueued ?_, fun hphase => hwaiting ?_⟩
      · exact List.any_eq_true.2 ⟨other, hcurrent, decide_eq_true hphase⟩
      · exact List.any_eq_true.2 ⟨other, hcurrent, decide_eq_true hphase⟩

omit [Platform] in
/-- A ceiling is written after the operation, unless it is already retained. -/
theorem ceiling_mutation (retained : Bool) (ceiling : PolicyCeiling) :
    (if retained = true then context
      else { context with mutations := context.mutations ++ [.ceiling ceiling] }) =
    { context with
      mutations := context.mutations ++ if retained = true then [] else [.ceiling ceiling] } := by
  cases retained
  · rfl
  · simp

theorem admitRun_cases {admission : RunAdmission} (hbody : command.body = .admitRun admission)
    (hfree : s.operations.get (operationKey admission.parent command.operationId) = none)
    (hrevision : ((s.tasks.get command.taskId).map TaskRecord.revision).getD 0 =
      command.expectedTaskRevision)
    (htask : commandTask command (s.current options command) = some task)
    (h : admitRun (commitContext command (s.current options command) task) admission =
      .ok context) :
    ∃ e, Transition options s command e ∧ Realizes options s command context e := by
  have hceiling : (commitContext command (s.current options command) task).current.ceiling =
      s.ceilings.get admission.policyCeiling.ceilingId := by
    simp only [commitContext, Store.current, hbody]
  have hexists : (commitContext command (s.current options command) task).current.runIdExists =
      (s.runs.get admission.runId).isSome := by
    simp only [commitContext, Store.current, hbody]
  have hread : (commitContext command (s.current options command) task).current.task =
      s.tasks.get command.taskId := rfl
  simp only [admitRun, hceiling, hexists, hread, bind_eq_ok, failIf_eq_ok, exists_const,
    pure_eq_ok, Except.ok.injEq, ceiling_mutation] at h
  obtain ⟨hfresh, hsize, htarget, -, ⟨⟩, hcheck, hsame, hcapacity, added, hadded, hdone⟩ := h
  simp only [not_or, Bool.not_eq_true] at hfresh hsize hsame hcapacity
  rw [addOperation_eq_ok _ rfl] at hadded
  obtain ⟨hledger, -, rfl⟩ := hadded
  subst hdone
  have hadmissible : Admissible options s command admission := by
    refine ⟨by simpa using hfresh.1, not_lt.1 hsize.1, not_lt.1 hsize.2.1, not_lt.1 hsize.2.2, ?_,
      ?_, hfree, not_le.1 hcapacity.2.1, not_le.1 hcapacity.2.2.1⟩
    · rw [Bool.not_eq_false] at htarget
      obtain ⟨target, hmem, hequal⟩ := List.any_eq_true.1 htarget
      exact TargetReference.eq_of_same hequal ▸ hmem
    · intro ceiling hmem
      rw [Option.any_eq_false] at hsame
      simpa using hsame ceiling hmem
  cases hget : s.tasks.get command.taskId with
  | none =>
    simp only [commandTask, show (s.current options command).task = none from hget, hbody,
      Option.some.injEq] at htask
    subst htask
    have hroom := hcapacity.1
    simp only [hget, true_and] at hroom
    have hfirst : admission.previousRunId = none := by
      simp only [admitTaskCheck, hread, hget, failIf_eq_ok, not_or, Bool.not_eq_true,
        Option.isSome_eq_false_iff, Option.isNone_iff_eq_none] at hcheck
      exact hcheck.1
    refine ⟨_, .admitTask admission _ hbody hget hfirst hadmissible (not_le.1 hroom)
      (not_lt.1 hcapacity.2.2.2) (hledger rfl).2 rfl, ⟨rfl, rfl, rfl, rfl, rfl, fun t => ?_⟩⟩
    simp only [Store.writeRows, admissionEffect, admissionCeiling]
    split <;> rfl
  | some prior =>
    simp only [commandTask, show (s.current options command).task = some prior from hget,
      Option.some.injEq] at htask
    subst htask
    obtain ⟨previous, hcontinues⟩ := continues_of_check hget hcheck
    simp only [hget, Option.map_some, Option.getD_some] at hrevision
    refine ⟨_, .continueTask admission prior previous _ hbody hget hrevision.symm hcontinues
      hadmissible (not_lt.1 hcapacity.2.2.2) (hledger rfl).2 rfl,
      ⟨rfl, rfl, rfl, rfl, rfl, fun t => ?_⟩⟩
    simp only [Store.writeRows, admissionEffect, admissionCeiling]
    split <;> rfl

theorem retireRecovery_cases {reason atTime : JsString}
    (hbody : command.body = .retireRecovery reason atTime)
    (htask : s.tasks.get command.taskId = some task)
    (hrevision : command.expectedTaskRevision = task.revision)
    (h : retireRecovery (commitContext command (s.current options command) task.next) reason
      atTime = .ok context) :
    ∃ e, Transition options s command e ∧ Realizes options s command context e := by
  simp only [retireRecovery, failIf_bind_eq_ok, not_or, ne_eq, not_not, pure_eq_ok,
    Except.ok.injEq] at h
  obtain ⟨⟨hstate, hsettled⟩, rfl⟩ := h
  refine ⟨_, .retire reason atTime task ((s.current options command).namedRun command) _ hbody htask
    hrevision (fun r hr => namedRun_eq_some hr) hstate ?_ rfl, ⟨rfl, rfl, rfl, rfl, rfl, fun t => rfl⟩⟩
  intro r hr hid
  by_contra hphase
  exact hsettled (List.any_eq_true.2 ⟨r, mem_current_runs.2 ⟨hr, hid⟩, decide_eq_true hphase⟩)

/-! ## The commit -/

/-- A command about an existing run: neither an admission nor a retirement. -/
def StoreCommand.isAct (command : StoreCommand) : Bool :=
  match command.body with
  | .admitRun _ => false
  | .retireRecovery _ _ => false
  | _ => true

/-- The handlers of commands about an existing run. -/
theorem act_cases (hact : command.isAct = true) (hschema : command.schema = true)
    (hnamed : command.runId = some run.runId) (htask : s.tasks.get command.taskId = some task)
    (hfresh : duplicate command (s.current options command) = .ok none)
    (hrun : (s.current options command).namedRun command = some run)
    (h : runCommand (actContext options s command task run) command.body = .ok context) :
    ∃ e, Change options s command task run e ∧ Realizes options s command context e := by
  have hbodySchema : command.body.schema = true := by
    simp only [StoreCommand.schema, Bool.and_eq_true] at hschema
    exact hschema.2
  have hparent : ∀ (_ : command.isAct = true), commandParent s command = some task.parent := by
    intro _
    unfold commandParent
    cases hbody : command.body <;> simp [htask, StoreCommand.isAct, hbody] at hact ⊢
  have hrepeat := notRepeated_of_duplicate options s command
  cases hbody : command.body with
  | admitRun | retireRecovery => simp [StoreCommand.isAct, hbody] at hact
  | dispatchIntent kind atTime target attempt =>
    rw [hbody] at h
    have hkind : kind ≠ .admitRun ∧ kind ≠ .cancel := by
      simp only [hbody, CommandBody.schema, Bool.and_eq_true, decide_eq_true_eq] at hbodySchema
      exact hbodySchema.1.1.1
    exact dispatchIntent_cases hbody hkind hnamed (hparent hact)
      (hrepeat (by simp [hbody]) (by simp [hbody]) hfresh) h
  | operationReceipt disposition atTime message eligibility =>
    rw [hbody] at h
    exact operationReceipt_cases hbody hnamed (hparent hact)
      (hrepeat (by simp [hbody]) (by simp [hbody]) hfresh) h
  | observe observation =>
    rw [hbody] at h
    exact observeRun_cases hbody h
  | requestState state request atTime =>
    rw [hbody] at h
    exact requestState_cases hbody (hparent hact)
      (hrepeat (by simp [hbody]) (by simp [hbody]) hfresh) h
  | cancel atTime reason =>
    rw [hbody] at h
    refine cancelRun_cases hbody (cancelSlot_of_duplicate hbody hfresh hnamed) ?_ h
    exact operationFree_of_notRepeated _ (by rw [operationKind, hbody]; rfl)
      (fun prior => by rw [cleanupRetry, hbody]) (hparent hact)
      (hrepeat (by simp [hbody]) (by simp [hbody]) hfresh)
  | settle outcome atTime =>
    rw [hbody] at h
    exact settle_cases hbody (unfinal_of_duplicate hbody hfresh hrun) h
  | deliveryClaim notificationId revision attemptId atTime =>
    rw [hbody] at h
    exact deliveryClaim_cases hbody hnamed (by rw [duplicate, hbody] at hfresh; exact hfresh) h
  | deliveryReceipt notificationId revision attemptId result atTime =>
    rw [hbody] at h
    exact deliveryReceipt_cases hbody hnamed (by rw [duplicate, hbody] at hfresh; exact hfresh) h

/-- A command that repeats nothing is a transition. -/
theorem runCommand_cases (hschema : command.schema = true)
    (hfresh : duplicate command (s.current options command) = .ok none)
    (hrevision : ((s.current options command).task.map TaskRecord.revision).getD 0 =
      command.expectedTaskRevision)
    (hrunRevision : (match command.body with
      | .admitRun _ => false
      | .retireRecovery _ _ => false
      | _ => ((s.current options command).namedRun command).all fun run =>
        decide (some run.revision ≠ command.expectedRunRevision)) ≠ true)
    (htask : commandTask command (s.current options command) = some task)
    (h : runCommand (commitContext command (s.current options command) task) command.body =
      .ok context) :
    ∃ e, Transition options s command e ∧ Realizes options s command context e := by
  by_cases hact : command.isAct = true
  · have hall : ((s.current options command).namedRun command).all
        (fun run => decide (some run.revision ≠ command.expectedRunRevision)) ≠ true := by
      cases hbody : command.body <;> simp [StoreCommand.isAct, hbody] at hact hrunRevision <;>
        simpa using hrunRevision
    cases hrun : (s.current options command).namedRun command with
    | none => simp [hrun] at hall
    | some run =>
      obtain ⟨hmem, htaskId, hnamed⟩ := namedRun_eq_some hrun
      cases hget : s.tasks.get command.taskId with
      | none =>
        have hnone : (s.current options command).task = none := hget
        cases hbody : command.body <;>
          simp [StoreCommand.isAct, commandTask, hnone, hbody] at hact htask
      | some prior =>
        have hread : (s.current options command).task = some prior := hget
        simp only [commandTask, hread, Option.some.injEq] at htask
        subst htask
        simp only [hread, Option.map_some, Option.getD_some] at hrevision
        have hcontext : commitContext command (s.current options command) prior.next =
            actContext options s command prior run := by
          simp only [commitContext, hrun, Option.map_some]
          rfl
        rw [hcontext] at h
        obtain ⟨e, hchange, hrealizes⟩ := act_cases hact hschema hnamed hget hfresh hrun h
        rw [hrun, Option.all_some, ne_eq, decide_eq_true_eq, not_not] at hall
        exact ⟨e, .act prior run e hget hmem htaskId hnamed hrevision.symm hall.symm hchange,
          hrealizes⟩
  · cases hbody : command.body with
    | admitRun admission =>
      rw [hbody] at h
      refine admitRun_cases hbody ?_ hrevision htask h
      have hnew := notRepeated_of_duplicate options s command
        (by simp [hbody]) (by simp [hbody]) hfresh
      exact operationFree_of_notRepeated (admittedTask options command.taskId admission)
        (by rw [operationKind, hbody]; rfl) (fun prior => by rw [cleanupRetry, hbody])
        (by rw [commandParent, hbody]; rfl) hnew
    | retireRecovery reason atTime =>
      rw [hbody] at h
      cases hget : s.tasks.get command.taskId with
      | none =>
        have hnone : (s.current options command).task = none := hget
        simp [commandTask, hnone, hbody] at htask
      | some prior =>
        have hread : (s.current options command).task = some prior := hget
        simp only [commandTask, hread, Option.some.injEq] at htask
        subst htask
        simp only [hread, Option.map_some, Option.getD_some] at hrevision
        exact retireRecovery_cases hbody hget hrevision.symm h
    | _ => simp [StoreCommand.isAct, hbody] at hact

/-! ## The rows of a commit -/

/-- The rows a finished working copy writes. -/
def finalMutations (context : CommitContext) : List RowMutation :=
  (context.mutations ++ [RowMutation.task (deriveTask context).task] ++
    context.run.toList.map RowMutation.run ++ [RowMutation.capacity context.capacity]).map
      (finalizeMutation context.receipt)

theorem finishRun_eq_ok {named : Option RunRecord} {mutations : List RowMutation} :
    finishRun named = .ok mutations ↔
      (∀ r ∈ named, copyBoundedDelegationData (Data.json r) = .ok () ∧ r.schema = true) ∧
        mutations = named.toList.map RowMutation.run := by
  cases named with
  | none =>
    simp only [finishRun, pure_eq_ok, Except.ok.injEq, Option.toList_none, List.map_nil]
    constructor
    · rintro rfl
      exact ⟨fun r hr => absurd hr (Option.not_mem_none r), rfl⟩
    · rintro ⟨-, rfl⟩
      rfl
  | some r =>
    simp only [finishRun, bind_eq_ok, parse_eq_ok, pure_eq_ok, Except.ok.injEq]
    constructor
    · rintro ⟨parsed, ⟨hcopy, hschema, rfl⟩, rfl⟩
      refine ⟨fun r' hr' => ?_, rfl⟩
      cases hr'
      exact ⟨hcopy, hschema⟩
    · rintro ⟨hall, rfl⟩
      obtain ⟨hcopy, hschema⟩ := hall r rfl
      exact ⟨r, ⟨hcopy, hschema, rfl⟩, rfl⟩

/-- When a finished working copy is written, and which rows. -/
theorem finishCommit_eq_ok {result : List RowMutation × CommitReceipt} :
    finishCommit context = .ok result ↔
      copyBoundedDelegationData (Data.json (deriveTask context).task) = .ok () ∧
        (deriveTask context).task.schema = true ∧
        (∀ r ∈ context.run, copyBoundedDelegationData (Data.json r) = .ok () ∧ r.schema = true) ∧
        (∀ mutation ∈ finalMutations context,
          copyBoundedDelegationData (Data.json mutation) = .ok ()) ∧
        result = (finalMutations context, context.receipt) := by
  have hrun : (deriveTask context).run = context.run := rfl
  simp only [finishCommit, hrun, bind_eq_ok, parse_eq_ok, finishRun_eq_ok, forM_eq_ok, pure_eq_ok,
    Except.ok.injEq]
  constructor
  · rintro ⟨task, ⟨hcopy, hschema, rfl⟩, runs, ⟨hruns, rfl⟩, _, hcaptured, rfl⟩
    exact ⟨hcopy, hschema, hruns, hcaptured, rfl⟩
  · rintro ⟨hcopy, hschema, hruns, hcaptured, rfl⟩
    exact ⟨_, ⟨hcopy, hschema, rfl⟩, _, ⟨hruns, rfl⟩, ⟨⟩, hcaptured, rfl⟩

/-- Writing the rows of a working copy applies its effect. -/
theorem foldl_write_finalMutations {e : Effect} (hrealizes : Realizes options s command context e)
    (hplaced : Placed s command e) :
    (deriveTask context).task = e.finalTask s ∧
      (finalMutations context).foldl Store.write s = s.apply e := by
  have hruns : context.current.runs = runsOf s.runs command.taskId := by
    rw [hrealizes.current]
    rfl
  have hworking : workingRuns context = runsOf (s.runs.putOption e.run) command.taskId := by
    rw [← hrealizes.run]
    refine workingRuns_eq hruns ?_ ?_
    · rw [hrealizes.run]
      exact hplaced.run
    · rw [hrealizes.run]
      exact hplaced.old
  have htask : (deriveTask context).task = e.finalTask s := by
    unfold Effect.finalTask Effect.runs
    rw [deriveTask, hworking, hrealizes.task, hplaced.task]
  refine ⟨htask, ?_⟩
  unfold finalMutations
  rw [htask, hrealizes.run, hrealizes.capacity]
  simp only [List.map_append, List.foldl_append, hrealizes.writes]
  cases hrun : e.run with
  | none | some => simp only [Store.apply, Effect.runs, hrun]; rfl

/-! ## Main result -/

/-- What a successful commit passed before its handler ran. -/
structure Fenced (options : StoreOptions) (s : Store) (command : StoreCommand) : Prop where
  captured : copyBoundedDelegationData (Data.json command) = .ok ()
  schema : command.schema = true
  canonical : command.body.ceilingCanonical = true
  storeId : options.storeId = command.owner.storeId
  owner : s.owner = some command.owner
  capacity : ¬capacityInconsistent s.capacity options.limits
  snapshot : ¬snapshotInconsistent command (s.current options command)

/-- **What a successful commit did**: it repeated an earlier command and
changed nothing, or it is a transition. -/
theorem commit_cases {s' : Store} {receipt : CommitReceipt}
    (h : s.commit options command = .ok (s', receipt)) :
    Fenced options s command ∧
      ((duplicate command (s.current options command) = .ok (some receipt) ∧ s' = s) ∨
        ∃ e, Transition options s command e ∧ s' = s.apply e ∧ receipt = e.receipt ∧
          (e.finalTask s).schema = true ∧ ∀ run ∈ e.run, run.schema = true) := by
  simp only [Store.commit, planDelegationStoreCommit, bind_eq_ok,
    parseDelegationStoreCommand_eq_ok, failIf_eq_ok, exists_const, pure_eq_ok,
    Except.ok.injEq] at h
  obtain ⟨parsed, ⟨hcaptured, hschema, hcanonical, hparsed⟩, result, ⟨again, ⟨-, -, -, hagain⟩,
    howner, hcapacity, hsnapshot, retry, hretry, hplan⟩, hdone⟩ := h
  obtain rfl := hparsed.symm
  obtain rfl := hagain.symm
  obtain ⟨rfl, rfl⟩ := Prod.mk.inj hdone
  simp only [not_or, ne_eq, not_not, Bool.not_eq_true] at howner
  have hown : s.owner = some command.owner := by
    have hsame : s.owner.all (fun owner => !same owner command.owner) = false := howner.2
    cases hs : s.owner with
    | none => simp [hs] at hsame
    | some owner =>
      rw [hs, Option.all_some, Bool.not_eq_false'] at hsame
      rw [OwnerToken.eq_of_same hsame]
  refine ⟨⟨hcaptured, hschema, hcanonical, howner.1, hown, hcapacity, hsnapshot⟩, ?_⟩
  cases retry with
  | some repeated =>
    simp only [Except.ok.injEq] at hplan
    subst hplan
    exact Or.inl ⟨hretry, rfl⟩
  | none =>
    simp only [planFresh, bind_eq_ok, failIf_eq_ok, exists_const, not_not] at hplan
    obtain ⟨hrevision, hrunRevision, hplan⟩ := hplan
    cases htask : commandTask command (s.current options command) with
    | none => simp [htask] at hplan
    | some task =>
      simp only [htask, bind_eq_ok] at hplan
      obtain ⟨context, hcontext, hfinish⟩ := hplan
      obtain ⟨e, htransition, hrealizes⟩ :=
        runCommand_cases hschema hretry hrevision hrunRevision htask hcontext
      obtain ⟨-, htaskSchema, hruns, -, rfl⟩ := finishCommit_eq_ok.1 hfinish
      obtain ⟨hfinal, happly⟩ := foldl_write_finalMutations hrealizes htransition.place
      refine Or.inr ⟨e, htransition, happly, hrealizes.receipt, hfinal ▸ htaskSchema, ?_⟩
      rw [← hrealizes.run]
      exact fun r hr => (hruns r hr).2

end AgentSdk.Delegation
