import AgentSdk.Delegation.Lifecycle

/-!
# Repeated commands

A command whose operation is already retained is answered from the retained
row, before any revision, limit or phase is looked at.  The answer of an
admission, a cancellation or a settlement is the receipt of its first commit,
however many commits came between.

## Main results

* `Ledger.commit_repeated`, `Ledger.commit_refused` — a recognized repetition
  decides the commit.
* `operation_idempotent` — the answers to repeated operations and settlements.
-/

namespace AgentSdk.Delegation

open AgentSdk.Text AgentSdk.Outcome

section Idempotency

variable [Platform] {options : StoreOptions} {s : Store} {command again : StoreCommand}
  {task : TaskRecord} {run : RunRecord} {e : Effect} {row : OperationRecord}

/-! ## The owner of a reachable store -/

/-- The owner that a call is answered with. -/
def Store.granted (options : StoreOptions) (s : Store) : StoreCall → Option OwnerToken
  | .acquireOwner nonce => (s.acquireOwner options nonce).2.toOption
  | _ => none

/-- The owners that were granted, the last one first. -/
structure Granted (options : StoreOptions) (s : Store) (owners : List OwnerToken) : Prop where
  current : ∀ owner ∈ s.owner, owners.head? = some owner ∧ owner.storeId = options.storeId
  bounded : ∀ owner ∈ owners, owner.epoch ≤ s.epoch
  later : owners.Pairwise fun later earlier => earlier.epoch < later.epoch

omit [Platform] in
theorem Granted.empty : Granted options .empty [] := ⟨by simp [Store.empty], by simp, .nil⟩

theorem Granted.step {owners : List OwnerToken} (h : Granted options s owners) (call : StoreCall) :
    Granted options (s.step options call) ((s.granted options call).toList ++ owners) := by
  have hkept : ∀ s' : Store, (∀ owner ∈ s'.owner, owner ∈ s.owner) → s.epoch ≤ s'.epoch →
      Granted options s' owners := fun s' hkept hle =>
    ⟨fun owner howner => h.current owner (hkept owner howner),
      fun owner howner => (h.bounded owner howner).trans hle, h.later⟩
  cases call with
  | acquireOwner nonce =>
    simp only [Store.step, Store.granted, Store.acquireOwner]
    split
    · exact hkept s (fun _ howner => howner) le_rfl
    · split
      · rename_i token hparse
        obtain ⟨-, -, rfl⟩ := parse_eq_ok.1 hparse
        refine ⟨?_, fun owner howner => ?_, List.pairwise_cons.2
          ⟨fun owner howner => Nat.lt_succ_of_le (h.bounded owner howner), h.later⟩⟩
        · rintro _ ⟨⟩
          exact ⟨rfl, rfl⟩
        · rcases List.mem_cons.1 howner with rfl | hold
          · exact le_rfl
          · exact (h.bounded owner hold).trans (Nat.le_succ _)
      · exact hkept _ (fun _ howner => howner) (Nat.le_succ _)
  | releaseOwner token =>
    simp only [Store.step]
    split
    · rename_i s' hrelease
      simp only [Store.releaseOwner, failIf_bind_eq_ok, pure_eq_ok, Except.ok.injEq] at hrelease
      exact hrelease.2 ▸ hkept _ (fun _ howner => by cases howner) le_rfl
    · exact hkept s (fun _ howner => howner) le_rfl
  | commit command =>
    simp only [Store.step]
    split
    · rename_i s' receipt hcommit
      obtain ⟨-, ⟨-, rfl⟩ | ⟨e, -, rfl, -⟩⟩ := commit_cases hcommit <;>
        exact hkept _ (fun _ howner => howner) le_rfl
    · exact hkept s (fun _ howner => howner) le_rfl

/-- The store after some calls, and the owners they were answered with. -/
def Store.owners (options : StoreOptions) (calls : List StoreCall) : Store × List OwnerToken :=
  Machine.run (fun state call =>
    (state.1.step options call, (state.1.granted options call).toList ++ state.2))
    (Store.empty, []) calls

/-- **Owners are fenced**: each owner has a greater epoch than those before it, and a commit or
a release that succeeds names the last one, whatever the calls before it. -/
theorem owners_fenced (options : StoreOptions) (calls : List StoreCall) :
    (Store.owners options calls).2.Pairwise (fun later earlier => earlier.epoch < later.epoch) ∧
      (∀ command s' receipt, (Store.owners options calls).1.commit options command =
        .ok (s', receipt) → (Store.owners options calls).2.head? = some command.owner) ∧
      ∀ token s', (Store.owners options calls).1.releaseOwner options token = .ok s' →
        (Store.owners options calls).2.head? = some token := by
  have hgranted : Granted options (Store.owners options calls).1 (Store.owners options calls).2 :=
    Machine.run_invariant _ (P := fun state : Store × List OwnerToken =>
      Granted options state.1 state.2) (fun _ call h => h.step call) .empty calls
  refine ⟨hgranted.later,
    fun command s' receipt h => (hgranted.current _ (commit_cases h).1.owner).1,
    fun token s' h => ?_⟩
  simp only [Store.releaseOwner, failIf_bind_eq_ok] at h
  cases howner : (Store.owners options calls).1.owner with
  | none => simp [howner] at h
  | some owner =>
    obtain ⟨hhead, hstore⟩ := hgranted.current owner howner
    simp only [howner, Option.all_some, Bool.or_eq_true, decide_eq_true_eq, not_or, ne_eq,
      not_not] at h
    obtain ⟨⟨⟨hsame, hepoch⟩, hnonce⟩, -⟩ := h
    rw [hhead]
    cases owner
    cases token
    simp_all

/-- The owner of a reachable store holds a token of this store. -/
theorem Store.owner_storeId (options : StoreOptions) (calls : List StoreCall) :
    ∀ owner ∈ (Store.empty.run options calls).owner, owner.storeId = options.storeId := by
  have hgranted : ∃ owners, Granted options (Store.empty.run options calls) owners :=
    Machine.run_invariant _ (P := fun s => ∃ owners, Granted options s owners)
      (fun _ call h => h.imp' _ fun _ h => h.step call) ⟨[], .empty⟩ calls
  obtain ⟨owners, hgranted⟩ := hgranted
  exact fun owner howner => (hgranted.current owner howner).2

/-! ## A recognized repetition decides the commit -/

/-- A well-formed command of the current owner. -/
structure Submitted (s : Store) (command : StoreCommand) : Prop where
  wellFormed : parseDelegationStoreCommand command = .ok command
  owner : s.owner = some command.owner

/-- The plan of a submitted command is decided by what it repeats. -/
theorem Ledger.plan_eq (hledger : Ledger options s) (hsubmitted : Submitted s command)
    (hstore : command.owner.storeId = options.storeId) :
    planDelegationStoreCommit command (s.current options command) =
      (duplicate command (s.current options command)).bind fun retry =>
        match retry with
        | some receipt => .ok ([], receipt)
        | none => planFresh command (s.current options command) := by
  have howner : ¬((s.current options command).options.storeId ≠ command.owner.storeId ∨
      (s.current options command).owner.all (fun owner => !same owner command.owner) = true) := by
    have hcurrent : (s.current options command).owner = some command.owner := hsubmitted.owner
    rw [hcurrent, Option.all_some, same_refl]
    rintro (hne | hfalse)
    · exact hne hstore.symm
    · cases hfalse
  have hcapacity : ¬capacityInconsistent (s.current options command).capacity
      (s.current options command).limits := hledger.capacity_consistent
  rw [planDelegationStoreCommit, hsubmitted.wellFormed, ok_bind]
  unfold failWhen
  rw [failIf_of_not _ howner, ok_bind, failIf_of_not _ hcapacity, ok_bind,
    failIf_of_not _ (hledger.snapshot_consistent command), ok_bind]
  rfl

variable {receipt : CommitReceipt} {outcome : RunOutcome} {atTime : JsString}
  {current : CommitCurrent}

theorem Ledger.commit_repeated (hledger : Ledger options s) (hsubmitted : Submitted s command)
    (hstore : command.owner.storeId = options.storeId)
    (h : duplicate command (s.current options command) = .ok (some receipt)) :
    s.commit options command = .ok (s, receipt) := by
  rw [Store.commit, hsubmitted.wellFormed, ok_bind, hledger.plan_eq hsubmitted hstore, h]
  rfl

theorem Ledger.commit_refused (hledger : Ledger options s) (hsubmitted : Submitted s command)
    (hstore : command.owner.storeId = options.storeId) {failure : Failure}
    (h : duplicate command (s.current options command) = .error failure) :
    s.commit options command = .error failure := by
  rw [Store.commit, hsubmitted.wellFormed, ok_bind, hledger.plan_eq hsubmitted hstore, h]
  rfl

/-! ## Retained operations -/

/-- The operation retained under the identity of a command, in the scope of its
admission or of its task. -/
def Store.retained (s : Store) (command : StoreCommand) : Option OperationRecord :=
  (commandParent s command).bind fun parent =>
    s.operations.get (operationKey parent command.operationId)

/-- Commands that are answered from a retained operation: admissions,
cancellations, first intents and resolutions. -/
def StoreCommand.retriable (command : StoreCommand) : Bool :=
  match command.body with
  | .admitRun _ => true
  | .cancel _ _ => true
  | .dispatchIntent _ _ _ attempt => decide (attempt = none) || decide (attempt = some 1)
  | .requestState .resolutionIntended _ _ => true
  | _ => false

/-- A retained operation has the content and the place of a command. -/
def OperationRecord.agrees (row : OperationRecord) (command : StoreCommand) : Prop :=
  row.inputDigest = command.inputDigest ∧
    (command.isAdmit = false → row.taskId = command.taskId ∧ command.runId = some row.runId)

instance (row : OperationRecord) (command : StoreCommand) : Decidable (row.agrees command) := by
  unfold OperationRecord.agrees
  infer_instance

/-- The text of the conflict between a command and a retained operation. -/
def retainedConflict : Failure :=
  .operation .operationConflict
    (js "The operation identity has different retained input or ownership.")

omit [Platform] in
theorem duplicateOperation_of_disagrees
    (h : ¬(row.agrees command ∧ ∀ kind ∈ operationKind command, row.kind = kind)) :
    duplicateOperation command row = .error retainedConflict := by
  have hguard : row.inputDigest ≠ command.inputDigest ∨
      (operationKind command).any (fun k => decide (row.kind ≠ k)) = true ∨
      (command.isAdmit = false ∧
        (row.taskId ≠ command.taskId ∨ some row.runId ≠ command.runId)) := by
    by_contra hnone
    simp only [not_or, not_and, ne_eq, not_not, Bool.not_eq_true, Option.any_eq_false,
      decide_eq_false_iff_not] at hnone
    exact h ⟨⟨hnone.1, fun hadmission => ⟨(hnone.2.2 hadmission).1, (hnone.2.2 hadmission).2.symm⟩⟩, hnone.2.1⟩
  rw [duplicateOperation]
  unfold failWhen
  rw [failIf_of _ hguard]
  rfl

omit [Platform] in
theorem duplicateOperation_of_agrees (hagrees : row.agrees command)
    (hkind : ∀ kind ∈ operationKind command, row.kind = kind) :
    ¬(row.inputDigest ≠ command.inputDigest ∨
      (operationKind command).any (fun k => decide (row.kind ≠ k)) = true ∨
      (command.isAdmit = false ∧
        (row.taskId ≠ command.taskId ∨ some row.runId ≠ command.runId))) := by
  simp only [not_or, not_and, ne_eq, not_not, Bool.not_eq_true, Option.any_eq_false,
    decide_eq_false_iff_not]
  exact ⟨hagrees.1, hkind, fun hadmission => ⟨(hagrees.2 hadmission).1, (hagrees.2 hadmission).2.symm⟩⟩

variable (options) in
/-- A retriable command is answered by its retained operation. -/
theorem duplicate_retriable (hretriable : command.retriable = true)
    (hrow : s.retained command = some row) :
    duplicate command (s.current options command) =
      if row.agrees command ∧ operationKind command = some row.kind then
        .ok (some { row.receipt with duplicate := true })
      else .error retainedConflict := by
  have hoperation : (s.current options command).operation = some row := hrow
  have hanswer : duplicateOperation command row =
      if row.agrees command ∧ operationKind command = some row.kind then
        .ok (some { row.receipt with duplicate := true })
      else .error retainedConflict := by
    by_cases hmatch : row.agrees command ∧ operationKind command = some row.kind
    · have hkind : ∀ kind ∈ operationKind command, row.kind = kind := by
        intro kind hkind
        rw [hmatch.2, Option.mem_some_iff] at hkind
        exact hkind
      rw [if_pos hmatch, duplicateOperation]
      unfold failWhen
      rw [failIf_of_not _ (duplicateOperation_of_agrees hmatch.1 hkind), ok_bind]
      cases hbody : command.body with
      | admitRun admission | cancel atTime reason => simp [operationKind, cleanupRetry, hbody]
      | dispatchIntent kind atTime target attempt =>
        have hfirst : attempt ≠ some 2 := by
          rintro rfl
          simp [StoreCommand.retriable, hbody] at hretriable
        simp [operationKind, cleanupRetry, hbody, hfirst]
      | requestState state request atTime =>
        cases state with
        | resolutionIntended => simp [operationKind, cleanupRetry, hbody]
        | _ => simp [StoreCommand.retriable, hbody] at hretriable
      | _ => simp [StoreCommand.retriable, hbody] at hretriable
    · rw [if_neg hmatch]
      refine duplicateOperation_of_disagrees fun hagrees => hmatch ⟨hagrees.1, ?_⟩
      cases hkind : operationKind command with
      | some kind => rw [hagrees.2 kind hkind]
      | none =>
        exfalso
        cases hbody : command.body with
        | requestState state request atTime =>
          cases state <;> simp [operationKind, StoreCommand.retriable, hbody] at hkind hretriable
        | _ => simp [operationKind, StoreCommand.retriable, hbody] at hkind hretriable
  cases hbody : command.body with
  | deliveryClaim | deliveryReceipt => simp [StoreCommand.retriable, hbody] at hretriable
  | _ =>
    simp only [duplicate, hbody, duplicateRetained, hoperation, hanswer]
    split <;> rfl

/-! ## Retained settlements -/

/-- The receipt of a settlement that was made before. -/
def settledReceipt (s : Store) (command : StoreCommand) (run : RunRecord)
    (finalization : Finalization) : CommitReceipt :=
  { duplicate := true, status := .settled, taskId := command.taskId,
    taskRevision := finalization.taskRevision, runId := some run.runId,
    runRevision := some finalization.runRevision, operationId := some command.operationId,
    notificationId := (s.notifications.get (notificationIdOf run.runId)).map
      NotificationRecord.key }

/-- A finalization was made by a command with the identity and the content of
another one. -/
def Finalization.madeBy (finalization : Finalization) (command : StoreCommand) : Prop :=
  finalization.operationId = command.operationId ∧ finalization.inputDigest = command.inputDigest

theorem namedRun_of_mem (hrun : run ∈ s.runs.rows) (htask : run.taskId = command.taskId)
    (hid : command.runId = some run.runId) :
    (s.current options command).namedRun command = some run := by
  cases hnamed : (s.current options command).namedRun command with
  | none =>
    have hmiss := List.find?_eq_none.1 hnamed run (mem_current_runs.2 ⟨hrun, htask⟩)
    rw [hid, decide_eq_true rfl] at hmiss
    exact absurd rfl hmiss
  | some other =>
    obtain ⟨hother, -, hotherId⟩ := namedRun_eq_some hnamed
    rw [hid, Option.some.injEq] at hotherId
    rw [Store.run_eq hrun hother hotherId]

/-- A settlement finds no other operation under its identity. -/
def Store.settles (s : Store) (command : StoreCommand) : Prop :=
  ∀ row ∈ s.retained command, row.agrees command

variable (options) in
theorem duplicate_settle (hbody : command.body = .settle outcome atTime)
    (hrun : run ∈ s.runs.rows) (htask : run.taskId = command.taskId)
    (hid : command.runId = some run.runId) {finalization : Finalization}
    (hfinal : run.finalization = some finalization) :
    (s.settles command → finalization.madeBy command →
      duplicate command (s.current options command) =
        .ok (some (settledReceipt s command run finalization))) ∧
      (¬(s.settles command ∧ finalization.madeBy command) → ∃ message,
        duplicate command (s.current options command) =
          .error (.operation .operationConflict message)) := by
  have hnamed : (s.current options command).namedRun command = some run :=
    namedRun_of_mem hrun htask hid
  have hkind : operationKind command = none := by rw [operationKind, hbody]
  have hnotification : (s.current options command).notification =
      s.notifications.get (notificationIdOf run.runId) := by
    simp only [Store.current, commandNotificationId, commandRunId, hbody, hid, Option.map_some,
      Option.bind_some]
  -- Without another operation the finalization of the run decides.
  have hdecides : s.settles command → duplicate command (s.current options command) =
      duplicateSettlement command (s.current options command) run := by
    intro hsettles
    have hretained : duplicateRetained command (s.current options command) = .ok none := by
      cases hrow : s.retained command with
      | none =>
        have hoperation : (s.current options command).operation = none := hrow
        simp only [duplicateRetained, hoperation]
        rfl
      | some row =>
        have hoperation : (s.current options command).operation = some row := hrow
        have hguard := duplicateOperation_of_agrees (hsettles row hrow)
          (fun kind hmem => by rw [hkind] at hmem; cases hmem)
        simp only [duplicateRetained, hoperation]
        rw [duplicateOperation]
        unfold failWhen
        rw [failIf_of_not _ hguard, ok_bind]
        simp [hbody, hkind]
    simp only [duplicate, hbody, hretained, ok_bind, hnamed]
  refine ⟨fun hsettles hmade => ?_, fun hnot => ?_⟩
  · have hguard : ¬(finalization.operationId ≠ command.operationId ∨
        finalization.inputDigest ≠ command.inputDigest) := by
      rintro (hne | hne)
      · exact hne hmade.1
      · exact hne hmade.2
    rw [hdecides hsettles, duplicateSettlement, hfinal]
    simp only [hnotification]
    unfold failWhen
    rw [failIf_of_not _ hguard, ok_bind]
    rfl
  · by_cases hsettles : s.settles command
    · have hguard : finalization.operationId ≠ command.operationId ∨
          finalization.inputDigest ≠ command.inputDigest := by
        by_contra hsame
        simp only [not_or, ne_eq, not_not] at hsame
        exact hnot ⟨hsettles, hsame⟩
      refine ⟨js "A final outcome already has its canonical settlement.", ?_⟩
      rw [hdecides hsettles, duplicateSettlement, hfinal]
      unfold failWhen
      simp only [failIf_of _ hguard, error_bind]
    · obtain ⟨row, hrow, hdisagrees⟩ : ∃ row ∈ s.retained command, ¬row.agrees command := by
        simpa only [Store.settles, not_forall, exists_prop] using hsettles
      have hoperation : (s.current options command).operation = some row := hrow
      have hrefused := duplicateOperation_of_disagrees
        (fun h => hdisagrees h.1 : ¬(row.agrees command ∧ ∀ kind ∈ operationKind command,
          row.kind = kind))
      exact ⟨js "The operation identity has different retained input or ownership.", by
        simp only [duplicate, hbody, duplicateRetained, hoperation, hrefused, error_bind]
        rfl⟩

/-! ## First receipts -/

omit [Platform] in
theorem duplicateOperation_marked {prior : OperationRecord}
    (h : duplicateOperation command prior = .ok (some receipt)) : receipt.duplicate = true := by
  rw [duplicateOperation, failIf_bind_eq_ok] at h
  obtain ⟨-, h⟩ := h
  split at h
  · split at h
    · simp only [failIf_bind_eq_ok, pure_eq_ok, Except.ok.injEq, Option.some.injEq] at h
      rw [← h.2]
    · simp at h
  · split at h
    · simp only [pure_eq_ok, Except.ok.injEq, Option.some.injEq] at h
      rw [← h]
    · simp at h

omit [Platform] in
theorem duplicateSettlement_marked
    (h : duplicateSettlement command current run = .ok (some receipt)) :
    receipt.duplicate = true := by
  unfold duplicateSettlement at h
  split at h
  · simp at h
  · simp only [failIf_bind_eq_ok, pure_eq_ok, Except.ok.injEq, Option.some.injEq] at h
    rw [← h.2]

theorem duplicateDelivery_marked {slot : DeliverySlot} {notificationId attemptId : JsString}
    (h : duplicateDelivery command current slot notificationId attemptId = .ok (some receipt)) :
    receipt.duplicate = true := by
  unfold duplicateDelivery at h
  split at h
  · simp at h
  · rw [failIf_bind_eq_ok, failIf_bind_eq_ok] at h
    obtain ⟨-, -, h⟩ := h
    dsimp only at h
    split at h
    · simp only [failIf_bind_eq_ok, pure_eq_ok, Except.ok.injEq, Option.some.injEq] at h
      rw [← h.2.2]
    · simp [failIf_bind_eq_ok] at h

theorem duplicateObservation_marked {observation : TaskObservation}
    (h : duplicateObservation current run observation = .ok (some receipt)) :
    receipt.duplicate = true := by
  unfold duplicateObservation at h
  split at h
  · simp only [failIf_bind_eq_ok, pure_eq_ok, Except.ok.injEq, Option.some.injEq] at h
    rw [← h.2]
  · simp at h

omit [Platform] in
theorem duplicateRetirement_marked (h : duplicateRetirement command current = .ok (some receipt)) :
    receipt.duplicate = true := by
  unfold duplicateRetirement at h
  split at h
  · simp at h
  · split at h
    · simp at h
    · simp only [failIf_bind_eq_ok, pure_eq_ok, Except.ok.injEq, Option.some.injEq] at h
      rw [← h.2]

/-- The answer to a repeated command is marked. -/
theorem duplicate_marked (h : duplicate command current = .ok (some receipt)) :
    receipt.duplicate = true := by
  have hretained : duplicateRetained command current = .ok (some receipt) →
      receipt.duplicate = true := by
    intro h
    unfold duplicateRetained at h
    split at h
    · exact duplicateOperation_marked h
    · simp at h
  have hfirst : ∀ rest : Result (Option CommitReceipt), (rest = .ok (some receipt) →
      receipt.duplicate = true) → ((duplicateRetained command current) >>= fun retained =>
        match retained with
        | some receipt => pure (some receipt)
        | none => rest) = .ok (some receipt) → receipt.duplicate = true := by
    intro rest hrest h
    obtain ⟨retained, hanswer, h⟩ := bind_eq_ok.1 h
    cases retained with
    | some r =>
      simp only [pure_eq_ok, Except.ok.injEq, Option.some.injEq] at h
      exact hretained (h ▸ hanswer)
    | none => exact hrest h
  have hnone : (pure none : Result (Option CommitReceipt)) = .ok (some receipt) →
      receipt.duplicate = true := fun h => by cases h
  cases hbody : command.body with
  | deliveryClaim
  | deliveryReceipt => exact duplicateDelivery_marked (by simpa only [duplicate, hbody] using h)
  | cancel =>
    simp only [duplicate, hbody] at h
    refine hfirst _ (fun hrest => ?_) h
    split at hrest
    · cases hrest
    · exact hnone hrest
  | settle =>
    simp only [duplicate, hbody] at h
    refine hfirst _ (fun hrest => ?_) h
    split at hrest
    · exact duplicateSettlement_marked hrest
    · exact hnone hrest
  | observe =>
    simp only [duplicate, hbody] at h
    refine hfirst _ (fun hrest => ?_) h
    split at hrest
    · exact duplicateObservation_marked hrest
    · exact hnone hrest
  | retireRecovery =>
    simp only [duplicate, hbody] at h
    exact hfirst _ duplicateRetirement_marked h
  | _ =>
    simp only [duplicate, hbody] at h
    exact hfirst _ hnone h

/-- The row a first admission or cancellation leaves behind. -/
structure FirstOperation (command : StoreCommand) (e : Effect) (o : OperationRecord) : Prop where
  written : e.operation = some o
  receipt : o.receipt = e.receipt
  kind : operationKind command = some o.kind
  fixed : receiptDispositions o.kind = []
  operationId : o.operationId = command.operationId
  inputDigest : o.inputDigest = command.inputDigest
  parent : ∀ admission, command.body = .admitRun admission → o.parent = admission.parent
  place : command.isAdmit = false → o.taskId = command.taskId ∧ command.runId = some o.runId

theorem Transition.first_operation (h : Transition options s command e)
    (hkind : operationKind command = some .admitRun ∨ operationKind command = some .cancel) :
    ∃ o, FirstOperation command e o := by
  cases h with
  | admitTask admission receipt hbody =>
    refine ⟨_, rfl, rfl, by rw [operationKind, hbody]; rfl, rfl, rfl, rfl, ?_, ?_⟩
    · intro other hother
      rw [hbody, CommandBody.admitRun.injEq] at hother
      exact congrArg RunAdmission.parent hother
    · exact fun hadmission => by simp [StoreCommand.isAdmit, hbody] at hadmission
  | continueTask admission task previous receipt hbody _ _ hcontinues =>
    refine ⟨_, rfl, rfl, by rw [operationKind, hbody]; rfl, rfl, rfl, rfl, ?_, ?_⟩
    · intro other hother
      rw [hbody, CommandBody.admitRun.injEq] at hother
      rw [← hother]
      exact hcontinues.parent.symm
    · exact fun hadmission => by simp [StoreCommand.isAdmit, hbody] at hadmission
  | retire reason atTime task named receipt hbody => simp [operationKind, hbody] at hkind
  | act task run e htask hrun htaskId hnamed _ _ hchange =>
    have hcancelled : ∀ {receipt : CommitReceipt} {atTime reason : JsString},
        command.body = .cancel atTime reason → receipt = e.receipt →
        e.operation = some (recordedOperation command task run.runId .cancel atTime none
          receipt) → ∃ o, FirstOperation command e o := by
      intro receipt atTime reason hbody hreceipt hwritten
      refine ⟨_, hwritten, hreceipt, by rw [operationKind, hbody]; rfl, rfl, rfl, rfl, ?_, ?_⟩
      · intro admission hadmission
        rw [hbody] at hadmission
        cases hadmission
      · exact fun _ => ⟨Store.taskId_of_get htask, hnamed⟩
    cases hchange with
    | cancelSettled atTime reason receipt hbody
    | cancelPending atTime reason receipt hbody => exact hcancelled hbody rfl rfl
    | cancelQueued atTime reason expiresAt receipt hbody => exact hcancelled hbody rfl rfl
    | intent kind atTime target attempt run' receipt hbody _ _ _ _ hentered =>
      rw [operationKind, hbody] at hkind
      rcases hkind with hkind | hkind <;> rw [Option.some.injEq] at hkind <;> subst hkind <;>
        cases hentered
    | retryCleanup kind atTime target prior hbody hcleanup =>
      rw [operationKind, hbody] at hkind
      rcases hcleanup with rfl | rfl <;> simp at hkind
    | request state request atTime run' hbody hrequested =>
      cases hrequested <;> simp [operationKind, hbody] at hkind
    | receipt disposition atTime message eligibility prior run' status receipt hbody
    | claim notificationId attemptId atTime revision prior notification hbody =>
      simp [operationKind, hbody] at hkind
    | observe observation hbody
    | overflow observation marker hbody => simp [operationKind, hbody] at hkind
    | resolution request pending atTime receipt hbody
    | settle outcome atTime expiresAt hbody => simp [operationKind, hbody] at hkind
    | answer notificationId attemptId atTime revision result prior notification held hbody =>
      simp [operationKind, hbody] at hkind

/-! ## Later stores -/

/-- Later calls keep every operation row, possibly revised. -/
theorem Store.operation_kept (options : StoreOptions) (s : Store) (more : List StoreCall) {o : OperationRecord}
    (ho : o ∈ s.operations.rows) :
    ∃ o' ∈ (s.run options more).operations.rows, Revised o o' := by
  refine Machine.run_related (P := fun _ => True)
    (R := fun s s' : Store => ∀ o ∈ s.operations.rows, ∃ o' ∈ s'.operations.rows, Revised o o')
    (fun _ o ho => ⟨o, ho, .refl o⟩) ?_ (fun _ _ _ => trivial) ?_ trivial more o ho
  · intro a b c hab hbc o ho
    obtain ⟨o', ho', hrevised⟩ := hab o ho
    obtain ⟨o'', ho'', hrevised'⟩ := hbc o' ho'
    exact ⟨o'', ho'', hrevised.trans hrevised'⟩
  · intro s call _ o ho
    obtain ⟨owner, epoch, hstep⟩ | ⟨command, e, -, hcommitted, hstep⟩ :=
      Store.step_cases options s call
    · rw [hstep]
      exact ⟨o, ho, .refl o⟩
    · rw [hstep]
      obtain ⟨o', ho', hrevised, -⟩ := hcommitted.transition.exists_revised ho
      exact ⟨o', ho', hrevised⟩

/-- Later calls keep every notification, possibly with other contents. -/
theorem Store.notification_kept (options : StoreOptions) (s : Store) (more : List StoreCall) {n : NotificationRecord}
    (hn : n ∈ s.notifications.rows) :
    ∃ n' ∈ (s.run options more).notifications.rows, n'.key = n.key := by
  refine Machine.run_related (P := fun _ => True)
    (R := fun s s' : Store => ∀ n ∈ s.notifications.rows, ∃ n' ∈ s'.notifications.rows,
      n'.key = n.key)
    (fun _ n hn => ⟨n, hn, rfl⟩) ?_ (fun _ _ _ => trivial) ?_ trivial more n hn
  · intro a b c hab hbc n hn
    obtain ⟨n', hn', hkey⟩ := hab n hn
    obtain ⟨n'', hn'', hkey'⟩ := hbc n' hn'
    exact ⟨n'', hn'', hkey'.trans hkey⟩
  · intro s call _ n hn
    obtain ⟨owner, epoch, hstep⟩ | ⟨command, e, -, -, hstep⟩ :=
      Store.step_cases options s call
    · rw [hstep]
      exact ⟨n, hn, rfl⟩
    · rw [hstep]
      by_cases hwritten : ∃ m ∈ e.notification, n.key = m.key
      · obtain ⟨m, hm, hkey⟩ := hwritten
        exact ⟨m, Table.mem_putOption.2 (Or.inl hm), hkey.symm⟩
      · simp only [not_exists, not_and] at hwritten
        exact ⟨n, Table.mem_putOption.2 (Or.inr ⟨hn, hwritten⟩), rfl⟩

/-- The same admission or cancellation under other revisions, times and names
of fresh rows. -/
inductive Resubmits (command again : StoreCommand) : Prop
  | admitRun (admission other : RunAdmission) (hbody : command.body = .admitRun admission)
      (hagain : again.body = .admitRun other)
      (hid : again.operationId = command.operationId)
      (hdigest : again.inputDigest = command.inputDigest)
      (hscope : other.parent.parentId = admission.parent.parentId ∧
        other.parent.scopeId = admission.parent.scopeId)
  | cancel (atTime reason atTime' reason' : JsString) (hbody : command.body = .cancel atTime reason)
      (hagain : again.body = .cancel atTime' reason')
      (hid : again.operationId = command.operationId)
      (hdigest : again.inputDigest = command.inputDigest)
      (hplace : again.taskId = command.taskId ∧ again.runId = command.runId)

omit [Platform] in
/-- A retained first operation answers every resubmission. -/
theorem FirstOperation.answers {o row : OperationRecord} (hlinked : Linked s)
    (hfirst : FirstOperation command e o) (hrow : row ∈ s.operations.rows)
    (hrevised : Revised o row) (hagain : Resubmits command again) :
    again.retriable = true ∧ s.retained again = some row ∧ row.agrees again ∧
      operationKind again = some row.kind ∧ row.receipt = e.receipt := by
  have hreceipt : row.receipt = e.receipt := (hrevised.receipt hfirst.fixed).trans hfirst.receipt
  have hkey : ∀ parent : ParentScope, parent.parentId = row.parent.parentId →
      parent.scopeId = row.parent.scopeId → again.operationId = command.operationId →
      s.operations.get (operationKey parent again.operationId) = some row := by
    intro parent hparentId hscopeId hid
    have heq : operationKey parent again.operationId = row.key := by
      rw [OperationRecord.key, operationKey, operationKey, hparentId, hscopeId, hid,
        hrevised.operationId, hfirst.operationId]
    rw [heq]
    exact Table.get_of_mem hrow
  have hcontent : again.inputDigest = command.inputDigest → row.inputDigest = again.inputDigest :=
    fun hdigest => by rw [hrevised.inputDigest, hfirst.inputDigest, hdigest]
  cases hagain with
  | admitRun admission other hbody hagain hid hdigest hscope =>
    refine ⟨by rw [StoreCommand.retriable, hagain], ?_, ⟨hcontent hdigest, fun hadmission => ?_⟩, ?_,
      hreceipt⟩
    · have hparent : row.parent = admission.parent :=
        hrevised.parent.trans (hfirst.parent admission hbody)
      rw [Store.retained, commandParent, hagain]
      exact hkey other.parent (hparent ▸ hscope.1) (hparent ▸ hscope.2) hid
    · simp [StoreCommand.isAdmit, hagain] at hadmission
    · rw [hrevised.kind, ← hfirst.kind, operationKind, operationKind, hbody, hagain]
  | cancel atTime reason atTime' reason' hbody hagain hid hdigest hplace =>
    obtain ⟨htaskId, hrunId⟩ := hfirst.place (by rw [StoreCommand.isAdmit, hbody])
    have htaskId' : row.taskId = again.taskId := by rw [hrevised.taskId, htaskId, hplace.1]
    refine ⟨by rw [StoreCommand.retriable, hagain], ?_, ⟨hcontent hdigest, fun _ => ⟨htaskId', ?_⟩⟩,
      ?_, hreceipt⟩
    · obtain ⟨task, htask, hparent⟩ := hlinked.operationTask row hrow
      rw [htaskId'] at htask
      rw [Store.retained, commandParent, hagain, htask]
      exact hkey task.parent (hparent ▸ rfl) (hparent ▸ rfl) hid
    · rw [hplace.2, hrunId, hrevised.runId]
    · rw [hrevised.kind, ← hfirst.kind, operationKind, operationKind, hbody, hagain]

/-- What a first settlement leaves behind. -/
structure FirstSettlement (command : StoreCommand) (e : Effect) (run : RunRecord) : Prop where
  written : e.run = some run
  runId : command.runId = some run.runId
  taskId : run.taskId = command.taskId
  finalization : ∃ finalization, run.finalization = some finalization ∧
    finalization.madeBy command ∧
    e.receipt =
      { duplicate := false, status := .settled, taskId := command.taskId,
        taskRevision := finalization.taskRevision, runId := some run.runId,
        runRevision := some finalization.runRevision, operationId := some command.operationId,
        notificationId := some (notificationIdOf run.runId) }
  notification : ∃ n ∈ e.notification, n.key = notificationIdOf run.runId

theorem Transition.first_settlement (h : Transition options s command e)
    (hbody : command.body = .settle outcome atTime) : ∃ run, FirstSettlement command e run := by
  cases h with
  | admitTask admission receipt hadmission => rw [hbody] at hadmission; cases hadmission
  | continueTask admission task previous receipt hadmission => rw [hbody] at hadmission; cases hadmission
  | retire reason atTime' task named receipt hretire => rw [hbody] at hretire; cases hretire
  | act task run e htask hrun htaskId hnamed _ _ hchange =>
    have hid : task.taskId = command.taskId := Store.taskId_of_get htask
    cases hchange with
    | settle outcome' atTime' expiresAt _ =>
      refine ⟨_, rfl, hnamed, htaskId, ⟨_, rfl, ⟨rfl, rfl⟩, ?_⟩, _, rfl, rfl⟩
      rw [← hid]
      rfl
    | intent _ _ _ _ _ _ hother | retryCleanup _ _ _ _ hother
    | receipt _ _ _ _ _ _ _ _ hother => rw [hbody] at hother; cases hother
    | observe _ hother | overflow _ _ hother
    | request _ _ _ _ hother => rw [hbody] at hother; cases hother
    | resolution _ _ _ _ hother | cancelSettled _ _ _ hother
    | cancelPending _ _ _ hother => rw [hbody] at hother; cases hother
    | cancelQueued _ _ _ _ hother | claim _ _ _ _ _ _ hother
    | answer _ _ _ _ _ _ _ _ hother => rw [hbody] at hother; cases hother

variable (options) in
/-- A settlement committed for the first time is answered with its receipt in
every later store. -/
theorem FirstSettlement.answers {later : Store} (hfirst : FirstSettlement command e run)
    {row : RunRecord} (hrow : row ∈ later.runs.rows) (hadvances : Advances run row)
    {n : NotificationRecord} (hn : n ∈ later.notifications.rows)
    (hkey : n.key = notificationIdOf run.runId) (hdone : run.outcome.isSome = true)
    (hbody : again.body = .settle outcome atTime) (hid : again.operationId = command.operationId)
    (hdigest : again.inputDigest = command.inputDigest) (htask : again.taskId = command.taskId)
    (hrun : again.runId = command.runId) (hsettles : later.settles again) :
    duplicate again (later.current options again) =
      .ok (some { e.receipt with duplicate := true }) := by
  obtain ⟨finalization, hfinal, hmade, hreceipt⟩ := hfirst.finalization
  have hkept : row.finalization = some finalization := (hadvances.final hdone).2.2.trans hfinal
  have hmade' : finalization.madeBy again := ⟨hmade.1.trans hid.symm, hmade.2.trans hdigest.symm⟩
  rw [(duplicate_settle _ hbody hrow
    (by rw [hadvances.taskId, hfirst.taskId, htask])
    (by rw [hrun, hfirst.runId, hadvances.runId]) hkept).1 hsettles hmade', hreceipt]
  have hget : later.notifications.get (notificationIdOf run.runId) = some n := by
    rw [← hkey]
    exact Table.get_of_mem hn
  simp only [settledReceipt, hadvances.runId, hget, Option.map_some, hkey, htask, hid]

/-- **Repeated operations are answered, not repeated.**  In every reachable
store a retriable command whose operation is retained changes nothing: it is
answered with the receipt of the row, or refused when it disagrees with it.
The answer of an admission or a cancellation is the receipt of its first
commit, whatever calls came between.  A settled run answers its own settlement
with the revisions of that settlement, and refuses every other one, as long as
no other operation was recorded under the identity of the settlement. -/
theorem operation_idempotent (options : StoreOptions) (calls : List StoreCall) {s : Store}
    (hs : s = Store.empty.run options calls) :
    (∀ command row, Submitted s command → command.retriable = true →
      s.retained command = some row → s.commit options command =
        if row.agrees command ∧ operationKind command = some row.kind then
          .ok (s, { row.receipt with duplicate := true })
        else .error retainedConflict) ∧
    (∀ command s₁ receipt, s.commit options command = .ok (s₁, receipt) →
      receipt.duplicate = false →
      ((∃ admission, command.body = .admitRun admission) ∨
        ∃ atTime reason, command.body = .cancel atTime reason) →
      ∀ more again, Resubmits command again → Submitted (s₁.run options more) again →
        (s₁.run options more).commit options again =
          .ok (s₁.run options more, { receipt with duplicate := true })) ∧
    (∀ command outcome atTime run finalization, Submitted s command →
      command.body = .settle outcome atTime → run ∈ s.runs.rows → run.taskId = command.taskId →
      command.runId = some run.runId → run.finalization = some finalization →
      (s.settles command → finalization.madeBy command →
        s.commit options command = .ok (s, settledReceipt s command run finalization)) ∧
      (¬(s.settles command ∧ finalization.madeBy command) → ∃ message,
        s.commit options command = .error (.operation .operationConflict message))) ∧
    ∀ command outcome atTime s₁ receipt, s.commit options command = .ok (s₁, receipt) →
      receipt.duplicate = false → command.body = .settle outcome atTime →
      ∀ more again outcome' atTime', again.body = .settle outcome' atTime' →
        again.operationId = command.operationId → again.inputDigest = command.inputDigest →
        again.taskId = command.taskId → again.runId = command.runId →
        Submitted (s₁.run options more) again → (s₁.run options more).settles again →
        (s₁.run options more).commit options again =
          .ok (s₁.run options more, { receipt with duplicate := true }) := by
  subst hs
  have hledger := Ledger.reachable options calls
  have howner := Store.owner_storeId options calls
  have hstore : ∀ command, Submitted (Store.empty.run options calls) command →
      command.owner.storeId = options.storeId := fun command hsubmitted =>
    howner command.owner hsubmitted.owner
  -- The store after a commit and further calls is reachable as well.
  have hlater : ∀ command s₁ receipt more,
      (Store.empty.run options calls).commit options command = .ok (s₁, receipt) →
      s₁.run options more = Store.empty.run options (calls ++ .commit command :: more) := by
    intro command s₁ receipt more hcommit
    have hstep : (Store.empty.run options calls).step options (.commit command) = s₁ := by
      rw [Store.step, hcommit]
    rw [← hstep]
    exact (Machine.run_append (Store.step options) .empty calls (.commit command :: more)).symm
  refine ⟨?_, ?_, ?_, ?_⟩
  · intro command row hsubmitted hretriable hrow
    have hduplicate := duplicate_retriable options hretriable hrow
    split
    · rename_i hmatch
      rw [if_pos hmatch] at hduplicate
      exact hledger.commit_repeated hsubmitted (hstore command hsubmitted) hduplicate
    · rename_i hmatch
      rw [if_neg hmatch] at hduplicate
      exact hledger.commit_refused hsubmitted (hstore command hsubmitted) hduplicate
  · intro command s₁ receipt hcommit hfresh hbody more again hagain hsubmitted
    have hkind : operationKind command = some .admitRun ∨ operationKind command = some .cancel := by
      rcases hbody with ⟨admission, hbody⟩ | ⟨atTime, reason, hbody⟩
      · exact Or.inl (by rw [operationKind, hbody])
      · exact Or.inr (by rw [operationKind, hbody])
    obtain ⟨-, ⟨hduplicate, -⟩ | ⟨e, htransition, happly, hreceipt, -⟩⟩ := commit_cases hcommit
    · have hmarked := duplicate_marked hduplicate
      rw [hfresh] at hmarked
      cases hmarked
    · obtain ⟨o, hfirst⟩ := htransition.first_operation hkind
      have ho : o ∈ s₁.operations.rows := by
        rw [happly]
        exact Table.mem_putOption.2 (Or.inl hfirst.written)
      obtain ⟨row, hrow, hrevised⟩ := Store.operation_kept options s₁ more ho
      have heq := hlater command s₁ receipt more hcommit
      have hlinked : Linked (s₁.run options more) := heq ▸ Linked.reachable options _
      have hledger' : Ledger options (s₁.run options more) := heq ▸ Ledger.reachable options _
      have hstore' : again.owner.storeId = options.storeId :=
        Store.owner_storeId options _ again.owner (heq ▸ hsubmitted.owner)
      obtain ⟨hretriable, hretained, hagrees, hkind', hanswer⟩ :=
        hfirst.answers hlinked hrow hrevised hagain
      have hduplicate := duplicate_retriable options hretriable hretained
      rw [if_pos ⟨hagrees, hkind'⟩, hanswer, ← hreceipt] at hduplicate
      exact hledger'.commit_repeated hsubmitted hstore' hduplicate
  · intro command outcome atTime run finalization hsubmitted hbody hrun htask hid hfinal
    have hduplicate := duplicate_settle options hbody hrun htask hid hfinal
    refine ⟨fun hsettles hmade => ?_, fun hnot => ?_⟩
    · exact hledger.commit_repeated hsubmitted (hstore command hsubmitted)
        (hduplicate.1 hsettles hmade)
    · obtain ⟨message, hrefused⟩ := hduplicate.2 hnot
      exact ⟨message, hledger.commit_refused hsubmitted (hstore command hsubmitted) hrefused⟩
  · intro command outcome atTime s₁ receipt hcommit hfresh hbody more again outcome' atTime' hagain
      hid hdigest htask hrun hsubmitted hsettles
    obtain ⟨-, ⟨hduplicate, -⟩ | ⟨e, htransition, happly, hreceipt, -⟩⟩ := commit_cases hcommit
    · have hmarked := duplicate_marked hduplicate
      rw [hfresh] at hmarked
      cases hmarked
    · obtain ⟨run, hfirst⟩ := htransition.first_settlement hbody
      obtain ⟨n, hn, hkey⟩ := hfirst.notification
      have hmem : run ∈ s₁.runs.rows := by
        rw [happly]
        exact Table.mem_putOption.2 (Or.inl hfirst.written)
      have hnotified : n ∈ s₁.notifications.rows := by
        rw [happly]
        exact Table.mem_putOption.2 (Or.inl hn)
      have heq₁ : s₁ = Store.empty.run options (calls ++ [.commit command]) :=
        hlater command s₁ receipt [] hcommit
      have hderived : Derived s₁ := heq₁ ▸ Derived.reachable options _
      have hsound : run.Sound := (heq₁ ▸ Linked.reachable options _ : Linked s₁).sound run hmem
      have heq := hlater command s₁ receipt more hcommit
      have hledger' : Ledger options (s₁.run options more) := heq ▸ Ledger.reachable options _
      have hstore' : again.owner.storeId = options.storeId :=
        Store.owner_storeId options _ again.owner (heq ▸ hsubmitted.owner)
      obtain ⟨row, hrow, hadvances⟩ := (hderived.outlives options more).runs run hmem
      obtain ⟨n', hn', hkey'⟩ := Store.notification_kept options s₁ more hnotified
      have hdone : run.outcome.isSome = true := by
        obtain ⟨finalization, hfinal, -⟩ := hfirst.finalization
        exact hsound.outcome.1 (hsound.finalization.2 (by rw [hfinal]; rfl))
      have hduplicate := hfirst.answers options hrow hadvances hn' (hkey'.trans hkey)
        hdone hagain hid hdigest htask hrun hsettles
      rw [hreceipt]
      exact hledger'.commit_repeated hsubmitted hstore' hduplicate

end Idempotency

/-! ## Commands submitted again -/

section Sample

/-- The hash of the runtime. -/
local instance : Platform := hashPlatform

/-- The admission of `sampleCalls` again, for a fresh task and a fresh run. -/
def sampleAgain : StoreCommand :=
  { sampleAdmit with
    taskId := js "00000000-0000-4000-8000-000000000008", expectedTaskRevision := 7,
    body := .admitRun { sampleAdmission with
      runId := js "00000000-0000-4000-8000-000000000009",
      createdAt := js "2025-01-01T00:01:00.000Z" } }

theorem sampleAgain_retained :
    parseDelegationStoreCommand sampleAgain = .ok sampleAgain ∧
      (Store.empty.run sampleOptions sampleCalls).owner = some sampleAgain.owner ∧
      ((Store.empty.run sampleOptions sampleCalls).retained sampleAgain).any (fun row =>
        decide (row.agrees sampleAgain ∧ operationKind sampleAgain = some row.kind)) = true := by
  rw [run_sampleCalls]
  decide +kernel

/-- The task that was admitted and cancelled answers its admission again. -/
theorem operation_idempotent_again : ∃ row : OperationRecord,
    (Store.empty.run sampleOptions sampleCalls).retained sampleAgain = some row ∧
      (Store.empty.run sampleOptions sampleCalls).commit sampleOptions sampleAgain =
        .ok (Store.empty.run sampleOptions sampleCalls, { row.receipt with duplicate := true }) := by
  obtain ⟨hparse, howner, hany⟩ := sampleAgain_retained
  obtain ⟨row, hrow, hmatch⟩ := (Option.any_eq_true _ _).1 hany
  have hanswer := (operation_idempotent sampleOptions sampleCalls rfl).1 sampleAgain row
    ⟨hparse, howner⟩ rfl hrow
  rw [if_pos (of_decide_eq_true hmatch)] at hanswer
  exact ⟨row, hrow, hanswer⟩

/-- The settlement of the queued run as not dispatched. -/
def sampleSettle : StoreCommand :=
  sampleCommand (js "00000000-0000-4000-8000-000000000007") (some (1, 1))
    (.settle (.canceled .notDispatched) sampleTime)

/-- A cancellation with another content under the identity of the settlement. -/
def sampleReuse : StoreCommand :=
  { sampleCommand sampleSettle.operationId (some (2, 2)) (.cancel sampleTime (js "stop")) with
    inputDigest := js "9f86d081884c7d659a2feaa0c55ad015a3bf4f1b2b0b822cd15d6c15b0f00a08" }

/-- The cancellation follows the settlement. -/
def reusedCalls : List StoreCall :=
  [.acquireOwner sampleOwner.nonce, .commit sampleAdmit, .commit sampleSettle, .commit sampleReuse]

/-- The store that settled the queued run. -/
def settledStore : Store :=
  { admittedStore with
    capacity := { admittedStore.capacity with queuedRuns := 0 }
    tasks := Table.empty.put sampleSettledTask
    runs := Table.empty.put (({ sampleRun with revision := 2 }).finish sampleSettle
      sampleSettledTask (.canceled .notDispatched) sampleTime)
    notifications := Table.empty.put sampleNotification }

theorem step_sampleSettle :
    admittedStore.step sampleOptions (.commit sampleSettle) = settledStore := by
  decide +kernel

theorem run_reusedCalls : Store.empty.run sampleOptions reusedCalls =
    settledStore.step sampleOptions (.commit sampleReuse) := by
  rw [reusedCalls, Store.run, Machine.run_cons, Machine.run_cons, Machine.run_cons, Machine.run_cons,
    Machine.run_nil, step_sampleOwner, step_sampleAdmit, step_sampleSettle]

theorem reusedCalls_refused :
    parseDelegationStoreCommand sampleSettle = .ok sampleSettle ∧
      (Store.empty.run sampleOptions reusedCalls).owner = some sampleSettle.owner ∧
      (∃ run ∈ (Store.empty.run sampleOptions reusedCalls).runs.rows,
        run.taskId = sampleSettle.taskId ∧ sampleSettle.runId = some run.runId ∧
          (run.finalization.map fun finalization =>
            (finalization.operationId, finalization.inputDigest)) =
              some (sampleSettle.operationId, sampleSettle.inputDigest)) ∧
      duplicate sampleSettle
        ((Store.empty.run sampleOptions reusedCalls).current sampleOptions sampleSettle) =
          .error retainedConflict := by
  rw [run_reusedCalls]
  decide +kernel

/-- A settled run refuses its own settlement once another operation is retained
under the identity of the settlement. -/
theorem settlement_identity_reused :
    Submitted (Store.empty.run sampleOptions reusedCalls) sampleSettle ∧
      (∃ run ∈ (Store.empty.run sampleOptions reusedCalls).runs.rows,
        run.taskId = sampleSettle.taskId ∧ sampleSettle.runId = some run.runId ∧
          ∃ finalization ∈ run.finalization, finalization.madeBy sampleSettle) ∧
      (Store.empty.run sampleOptions reusedCalls).commit sampleOptions sampleSettle =
        .error retainedConflict := by
  obtain ⟨hparse, howner, ⟨run, hrun, htask, hid, hfinal⟩, hrefused⟩ := reusedCalls_refused
  obtain ⟨finalization, hmem, hmade⟩ := Option.map_eq_some_iff.1 hfinal
  refine ⟨⟨hparse, howner⟩, ⟨run, hrun, htask, hid, finalization, hmem, Prod.mk.inj hmade⟩, ?_⟩
  exact (Ledger.reachable sampleOptions reusedCalls).commit_refused ⟨hparse, howner⟩ rfl hrefused

end Sample

end AgentSdk.Delegation
