import AgentSdk.Delegation.Idempotency

/-!
# Delivery of completions

A notification waits, is claimed by one attempt at a time and ends once.  Its
attempts are the claims committed for it, under the identities derived from it
and their ordinals; the bookkeeping of the latest claim and the latest receipt
answers their repetitions.

## Main results

* `Transition.notifies` — what a commit does to notifications.
* `Deliveries.reachable` — attempts and accepted receipts against the commands
  committed.
* `delivery_safety` — what every run says about a notification.
-/

namespace AgentSdk.Delegation

open AgentSdk.Text AgentSdk.Calendar AgentSdk.Outcome

section Delivery

variable [Platform] {options : StoreOptions} {s : Store} {command : StoreCommand}
  {task : TaskRecord} {run : RunRecord} {e : Effect} {n prior : NotificationRecord}

/-! ## The commands committed -/

/-- The command a call commits, unless it repeats an earlier one. -/
def Store.firstCommits (options : StoreOptions) (s : Store) : StoreCall → List StoreCommand
  | .commit command => match s.commit options command with
      | .ok (_, receipt) => if receipt.duplicate then [] else [command]
      | .error _ => []
  | _ => []

/-- A step that also records the command committed. -/
def Store.logStep (options : StoreOptions) (state : Store × List StoreCommand) (call : StoreCall) :
    Store × List StoreCommand :=
  (state.1.step options call, state.2 ++ state.1.firstCommits options call)

/-- The commands committed by a list of calls. -/
def Store.log (options : StoreOptions) (s : Store) (calls : List StoreCall) : List StoreCommand :=
  (Machine.run (Store.logStep options) (s, []) calls).2

theorem Store.logStep_run (options : StoreOptions) (s : Store) (log : List StoreCommand) (calls : List StoreCall) :
    (Machine.run (Store.logStep options) (s, log) calls).1 = s.run options calls := by
  induction calls generalizing s log with
  | nil => rfl
  | cons call _ ih => exact ih _ _

theorem Transition.receipt_first (h : Transition options s command e) :
    e.receipt.duplicate = false := by
  cases h with
  | admitTask _ _ _ _ _ _ _ _ _ hreceipt
  | continueTask _ _ _ _ _ _ _ _ _ _ _ hreceipt => rw [admissionEffect, hreceipt]; rfl
  | retire _ _ _ _ _ _ _ _ _ _ _ hreceipt => rw [hreceipt]; rfl
  | act task run e _ _ _ _ _ _ hchange =>
    cases hchange with
    | intent _ _ _ _ _ _ _ _ _ _ _ _ _ _ hreceipt
    | receipt _ _ _ _ _ _ _ _ _ _ _ _ _ _ _ _ _ _ _ _ hreceipt => rw [hreceipt]; rfl
    | resolution _ _ _ _ _ _ _ _ _ _ _ _ _ _ hreceipt
    | cancelSettled _ _ _ _ _ _ _ hreceipt => rw [hreceipt]; rfl
    | cancelPending _ _ _ _ _ _ _ _ hreceipt
    | cancelQueued _ _ _ _ _ _ _ _ _ _ _ hreceipt => rw [hreceipt]; rfl
    | _ => rfl

variable (options s) in
/-- What a call does and what it commits. -/
theorem Store.step_log (call : StoreCall) :
    (∃ owner epoch, s.step options call = s.withOwner owner epoch ∧
        s.firstCommits options call = []) ∨
      ∃ command e, call = .commit command ∧ Committed options s command e ∧
        s.step options call = s.apply e ∧ s.firstCommits options call = [command] := by
  cases call with
  | acquireOwner nonce =>
    obtain ⟨owner, epoch, hstep⟩ | ⟨command, e, hcall, -⟩ :=
      Store.step_cases options s (.acquireOwner nonce)
    · exact Or.inl ⟨owner, epoch, hstep, rfl⟩
    · cases hcall
  | releaseOwner token =>
    obtain ⟨owner, epoch, hstep⟩ | ⟨command, e, hcall, -⟩ :=
      Store.step_cases options s (.releaseOwner token)
    · exact Or.inl ⟨owner, epoch, hstep, rfl⟩
    · cases hcall
  | commit command =>
    cases hcommit : s.commit options command with
    | error failure =>
      refine Or.inl ⟨s.owner, s.epoch, ?_, ?_⟩
      · rw [Store.step, hcommit]
        rfl
      · rw [Store.firstCommits, hcommit]
    | ok result =>
      obtain ⟨s', receipt⟩ := result
      obtain ⟨hfenced, ⟨hduplicate, rfl⟩ | ⟨e, htransition, happly, hreceipt, htask, hrun⟩⟩ :=
        commit_cases hcommit
      · refine Or.inl ⟨s'.owner, s'.epoch, ?_, ?_⟩
        · rw [Store.step, hcommit]
          rfl
        · simp only [Store.firstCommits, hcommit, duplicate_marked hduplicate, if_true]
      · refine Or.inr ⟨command, e, rfl, ⟨hfenced, htransition, htask, hrun⟩, ?_, ?_⟩
        · rw [Store.step, hcommit]
          exact happly
        · simp only [Store.firstCommits, hcommit, hreceipt, htransition.receipt_first,
            Bool.false_eq_true, if_false]

/-! ## How a delivery command moves its notification -/

/-- The bookkeeping a delivery command leaves behind. -/
def deliveryEntryOf (command : StoreCommand) (receipt : CommitReceipt) (attemptId : JsString)
    (attempt : Nat) : DeliveryCommitRecord :=
  { operationId := command.operationId, inputDigest := command.inputDigest,
    commandDigest := delegationInputDigest (Data.json command), attemptId, attempt,
    ownerEpoch := command.owner.epoch, receipt }

/-- The state after an answer. -/
def DeliveryResult.state : DeliveryResult → NotificationState
  | .accepted _ _ => .accepted
  | .blocked _ _ => .pending
  | .uncertain _ => .pending
  | .ended status _ => status.state

/-- The canonical identity of an attempt at a notification, in a slot. -/
structure Canonical (command : StoreCommand) (slot : DeliverySlot) (notificationId : JsString)
    (attempt : Nat) (attemptId : JsString) : Prop where
  attemptId : attemptId = (deliveryAttemptIdentity notificationId attempt).attemptId
  operationId : command.operationId =
    (deliveryAttemptIdentity notificationId attempt).operationId slot

/-- How a delivery command moves a notification: the next attempt claims a
pending one, or finds it expired; the current attempt answers a claimed one. -/
inductive Delivered (command : StoreCommand) (receipt : CommitReceipt)
    (prior n : NotificationRecord) : Prop
  | claim (revision : Nat) (attemptId atTime : JsString)
      (hbody : command.body = .deliveryClaim prior.key revision attemptId atTime)
      (hstate : prior.state = .pending)
      (hcanonical : Canonical command .claim prior.key (prior.attempts + 1) attemptId)
      (hattempts : n.attempts = prior.attempts + 1)
      (hnext : (n.state = .claimed ∧ n.claim = some ⟨command.owner.epoch, attemptId⟩) ∨
        (n.state = .expired ∧ notAfter prior.envelope.expiresAt atTime = true ∧
          prior.reason ≠ some (js "uncertain")))
      (hslot : n.slot .claim =
        some (deliveryEntryOf command receipt attemptId (prior.attempts + 1)))
      (hother : n.slot .receipt = prior.slot .receipt)
      (hplace : prior.envelope.taskId = command.taskId ∧
        command.runId = some prior.envelope.runId)
  | answer (revision : Nat) (attemptId : JsString) (result : DeliveryResult) (atTime : JsString)
      (held : DeliveryClaim)
      (hbody : command.body = .deliveryReceipt prior.key revision attemptId result atTime)
      (hstate : prior.state = .claimed) (hheld : prior.claim = some held)
      (hattempt : held.attemptId = attemptId)
      (howner : held.ownerEpoch = command.owner.epoch ∨ result.isUncertain = true)
      (hcanonical : Canonical command .receipt prior.key prior.attempts attemptId)
      (hattempts : n.attempts = prior.attempts) (hnext : n.state = result.state)
      (hslot : n.slot .receipt =
        some (deliveryEntryOf command receipt attemptId prior.attempts))
      (hother : n.slot .claim = prior.slot .claim)
      (hplace : prior.envelope.taskId = command.taskId ∧
        command.runId = some prior.envelope.runId)

/-- The delivery slot of a notification a command is about. -/
def StoreCommand.delivers (command : StoreCommand) : Option (DeliverySlot × JsString) :=
  match command.body with
  | .deliveryClaim notificationId _ _ _ => some (.claim, notificationId)
  | .deliveryReceipt notificationId _ _ _ _ => some (.receipt, notificationId)
  | _ => none

/-- What a transition does to notifications. -/
inductive Notifies (s : Store) (command : StoreCommand) (e : Effect) : Prop
  | quiet (hnone : e.notification = none) (hbody : command.delivers = none)
  | ended (run run' : RunRecord) (n : NotificationRecord) (hrun : run ∈ s.runs.rows)
      (houtcome : run.outcome = none) (hrun' : e.run = some run')
      (hnotification : e.notification = some n) (hbody : command.delivers = none)
      (hkey : n.key = notificationIdOf run.runId) (hattempts : n.attempts = 0)
      (hstate : n.state = if n.envelope.policy = .collect then .collectible else .pending)
      (hslots : ∀ slot, n.slot slot = none)
  | delivered (prior n : NotificationRecord) (hprior : s.notifications.get n.key = some prior)
      (hnotification : e.notification = some n) (henvelope : n.envelope = prior.envelope)
      (hpolicy : prior.envelope.policy ≠ .collect)
      (hdelivered : Delivered command e.receipt prior n)

variable {slot : DeliverySlot} {k : JsString} {receipt : CommitReceipt}

theorem Deliverable.key {notificationId attemptId : JsString} {revision : Nat}
    (h : Deliverable s command run slot notificationId attemptId revision prior) :
    prior.key = notificationId := Table.key_of_get h.retained

/-- A claim moves its notification as `Delivered` says. -/
theorem Claimed.delivered {notificationId attemptId atTime : JsString} {revision : Nat}
    (hbody : command.body = .deliveryClaim notificationId revision attemptId atTime)
    (hnamed : command.runId = some run.runId)
    (hdeliverable : Deliverable s command run .claim notificationId attemptId revision prior)
    (hstate : prior.state = .pending)
    (h : Claimed command task run notificationId attemptId atTime prior n) :
    Delivered command { baseReceipt command task.next (some run.next) with
      notificationId := some notificationId } prior n := by
  obtain rfl := hdeliverable.key
  have hplace : prior.envelope.taskId = command.taskId ∧
      command.runId = some prior.envelope.runId :=
    ⟨hdeliverable.taskId, by rw [hnamed, hdeliverable.runId]⟩
  cases h with
  | expired hexpired hreason =>
    exact .claim revision attemptId atTime hbody hstate
      ⟨hdeliverable.attemptId, hdeliverable.operationId⟩ rfl
      (Or.inr ⟨rfl, hexpired, hreason⟩) rfl rfl hplace
  | claimed =>
    exact .claim revision attemptId atTime hbody hstate
      ⟨hdeliverable.attemptId, hdeliverable.operationId⟩ rfl (Or.inl ⟨rfl, rfl⟩) rfl rfl hplace

omit [Platform] in
theorem answerNotification_state (n : NotificationRecord) (result : DeliveryResult) :
    (answerNotification n result).state = result.state ∧
      (answerNotification n result).attempts = n.attempts ∧
        ∀ slot, (answerNotification n result).slot slot = n.slot slot := by
  cases result <;> exact ⟨rfl, rfl, fun slot => by cases slot <;> rfl⟩

theorem Transition.notifies (h : Transition options s command e) : Notifies s command e := by
  cases h with
  | admitTask admission receipt hbody => exact .quiet rfl (by rw [StoreCommand.delivers, hbody])
  | continueTask admission task previous receipt hbody
  | retire reason atTime task named receipt hbody =>
    exact .quiet rfl (by rw [StoreCommand.delivers, hbody])
  | act task run e _ hrun _ hnamed _ _ hchange =>
    cases hchange with
    | intent _ _ _ _ _ _ hbody
    | retryCleanup _ _ _ _ hbody => exact .quiet rfl (by rw [StoreCommand.delivers, hbody])
    | receipt _ _ _ _ _ _ _ _ hbody
    | observe _ hbody => exact .quiet rfl (by rw [StoreCommand.delivers, hbody])
    | overflow _ _ hbody
    | request _ _ _ _ hbody => exact .quiet rfl (by rw [StoreCommand.delivers, hbody])
    | resolution _ _ _ _ hbody
    | cancelSettled _ _ _ hbody => exact .quiet rfl (by rw [StoreCommand.delivers, hbody])
    | cancelPending _ _ _ hbody => exact .quiet rfl (by rw [StoreCommand.delivers, hbody])
    | cancelQueued atTime reason expiresAt receipt hbody _ _ _ houtcome
    | settle outcome atTime expiresAt hbody _ houtcome =>
      exact .ended run _ _ hrun houtcome rfl rfl (by rw [StoreCommand.delivers, hbody]) rfl rfl
        rfl fun slot => by cases slot <;> rfl
    | claim notificationId attemptId atTime revision prior n hbody hdeliverable hstate hclaimed =>
      have henvelope : n.envelope = prior.envelope := hclaimed.envelope
      refine .delivered prior n ?_ rfl henvelope hdeliverable.policy
        (hclaimed.delivered hbody hnamed hdeliverable hstate)
      rw [NotificationRecord.key, henvelope, ← NotificationRecord.key, hdeliverable.key]
      exact hdeliverable.retained
    | answer notificationId attemptId atTime revision result prior n held hbody hdeliverable
        hstate hheld hattempt howner _ hn =>
        have henvelope : n.envelope = prior.envelope := by
          rw [hn, answerNotification_envelope]
          rfl
        obtain ⟨hnext, hattempts, hslots⟩ := answerNotification_state
          (retainedNotification command task run .receipt prior notificationId attemptId) result
        rw [← hn] at hnext hattempts hslots
        have hprior : s.notifications.get n.key = some prior := by
          rw [NotificationRecord.key, henvelope, ← NotificationRecord.key, hdeliverable.key]
          exact hdeliverable.retained
        obtain rfl := hdeliverable.key
        exact .delivered prior n hprior rfl henvelope hdeliverable.policy
          (.answer revision attemptId result atTime held hbody hstate hheld hattempt howner
            ⟨hdeliverable.attemptId, hdeliverable.operationId⟩ hattempts hnext
            (hslots .receipt) (hslots .claim)
            ⟨hdeliverable.taskId, by rw [hnamed, hdeliverable.runId]⟩)

/-! ## Attempts and answers against the commands committed -/

/-- Is a command a claim of a notification? -/
def StoreCommand.claims (notificationId : JsString) (command : StoreCommand) : Bool :=
  decide (command.delivers = some (.claim, notificationId))

/-- Does a command report that the inbox accepted a notification? -/
def StoreCommand.accepts (notificationId : JsString) (command : StoreCommand) : Bool :=
  match command.body with
  | .deliveryReceipt id _ _ (.accepted _ _) _ => decide (id = notificationId)
  | _ => false

/-- What the commands committed say about the notifications of a store. -/
structure Deliveries (s : Store) (log : List StoreCommand) : Prop where
  attempts : ∀ n ∈ s.notifications.rows, n.attempts = log.countP (StoreCommand.claims n.key)
  accepted : ∀ n ∈ s.notifications.rows,
    log.countP (StoreCommand.accepts n.key) = if n.state = .accepted then 1 else 0
  absent : ∀ k, s.notifications.get k = none → ∀ command ∈ log, ∀ slot,
    command.delivers ≠ some (slot, k)
  collectible : ∀ n ∈ s.notifications.rows, n.state = .collectible ↔ n.envelope.policy = .collect
  latestClaim : ∀ n ∈ s.notifications.rows, ∀ entry ∈ n.slot .claim, entry.operationId =
    (deliveryAttemptIdentity n.key n.attempts).operationId .claim
  latestReceipt : ∀ n ∈ s.notifications.rows, ∀ entry ∈ n.slot .receipt,
    ∃ attempt ≤ n.attempts, entry.operationId =
      (deliveryAttemptIdentity n.key attempt).operationId .receipt

theorem Deliveries.empty : Deliveries .empty [] := by
  refine ⟨?_, ?_, ?_, ?_, ?_, ?_⟩ <;> simp [Store.empty]

omit [Platform] in
theorem StoreCommand.accepts_delivers (h : command.accepts k = true) :
    command.delivers = some (.receipt, k) := by
  unfold StoreCommand.accepts at h
  split at h
  · rename_i hbody
    rw [StoreCommand.delivers, hbody, of_decide_eq_true h]
  · cases h

omit [Platform] in
/-- A command counts only for the notification it is about. -/
theorem countP_of_delivers (log : List StoreCommand)
    (h : ∀ slot, command.delivers ≠ some (slot, k)) :
    (log ++ [command]).countP (StoreCommand.claims k) = log.countP (StoreCommand.claims k) ∧
      (log ++ [command]).countP (StoreCommand.accepts k) = log.countP (StoreCommand.accepts k) := by
  have hclaims : command.claims k = false := decide_eq_false (h .claim)
  have haccepts : command.accepts k = false :=
    Bool.eq_false_iff.2 fun hacc => h .receipt (StoreCommand.accepts_delivers hacc)
  simp [List.countP_append, hclaims, haccepts]

/-- The slot and the notification a delivery command is about. -/
theorem Delivered.delivers (h : Delivered command receipt prior n) :
    ∃ slot, command.delivers = some (slot, prior.key) := by
  cases h with
  | claim revision attemptId atTime hbody => exact ⟨.claim, by rw [StoreCommand.delivers, hbody]⟩
  | answer revision attemptId result atTime held hbody =>
    exact ⟨.receipt, by rw [StoreCommand.delivers, hbody]⟩

/-- A delivery command is counted with the attempt it claims or the answer it
gives. -/
theorem Delivered.counts {log : List StoreCommand} (h : Delivered command receipt prior n)
    (hattempts : prior.attempts = log.countP (StoreCommand.claims prior.key))
    (haccepted : log.countP (StoreCommand.accepts prior.key) =
      if prior.state = .accepted then 1 else 0) :
    n.attempts = (log ++ [command]).countP (StoreCommand.claims prior.key) ∧
      (log ++ [command]).countP (StoreCommand.accepts prior.key) =
        if n.state = .accepted then 1 else 0 := by
  rw [List.countP_append, List.countP_append, haccepted, ← hattempts, List.countP_singleton,
    List.countP_singleton]
  cases h with
  | claim revision attemptId atTime hbody hstate _ hnext hmoved =>
    have hclaims : command.claims prior.key = true := by
      rw [StoreCommand.claims, StoreCommand.delivers, hbody]
      exact decide_eq_true rfl
    have haccepts : command.accepts prior.key = false := by rw [StoreCommand.accepts, hbody]
    have hn : n.state ≠ .accepted := by
      rcases hmoved with ⟨hmoved, -⟩ | ⟨hmoved, -⟩ <;> rw [hmoved] <;>
        exact NotificationState.noConfusion
    simp [hclaims, haccepts, hnext, hstate, hn]
  | answer revision attemptId result atTime held hbody hstate _ _ _ _ hsame hmoved =>
    have hclaims : command.claims prior.key = false := by
      rw [StoreCommand.claims, StoreCommand.delivers, hbody]
      exact decide_eq_false fun h => by cases h
    rw [hstate, hsame, hmoved]
    cases result with
    | accepted | blocked | uncertain =>
      simp [hclaims, StoreCommand.accepts, hbody, DeliveryResult.state]
    | ended status reason =>
      cases status <;>
        simp [hclaims, StoreCommand.accepts, hbody, DeliveryResult.state, DeliveryEnd.state]

/-- The bookkeeping after a delivery command. -/
theorem Delivered.slots (h : Delivered command receipt prior n)
    (hclaim : ∀ entry ∈ prior.slot .claim, entry.operationId =
      (deliveryAttemptIdentity prior.key prior.attempts).operationId .claim)
    (hreceipt : ∀ entry ∈ prior.slot .receipt, ∃ attempt ≤ prior.attempts, entry.operationId =
      (deliveryAttemptIdentity prior.key attempt).operationId .receipt) :
    (∀ entry ∈ n.slot .claim, entry.operationId =
      (deliveryAttemptIdentity prior.key n.attempts).operationId .claim) ∧
      ∀ entry ∈ n.slot .receipt, ∃ attempt ≤ n.attempts, entry.operationId =
        (deliveryAttemptIdentity prior.key attempt).operationId .receipt := by
  cases h with
  | claim revision attemptId atTime _ _ hcanonical hattempts _ hslot hother =>
    rw [hslot, hother, hattempts]
    refine ⟨?_, fun entry hentry => ?_⟩
    · rintro entry ⟨⟩
      exact hcanonical.operationId
    · obtain ⟨attempt, hle, hid⟩ := hreceipt entry hentry
      exact ⟨attempt, by omega, hid⟩
  | answer revision attemptId result atTime held _ _ _ _ _ hcanonical hattempts _ hslot hother =>
    rw [hslot, hother, hattempts]
    refine ⟨hclaim, ?_⟩
    rintro entry ⟨⟩
    exact ⟨prior.attempts, le_rfl, hcanonical.operationId⟩

/-- A notification that reports another run is not replaced by a new one. -/
theorem Notified.fresh (hnotified : Notified s) (hfree : CollisionFree s)
    (hrun : run ∈ s.runs.rows) (houtcome : run.outcome = none) :
    s.notifications.get (notificationIdOf run.runId) = none := by
  rw [Table.get_eq_none]
  intro m hm hkey
  obtain ⟨hmkey, old, hold, hid, hreported⟩ := hnotified.origin m hm
  have hcollide : notificationIdOf old.runId = notificationIdOf run.runId := by
    rw [hid, ← hmkey, ← hkey]
  rw [Store.run_eq hold hrun (hfree old hold run hrun hcollide), houtcome] at hreported
  cases hreported

/-- A notification written over the one with its key, or as a new one. -/
theorem Deliveries.put {log : List StoreCommand} (h : Deliveries s log)
    (hnotification : e.notification = some n)
    (hothers : ∀ k, k ≠ n.key → ∀ slot, command.delivers ≠ some (slot, k))
    (hattempts : n.attempts = (log ++ [command]).countP (StoreCommand.claims n.key))
    (haccepted : (log ++ [command]).countP (StoreCommand.accepts n.key) =
      if n.state = .accepted then 1 else 0)
    (hcollectible : n.state = .collectible ↔ n.envelope.policy = .collect)
    (hclaim : ∀ entry ∈ n.slot .claim, entry.operationId =
      (deliveryAttemptIdentity n.key n.attempts).operationId .claim)
    (hreceipt : ∀ entry ∈ n.slot .receipt, ∃ attempt ≤ n.attempts, entry.operationId =
      (deliveryAttemptIdentity n.key attempt).operationId .receipt) :
    Deliveries (s.apply e) (log ++ [command]) := by
  have hput : (s.apply e).notifications = s.notifications.put n := by
    rw [Store.apply, hnotification]
    rfl
  have hrows : ∀ m ∈ (s.apply e).notifications.rows,
      m = n ∨ (m ∈ s.notifications.rows ∧ m.key ≠ n.key) := by
    intro m hm
    rw [hput] at hm
    exact Table.mem_put.1 hm
  refine ⟨?_, ?_, ?_, ?_, ?_, ?_⟩
  · intro m hm
    rcases hrows m hm with rfl | ⟨hold, hne⟩
    · exact hattempts
    · rw [(countP_of_delivers _ (hothers m.key hne)).1]
      exact h.attempts m hold
  · intro m hm
    rcases hrows m hm with rfl | ⟨hold, hne⟩
    · exact haccepted
    · rw [(countP_of_delivers _ (hothers m.key hne)).2]
      exact h.accepted m hold
  · intro k hk other hother slot
    rw [hput, Table.get_put] at hk
    split at hk
    · cases hk
    · rename_i hne
      rcases List.mem_append.1 hother with hold | hnew
      · exact h.absent k hk other hold slot
      · rw [List.mem_singleton.1 hnew]
        exact hothers k hne slot
  · intro m hm
    rcases hrows m hm with rfl | ⟨hold, -⟩
    · exact hcollectible
    · exact h.collectible m hold
  · intro m hm
    rcases hrows m hm with rfl | ⟨hold, -⟩
    · exact hclaim
    · exact h.latestClaim m hold
  · intro m hm
    rcases hrows m hm with rfl | ⟨hold, -⟩
    · exact hreceipt
    · exact h.latestReceipt m hold

/-- A delivery command leaves no notification collectible. -/
theorem Delivered.not_collectible (h : Delivered command receipt prior n) :
    n.state ≠ .collectible := by
  cases h with
  | claim _ _ _ _ _ _ _ hnext =>
    rcases hnext with ⟨hnext, -⟩ | ⟨hnext, -⟩ <;> rw [hnext] <;> exact NotificationState.noConfusion
  | answer _ _ result _ _ _ _ _ _ _ _ _ hnext =>
    rw [hnext]
    cases result with
    | ended status reason => cases status <;> exact NotificationState.noConfusion
    | _ => exact NotificationState.noConfusion

/-- A commit keeps the counts, with its command added to those committed. -/
theorem Deliveries.apply {log : List StoreCommand} (hnotified : Notified s)
    (hfree : CollisionFree s) (hnotifies : Notifies s command e) (h : Deliveries s log) :
    Deliveries (s.apply e) (log ++ [command]) := by
  cases hnotifies with
  | quiet hnone hbody =>
    have htable : (s.apply e).notifications = s.notifications := by
      rw [Store.apply, hnone]
      rfl
    have hno : ∀ k slot, command.delivers ≠ some (slot, k) := fun k slot => by
      rw [hbody]
      exact Option.some_ne_none _ ∘ Eq.symm
    refine ⟨?_, ?_, ?_, ?_, ?_, ?_⟩ <;> rw [htable]
    · intro n hn
      rw [(countP_of_delivers _ (hno n.key)).1]
      exact h.attempts n hn
    · intro n hn
      rw [(countP_of_delivers _ (hno n.key)).2]
      exact h.accepted n hn
    · intro k hk other hother slot
      rcases List.mem_append.1 hother with hold | hnew
      · exact h.absent k hk other hold slot
      · rw [List.mem_singleton.1 hnew]
        exact hno k slot
    · exact h.collectible
    · exact h.latestClaim
    · exact h.latestReceipt
  | ended run run' n hrun houtcome _ hnotification hbody hkey hattempts hstate hslots =>
    have hfresh : s.notifications.get n.key = none := by
      rw [hkey]
      exact hnotified.fresh hfree hrun houtcome
    have hno : ∀ k slot, command.delivers ≠ some (slot, k) := fun k slot => by
      rw [hbody]
      exact Option.some_ne_none _ ∘ Eq.symm
    -- Nothing was committed about a notification that was not there.
    have hzero : ∀ p : StoreCommand → Bool, (∀ other, p other = true →
        ∃ slot, other.delivers = some (slot, n.key)) → log.countP p = 0 := by
      intro p hp
      rw [List.countP_eq_zero]
      intro other hother htrue
      obtain ⟨slot, hdelivers⟩ := hp other htrue
      exact h.absent n.key hfresh other hother slot hdelivers
    obtain ⟨hclaims, haccepts⟩ := countP_of_delivers log (hno n.key)
    refine h.put hnotification (fun k _ => hno k) ?_ ?_ ?_ ?_ ?_
    · rw [hclaims, hattempts, hzero (StoreCommand.claims n.key) fun other htrue =>
        ⟨.claim, of_decide_eq_true htrue⟩]
    · rw [haccepts, hstate, hzero (StoreCommand.accepts n.key) fun other htrue =>
        ⟨.receipt, StoreCommand.accepts_delivers htrue⟩]
      split <;> rfl
    · rw [hstate]
      split
      · rename_i hpolicy
        exact ⟨fun _ => hpolicy, fun _ => rfl⟩
      · rename_i hpolicy
        exact ⟨NotificationState.noConfusion, fun heq => absurd heq hpolicy⟩
    · intro entry hentry
      rw [hslots] at hentry
      cases hentry
    · intro entry hentry
      rw [hslots] at hentry
      cases hentry
  | delivered prior n hprior hnotification henvelope hpolicy hdelivered =>
    obtain ⟨hmem, hkey⟩ := Table.get_eq_some.1 hprior
    obtain ⟨slot, hdelivers⟩ := hdelivered.delivers
    obtain ⟨hattempts, haccepted⟩ := hdelivered.counts (h.attempts prior hmem)
      (h.accepted prior hmem)
    obtain ⟨hclaim, hreceipt⟩ := hdelivered.slots (h.latestClaim prior hmem)
      (h.latestReceipt prior hmem)
    rw [hkey] at hdelivers hattempts haccepted hclaim hreceipt
    refine h.put hnotification (fun k hne slot' heq => ?_) hattempts haccepted
      ⟨fun hstate => absurd hstate hdelivered.not_collectible, fun heq => ?_⟩ hclaim hreceipt
    · rw [hdelivers, Option.some.injEq, Prod.mk.injEq] at heq
      exact hne heq.2.symm
    · rw [henvelope] at heq
      exact absurd heq hpolicy

/-- **Attempts and acceptances are counted**, in every run of the store whose
digests do not collide. -/
theorem Deliveries.reachable (options : StoreOptions) (calls : List StoreCall)
    (hfree : CollisionFree (Store.empty.run options calls)) :
    Deliveries (Store.empty.run options calls) (Store.empty.log options calls) := by
  have hfst := Store.logStep_run options .empty [] calls
  have hinv := Machine.run_invariant (Store.logStep options)
    (P := fun state => CollisionFree state.1 → Notified state.1 ∧ Deliveries state.1 state.2)
    (fun state call hstate hfree => ?_) (s := (Store.empty, [])) (fun _ => ⟨.empty, .empty⟩) calls
  · rw [hfst] at hinv
    exact (hinv hfree).2
  · obtain ⟨owner, epoch, hstep, hlog⟩ | ⟨command, e, -, hcommitted, hstep, hlog⟩ :=
      Store.step_log options state.1 call
    · rw [Store.logStep, hstep] at hfree
      obtain ⟨hnotified, h⟩ := hstate hfree
      rw [Store.logStep, hstep, hlog, List.append_nil]
      exact ⟨⟨hnotified.origin, hnotified.every⟩,
        { h with }⟩
    · rw [Store.logStep, hstep] at hfree
      have hbefore := hfree.before hcommitted.transition
      obtain ⟨hnotified, h⟩ := hstate hbefore
      rw [Store.logStep, hstep, hlog]
      exact ⟨hnotified.apply hcommitted.transition hfree,
        h.apply hnotified hbefore hcommitted.transition.notifies⟩

/-! ## One notification over time -/

/-- What a commit does to one notification. -/
theorem Notified.one (hnotified : Notified s) (hfree : CollisionFree s)
    (hnotifies : Notifies s command e) (hn : n ∈ s.notifications.rows) :
    n ∈ (s.apply e).notifications.rows ∨ ∃ n' ∈ (s.apply e).notifications.rows,
      n'.envelope = n.envelope ∧ Delivered command e.receipt n n' := by
  cases hnotifies with
  | quiet hnone =>
    refine Or.inl (Table.mem_putOption.2 (Or.inr ⟨hn, fun u hu => ?_⟩))
    rw [hnone] at hu
    exact absurd hu (Option.not_mem_none u)
  | ended run run' m hrun houtcome _ hnotification _ hkey =>
    refine Or.inl (Table.mem_putOption.2 (Or.inr ⟨hn, fun u hu heq => ?_⟩))
    rw [hnotification] at hu
    cases hu
    have hfresh := hnotified.fresh hfree hrun houtcome
    rw [← hkey, ← heq, Table.get_of_mem hn] at hfresh
    cases hfresh
  | delivered prior m hprior hnotification henvelope _ hdelivered =>
    by_cases heq : n.key = m.key
    · rw [← heq, Table.get_of_mem hn] at hprior
      cases hprior
      exact Or.inr ⟨m, Table.mem_putOption.2 (Or.inl hnotification), henvelope, hdelivered⟩
    · refine Or.inl (Table.mem_putOption.2 (Or.inr ⟨hn, fun u hu => ?_⟩))
      rw [hnotification, Option.mem_some_iff] at hu
      rw [← hu]
      exact heq

/-- A property of one notification that every delivery command about it keeps
holds in every later store. -/
theorem Notified.kept {Q : NotificationRecord → Prop} {C : StoreCommand → Prop}
    (hstep : ∀ command receipt n n', C command → Q n → n'.envelope = n.envelope →
      Delivered command receipt n n' → Q n')
    (hnotified : Notified s) (hn : ∃ n ∈ s.notifications.rows, Q n) (more : List StoreCall)
    (hfree : CollisionFree (s.run options more)) (hlog : ∀ command ∈ s.log options more, C command) :
    ∃ n ∈ (s.run options more).notifications.rows, Q n := by
  have hfst := Store.logStep_run options s [] more
  have hinv := Machine.run_invariant (Store.logStep options)
    (P := fun state => CollisionFree state.1 → Notified state.1 ∧
      ((∀ command ∈ state.2, C command) → ∃ n ∈ state.1.notifications.rows, Q n))
    (fun state call hstate hfree => ?_) (s := (s, [])) (fun _ => ⟨hnotified, fun _ => hn⟩) more
  · rw [hfst] at hinv
    exact (hinv hfree).2 hlog
  · obtain ⟨owner, epoch, hcall, hcommits⟩ | ⟨command, e, -, hcommitted, hcall, hcommits⟩ :=
      Store.step_log options state.1 call
    · rw [Store.logStep, hcall] at hfree
      obtain ⟨hnotified, h⟩ := hstate hfree
      rw [Store.logStep, hcall, hcommits, List.append_nil]
      exact ⟨⟨hnotified.origin, hnotified.every⟩, h⟩
    · rw [Store.logStep, hcall] at hfree
      have hbefore := hfree.before hcommitted.transition
      obtain ⟨hnotified, h⟩ := hstate hbefore
      rw [Store.logStep, hcall, hcommits]
      refine ⟨hnotified.apply hcommitted.transition hfree, fun hall => ?_⟩
      obtain ⟨n, hn, hQ⟩ := h fun other hother => hall other (List.mem_append_left _ hother)
      rcases hnotified.one hbefore hcommitted.transition.notifies hn with
        hkept | ⟨n', hn', henvelope, hdelivered⟩
      · exact ⟨n, hkept, hQ⟩
      · exact ⟨n', hn', hstep _ _ _ _
          (hall command (List.mem_append_right _ (List.mem_singleton_self _))) hQ henvelope hdelivered⟩

/-- A notification that is neither pending nor claimed is final. -/
theorem Notified.final (hnotified : Notified s) (hn : n ∈ s.notifications.rows)
    (hpending : n.state ≠ .pending) (hclaimed : n.state ≠ .claimed) (more : List StoreCall)
    (hfree : CollisionFree (s.run options more)) :
    n ∈ (s.run options more).notifications.rows := by
  obtain ⟨n', hn', rfl⟩ := hnotified.kept (Q := fun n' => n' = n) (C := fun _ => True)
    (fun command receipt prior n' _ hprior _ hdelivered => by
      subst hprior
      cases hdelivered with
      | claim _ _ _ _ hstate => exact absurd hstate hpending
      | answer _ _ _ _ _ _ hstate => exact absurd hstate hclaimed)
    ⟨n, hn, rfl⟩ more hfree (fun _ _ => trivial)
  exact hn'

/-! ## Commands submitted again -/

/-- The attempt a delivery command names. -/
def StoreCommand.attemptId (command : StoreCommand) : JsString :=
  match command.body with
  | .deliveryClaim _ _ attemptId _ => attemptId
  | .deliveryReceipt _ _ attemptId _ _ => attemptId
  | _ => []

variable (options s) in
theorem duplicate_of_delivers (h : command.delivers = some (slot, k)) :
    duplicate command (s.current options command) =
        duplicateDelivery command (s.current options command) slot k command.attemptId ∧
      (s.current options command).notification = s.notifications.get k := by
  cases hbody : command.body with
  | deliveryClaim id revision attemptId atTime
  | deliveryReceipt id revision attemptId result atTime =>
    rw [StoreCommand.delivers, hbody] at h
    cases h
    constructor
    · simp only [duplicate, StoreCommand.attemptId, hbody]
    · simp only [Store.current, commandNotificationId, hbody, Option.bind_some]
  | _ => simp [StoreCommand.delivers, hbody] at h

/-- The entry a delivery command leaves in its slot, under the identity of its
attempt. -/
structure LatestEntry (command : StoreCommand) (receipt : CommitReceipt) (slot : DeliverySlot)
    (k : JsString) (n : NotificationRecord) : Prop where
  key : n.key = k
  place : n.envelope.taskId = command.taskId ∧ command.runId = some n.envelope.runId
  entry : ∃ attempt, n.slot slot =
    some (deliveryEntryOf command receipt command.attemptId attempt) ∧
      attempt ≤ n.attempts ∧
      command.operationId = (deliveryAttemptIdentity k attempt).operationId slot

theorem Delivered.latestEntry (h : Delivered command receipt prior n)
    (henvelope : n.envelope = prior.envelope) (hdelivers : command.delivers = some (slot, k)) :
    LatestEntry command receipt slot k n := by
  have hkey : n.key = prior.key := congrArg CompletionEnvelope.notificationId henvelope
  cases h with
  | claim revision attemptId atTime hbody _ hcanonical hattempts _ hslot _ hplace =>
    rw [StoreCommand.delivers, hbody] at hdelivers
    cases hdelivers
    have hattempt : command.attemptId = attemptId := by rw [StoreCommand.attemptId, hbody]
    exact ⟨hkey, henvelope ▸ hplace, prior.attempts + 1, hattempt ▸ hslot, hattempts.ge,
      hcanonical.operationId⟩
  | answer revision attemptId result atTime held hbody _ _ _ _ hcanonical hattempts _ hslot _
      hplace =>
      rw [StoreCommand.delivers, hbody] at hdelivers
      cases hdelivers
      have hattempt : command.attemptId = attemptId := by rw [StoreCommand.attemptId, hbody]
      exact ⟨hkey, henvelope ▸ hplace, prior.attempts, hattempt ▸ hslot, hattempts.ge,
        hcanonical.operationId⟩

/-- Commands in the other slot leave an entry alone. -/
theorem LatestEntry.kept {receipt' : CommitReceipt} {other : StoreCommand}
    (h : LatestEntry command receipt slot k prior) (hother : other.delivers ≠ some (slot, k))
    (henvelope : n.envelope = prior.envelope) (hdelivered : Delivered other receipt' prior n) :
    LatestEntry command receipt slot k n := by
  have hkey : n.key = prior.key := congrArg CompletionEnvelope.notificationId henvelope
  obtain ⟨attempt, hslot, hle, hid⟩ := h.entry
  refine ⟨hkey.trans h.key, henvelope ▸ h.place, attempt, ?_, ?_, hid⟩
  · cases hdelivered with
    | claim revision attemptId atTime hbody _ _ _ _ _ hsame =>
      cases slot with
      | claim => exact absurd (by rw [StoreCommand.delivers, hbody, h.key]) hother
      | receipt => rw [hsame, hslot]
    | answer revision attemptId result atTime held hbody _ _ _ _ _ _ _ _ hsame =>
      cases slot with
      | receipt => exact absurd (by rw [StoreCommand.delivers, hbody, h.key]) hother
      | claim => rw [hsame, hslot]
  · cases hdelivered with
    | claim | answer => omega

/-- The identities of the attempts at one notification are different. -/
def AttemptsDistinct (s : Store) : Prop :=
  ∀ n ∈ s.notifications.rows, ∀ i ≤ n.attempts + 1, ∀ j ≤ n.attempts + 1, ∀ slot slot',
    (deliveryAttemptIdentity n.key i).operationId slot =
      (deliveryAttemptIdentity n.key j).operationId slot' → i = j ∧ slot = slot'

/-- A command whose entry is the latest of its slot is answered from it. -/
theorem LatestEntry.answers {log : List StoreCommand} (h : LatestEntry command receipt slot k n)
    (hdeliveries : Deliveries s log) (hdistinct : AttemptsDistinct s)
    (hn : n ∈ s.notifications.rows) (hdelivers : command.delivers = some (slot, k)) :
    duplicate command (s.current options command) =
      .ok (some { receipt with duplicate := true }) := by
  obtain ⟨hduplicate, hcurrent⟩ := duplicate_of_delivers options s hdelivers
  obtain ⟨attempt, hslot, hle, hid⟩ := h.entry
  have hget : s.notifications.get k = some n := by
    rw [← h.key]
    exact Table.get_of_mem hn
  have hother : ∀ entry ∈ n.slot slot.other, entry.operationId ≠ command.operationId := by
    intro entry hentry heq
    obtain ⟨attempt', hle', hid'⟩ : ∃ attempt' ≤ n.attempts, entry.operationId =
        (deliveryAttemptIdentity n.key attempt').operationId slot.other := by
      cases slot with
      | claim => exact hdeliveries.latestReceipt n hn entry hentry
      | receipt => exact ⟨n.attempts, le_rfl, hdeliveries.latestClaim n hn entry hentry⟩
    rw [hid', hid, ← h.key] at heq
    have hsame := (hdistinct n hn attempt' (by omega) attempt (by omega) _ _ heq).2
    cases slot <;> cases hsame
  have hplace : ¬(n.envelope.notificationId ≠ k ∨ n.envelope.taskId ≠ command.taskId ∨
      some n.envelope.runId ≠ command.runId) := by
    rintro (hne | hne | hne)
    · exact hne h.key
    · exact hne h.place.1
    · exact hne h.place.2.symm
  have hconflict : ¬((n.slot slot.other).any
      (fun other => decide (other.operationId = command.operationId)) = true) := by
    intro hany
    obtain ⟨entry, hentry, heq⟩ := (Option.any_eq_true _ _).1 hany
    exact hother entry hentry (of_decide_eq_true heq)
  have hfilter : (n.slot slot).filter
      (fun retained => decide (retained.operationId = command.operationId)) =
        some (deliveryEntryOf command receipt command.attemptId attempt) := by
    rw [hslot]
    exact Option.filter_some_pos (decide_eq_true rfl)
  rw [hduplicate, duplicateDelivery, hcurrent, hget]
  unfold failWhen
  simp only [failIf_of_not _ hplace, failIf_of_not _ hconflict, ok_bind, hfilter]
  simp [deliveryEntryOf, failIf]

/-- A repeated delivery command names the latest entry of its slot. -/
theorem entry_of_duplicateDelivery {attemptId : JsString} {current : CommitCurrent}
    (h : duplicateDelivery command current slot k attemptId = .ok (some receipt)) :
    ∃ n ∈ current.notification, ∃ entry ∈ n.slot slot, entry.operationId = command.operationId := by
  unfold duplicateDelivery at h
  split at h
  · cases h
  · rename_i n hn
    rw [failIf_bind_eq_ok, failIf_bind_eq_ok] at h
    obtain ⟨-, -, h⟩ := h
    dsimp only at h
    split at h
    · rename_i entry hentry
      obtain ⟨hmem, heq⟩ := Option.filter_eq_some_iff.1 hentry
      exact ⟨n, hn, entry, hmem, of_decide_eq_true heq⟩
    · simp [failIf_bind_eq_ok] at h

/-- A command of an earlier attempt that is not the latest of its slot is
refused. -/
theorem superseded_refused {log : List StoreCommand} (hdeliveries : Deliveries s log)
    (hdistinct : AttemptsDistinct s) (hn : n ∈ s.notifications.rows)
    (hdelivers : command.delivers = some (slot, n.key)) {attempt : Nat}
    (hlt : attempt < n.attempts)
    (hid : command.operationId = (deliveryAttemptIdentity n.key attempt).operationId slot)
    (hlatest : slot = .receipt → ∀ entry ∈ n.slot .receipt,
      entry.operationId ≠ command.operationId) :
    ∃ failure, s.commit options command = .error failure := by
  cases hcommit : s.commit options command with
  | error failure => exact ⟨failure, rfl⟩
  | ok result =>
    exfalso
    obtain ⟨s', receipt⟩ := result
    obtain ⟨-, ⟨hduplicate, -⟩ | ⟨e, htransition, -⟩⟩ := commit_cases hcommit
    · obtain ⟨hplan, hcurrent⟩ := duplicate_of_delivers options s hdelivers
      rw [hplan] at hduplicate
      obtain ⟨m, hm, entry, hentry, heq⟩ := entry_of_duplicateDelivery hduplicate
      rw [hcurrent, Table.get_of_mem hn] at hm
      cases hm
      cases slot with
      | receipt => exact hlatest rfl entry hentry heq
      | claim =>
        rw [hdeliveries.latestClaim n hn entry hentry, hid] at heq
        have hsame := (hdistinct n hn _ (by omega) _ (by omega) _ _ heq).1
        omega
    · cases htransition.notifies with
      | quiet _ hbody | ended _ _ _ _ _ _ _ hbody => rw [hbody] at hdelivers; cases hdelivers
      | delivered prior m hprior _ _ _ hdelivered =>
        cases hdelivered with
        | claim _ _ _ hbody _ hcanonical =>
          rw [StoreCommand.delivers, hbody, Option.some.injEq, Prod.mk.injEq] at hdelivers
          obtain ⟨rfl, hkey⟩ := hdelivers
          obtain ⟨hmem, -⟩ := Table.get_eq_some.1 hprior
          obtain rfl := Table.eq_of_key_eq hmem hn hkey
          have heq := hcanonical.operationId.symm.trans hid
          have hsame := (hdistinct prior hmem _ le_rfl _ (by omega) _ _ heq).1
          omega
        | answer _ _ _ _ _ hbody _ _ _ _ hcanonical =>
          rw [StoreCommand.delivers, hbody, Option.some.injEq, Prod.mk.injEq] at hdelivers
          obtain ⟨rfl, hkey⟩ := hdelivers
          obtain ⟨hmem, -⟩ := Table.get_eq_some.1 hprior
          obtain rfl := Table.eq_of_key_eq hmem hn hkey
          have heq := hcanonical.operationId.symm.trans hid
          have hsame := (hdistinct prior hmem _ (by omega) _ (by omega) _ _ heq).1
          omega

/-- The runs of an earlier store are among those of a later one. -/
theorem Outlives.collisionFree {s' : Store} (h : Outlives s s') (hfree : CollisionFree s') :
    CollisionFree s := by
  intro a ha b hb heq
  obtain ⟨a', ha', hadva⟩ := h.runs a ha
  obtain ⟨b', hb', hadvb⟩ := h.runs b hb
  rw [← hadva.runId, ← hadvb.runId] at heq ⊢
  exact hfree a' ha' b' hb' heq

/-- **Delivery of completions.**  In every run of the store whose digests do
not collide: the attempts at a notification are the claims committed for it and
at most one acceptance is committed; a call moves a notification only as
`Delivered` says, and one that is neither pending nor claimed is final; the
latest claim and the latest receipt are answered again with their receipts, and
commands of superseded attempts are refused. -/
theorem delivery_safety (options : StoreOptions) (calls : List StoreCall) {s : Store}
    (hs : s = Store.empty.run options calls) (hfree : CollisionFree s)
    (hdistinct : AttemptsDistinct s) :
    (∀ n ∈ s.notifications.rows,
      n.attempts = (Store.empty.log options calls).countP (StoreCommand.claims n.key)) ∧
    (∀ k, (Store.empty.log options calls).countP (StoreCommand.accepts k) ≤ 1) ∧
    (∀ call, CollisionFree (s.step options call) → ∀ n ∈ s.notifications.rows,
      n ∈ (s.step options call).notifications.rows ∨
        ∃ n' ∈ (s.step options call).notifications.rows, n'.envelope = n.envelope ∧
          ∃ command receipt, call = .commit command ∧ Delivered command receipt n n') ∧
    (∀ more, CollisionFree (s.run options more) → ∀ n ∈ s.notifications.rows,
      n.state ≠ .pending → n.state ≠ .claimed → n ∈ (s.run options more).notifications.rows) ∧
    (∀ command s₁ receipt slot k, s.commit options command = .ok (s₁, receipt) →
      receipt.duplicate = false → command.delivers = some (slot, k) →
      ∀ more, CollisionFree (s₁.run options more) → AttemptsDistinct (s₁.run options more) →
        (∀ other ∈ s₁.log options more, other.delivers ≠ some (slot, k)) →
        Submitted (s₁.run options more) command →
        (s₁.run options more).commit options command =
          .ok (s₁.run options more, { receipt with duplicate := true })) ∧
    ∀ command slot, ∀ n ∈ s.notifications.rows, command.delivers = some (slot, n.key) →
      ∀ attempt < n.attempts,
        command.operationId = (deliveryAttemptIdentity n.key attempt).operationId slot →
        (slot = .receipt → ∀ entry ∈ n.slot .receipt, entry.operationId ≠ command.operationId) →
        ∃ failure, s.commit options command = .error failure := by
  subst hs
  have hnotified := Notified.reachable options calls hfree
  have hdeliveries := Deliveries.reachable options calls hfree
  refine ⟨hdeliveries.attempts, fun k => ?_, fun call hafter n hn => ?_,
    fun more hafter n hn hpending hclaimed => hnotified.final hn hpending hclaimed more hafter,
    ?_, fun command slot n hn hdelivers attempt hlt hid hlatest =>
      superseded_refused hdeliveries hdistinct hn hdelivers hlt hid hlatest⟩
  · cases hget : (Store.empty.run options calls).notifications.get k with
    | none =>
      have hzero : (Store.empty.log options calls).countP (StoreCommand.accepts k) = 0 :=
        List.countP_eq_zero.2 fun command hcommand htrue =>
          hdeliveries.absent k hget command hcommand .receipt
            (StoreCommand.accepts_delivers htrue)
      omega
    | some n =>
      obtain ⟨hn, rfl⟩ := Table.get_eq_some.1 hget
      rw [hdeliveries.accepted n hn]
      split <;> omega
  · obtain ⟨owner, epoch, hstep⟩ | ⟨command, e, hcall, hcommitted, hstep⟩ :=
      Store.step_cases options (Store.empty.run options calls) call
    · rw [hstep]
      exact Or.inl hn
    · rw [hstep]
      rcases hnotified.one hfree hcommitted.transition.notifies hn with
        hkept | ⟨n', hn', henvelope, hdelivered⟩
      · exact Or.inl hkept
      · exact Or.inr ⟨n', hn', henvelope, command, e.receipt, hcall, hdelivered⟩
  · intro command s₁ receipt slot k hcommit hfresh hdelivers more hafter hdistinct' hlog hsubmitted
    have hstep : (Store.empty.run options calls).step options (.commit command) = s₁ := by
      rw [Store.step, hcommit]
    have hrun : s₁.run options more =
        Store.empty.run options (calls ++ .commit command :: more) := by
      rw [← hstep]
      exact (Machine.run_append (Store.step options) .empty calls (.commit command :: more)).symm
    have hrun₁ : s₁ = Store.empty.run options (calls ++ [.commit command]) := by
      rw [← hstep]
      exact (Machine.run_append (Store.step options) .empty calls [.commit command]).symm
    have hderived : Derived s₁ := hrun₁ ▸ Derived.reachable options _
    have hafter₁ : CollisionFree s₁ := (hderived.outlives options more).collisionFree hafter
    obtain ⟨-, ⟨hduplicate, -⟩ | ⟨e, htransition, happly, hreceipt, -⟩⟩ := commit_cases hcommit
    · rw [duplicate_marked hduplicate] at hfresh
      cases hfresh
    · have hentry : ∃ n ∈ s₁.notifications.rows, LatestEntry command receipt slot k n := by
        rw [happly, hreceipt]
        cases htransition.notifies with
        | quiet _ hbody => rw [hbody] at hdelivers; cases hdelivers
        | ended _ _ _ _ _ _ _ hbody => rw [hbody] at hdelivers; cases hdelivers
        | delivered prior n _ hnotification henvelope _ hdelivered =>
          exact ⟨n, Table.mem_putOption.2 (Or.inl hnotification),
            hdelivered.latestEntry henvelope hdelivers⟩
      have hnotified₁ : Notified s₁ := hrun₁ ▸ Notified.reachable options _ (hrun₁ ▸ hafter₁)
      obtain ⟨n, hn, hlatest⟩ := hnotified₁.kept (Q := LatestEntry command receipt slot k)
        (C := fun other => other.delivers ≠ some (slot, k))
        (fun other receipt' n n' hother hlatest henvelope hdelivered =>
          hlatest.kept hother henvelope hdelivered) hentry more hafter hlog
      have hdeliveries' := Deliveries.reachable options (calls ++ .commit command :: more)
        (hrun ▸ hafter)
      rw [← hrun] at hdeliveries'
      have hledger : Ledger options (s₁.run options more) := hrun ▸ Ledger.reachable options _
      have hstore : command.owner.storeId = options.storeId :=
        Store.owner_storeId options _ command.owner (hrun ▸ hsubmitted.owner)
      exact hledger.commit_repeated hsubmitted hstore
        (hlatest.answers hdeliveries' hdistinct' hn hdelivers)

end Delivery

/-! ## A notification that expires before its first attempt -/

section Sample

/-- The hash of the runtime. -/
local instance : Platform := hashPlatform

/-- The first attempt at the notification of the cancelled run, two days
later. -/
def sampleClaim : StoreCommand :=
  let notificationId := notificationIdOf sampleAdmission.runId
  let identity := deliveryAttemptIdentity notificationId 1
  sampleCommand identity.claimOperationId (some (2, 2))
    (.deliveryClaim notificationId 1 identity.attemptId (js "2025-01-03T00:00:00.000Z"))

theorem sampleNotification_identities :
    ∀ i ∈ [0, 1], ∀ j ∈ [0, 1], ∀ slot ∈ [DeliverySlot.claim, .receipt],
      ∀ slot' ∈ [DeliverySlot.claim, .receipt],
        (deliveryAttemptIdentity sampleNotification.key i).operationId slot =
          (deliveryAttemptIdentity sampleNotification.key j).operationId slot' →
            i = j ∧ slot = slot' := by
  decide +kernel

theorem sampleClaim_late :
    (cancelledStore.step sampleOptions (.commit sampleClaim)).notifications.rows.any (fun n =>
      decide (n.key = sampleNotification.key ∧ n.state = .expired)) = true := by
  decide +kernel

theorem sampleCalls_notifications :
    (∀ n ∈ (Store.empty.run sampleOptions sampleCalls).notifications.rows, n.attempts = 0 ∧
      ∀ i ∈ [0, 1], ∀ j ∈ [0, 1], ∀ slot ∈ [DeliverySlot.claim, .receipt],
        ∀ slot' ∈ [DeliverySlot.claim, .receipt],
          (deliveryAttemptIdentity n.key i).operationId slot =
            (deliveryAttemptIdentity n.key j).operationId slot' → i = j ∧ slot = slot') ∧
      (∃ n ∈ (Store.empty.run sampleOptions sampleCalls).notifications.rows, n.state = .pending ∧
        ∃ n' ∈ ((Store.empty.run sampleOptions sampleCalls).step sampleOptions
          (.commit sampleClaim)).notifications.rows, n'.key = n.key ∧ n'.state = .expired) := by
  rw [run_sampleCalls]
  constructor
  · intro n hn
    cases List.mem_singleton.1 hn
    exact ⟨rfl, sampleNotification_identities⟩
  · obtain ⟨n', hn', hlate⟩ := List.any_eq_true.1 sampleClaim_late
    exact ⟨sampleNotification, List.mem_singleton_self _, rfl, n', hn', of_decide_eq_true hlate⟩

theorem sampleCalls_attemptsDistinct :
    AttemptsDistinct (Store.empty.run sampleOptions sampleCalls) := by
  intro n hn i hi j hj slot slot' heq
  obtain ⟨hzero, hdistinct⟩ := sampleCalls_notifications.1 n hn
  have hmem : ∀ k ≤ n.attempts + 1, k ∈ [0, 1] := by
    intro k hk
    rw [hzero] at hk
    simp only [List.mem_cons, List.not_mem_nil, or_false]
    omega
  have hslot : ∀ slot, slot ∈ [DeliverySlot.claim, .receipt] := by
    intro slot
    cases slot <;> simp
  exact hdistinct i (hmem i hi) j (hmem j hj) slot (hslot slot) slot' (hslot slot') heq

/-- The notification of the cancelled run waits for its first attempt. -/
theorem delivery_safety_of_cancelled_run :
    ∃ n ∈ (Store.empty.run sampleOptions sampleCalls).notifications.rows, n.state = .pending ∧
      n.attempts =
        (Store.empty.log sampleOptions sampleCalls).countP (StoreCommand.claims n.key) := by
  obtain ⟨n, hn, hpending, -⟩ := sampleCalls_notifications.2
  exact ⟨n, hn, hpending, (delivery_safety sampleOptions sampleCalls rfl
    sampleCalls_collisionFree sampleCalls_attemptsDistinct).1 n hn⟩

/-- A claim that comes too late ends a pending notification without an
attempt in between. -/
theorem expired_without_claim : ∃ n n' : NotificationRecord,
    n ∈ (Store.empty.run sampleOptions sampleCalls).notifications.rows ∧ n.state = .pending ∧
      n' ∈ ((Store.empty.run sampleOptions sampleCalls).step sampleOptions
        (.commit sampleClaim)).notifications.rows ∧ n'.key = n.key ∧ n'.state = .expired := by
  obtain ⟨n, hn, hpending, n', hn', hkey, hexpired⟩ := sampleCalls_notifications.2
  exact ⟨n, n', hn, hpending, hn', hkey, hexpired⟩

end Sample

end AgentSdk.Delegation
