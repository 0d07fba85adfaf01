import AgentSdk.Delegation.Memory

/-!
# What a successful helper did

One lemma for each helper of the handlers: when it succeeds, and with which
working copy.  The transition relation is assembled from these; nothing below
them unfolds a helper again.
-/

namespace AgentSdk.Delegation

open AgentSdk.Text AgentSdk.Calendar AgentSdk.Outcome

/-! ## Canonical identities -/

theorem OwnerToken.eq_of_same {a b : OwnerToken} (h : same a b = true) : a = b := by
  have hjson := same_iff.1 h
  have hsorted : ∀ o : OwnerToken, Json.canonicalize (Data.json o) =
      .obj [(js "epoch", .num o.epoch), (js "nonce", .str o.nonce),
        (js "storeId", .str o.storeId)] := fun _ => rfl
  rw [hsorted, hsorted] at hjson
  obtain ⟨s, e, n⟩ := a
  obtain ⟨s', e', n'⟩ := b
  simp only [Json.obj.injEq, List.cons.injEq, Prod.mk.injEq, Json.num.injEq, Json.str.injEq,
    true_and, and_true, Nat.cast_inj] at hjson
  obtain ⟨rfl, rfl, rfl⟩ := hjson
  rfl

theorem ParentScope.eq_of_same {a b : ParentScope} (h : same a b = true) : a = b := by
  have hjson := same_iff.1 h
  have hsorted : ∀ p : ParentScope, Json.canonicalize (Data.json p) =
      .obj [(js "parentId", .str p.parentId), (js "revision", .num p.revision),
        (js "scopeId", .str p.scopeId)] := fun _ => rfl
  rw [hsorted, hsorted] at hjson
  obtain ⟨p, c, r⟩ := a
  obtain ⟨p', c', r'⟩ := b
  simp only [Json.obj.injEq, List.cons.injEq, Prod.mk.injEq, Json.num.injEq, Json.str.injEq,
    true_and, and_true, Nat.cast_inj] at hjson
  obtain ⟨rfl, rfl, rfl⟩ := hjson
  rfl

theorem TargetReference.eq_of_same {a b : TargetReference} (h : same a b = true) : a = b := by
  have hjson := same_iff.1 h
  have hsorted : ∀ t : TargetReference, Json.canonicalize (Data.json t) =
      .obj [(js "catalogId", .str t.catalogId), (js "catalogRevision", .num t.catalogRevision),
        (js "sourceId", .str t.sourceId), (js "sourceRevision", .num t.sourceRevision),
        (js "targetId", .str t.targetId), (js "targetRevision", .num t.targetRevision)] :=
    fun _ => rfl
  rw [hsorted, hsorted] at hjson
  obtain ⟨_, _, _, _, _, _⟩ := a
  obtain ⟨_, _, _, _, _, _⟩ := b
  simp only [Json.obj.injEq, List.cons.injEq, Prod.mk.injEq, Json.num.injEq, Json.str.injEq,
    true_and, and_true, Nat.cast_inj] at hjson
  obtain ⟨rfl, rfl, rfl, rfl, rfl, rfl⟩ := hjson
  rfl

/-- Observations are retained under their run and index. -/
theorem observationKey_inj {r r' : JsString} {i j : Nat}
    (h : observationKey r i = observationKey r' j) : r = r' ∧ i = j := by
  have hrev := congrArg List.reverse h
  simp only [observationKey, List.reverse_append, List.reverse_cons, List.append_assoc,
    List.cons_append, List.nil_append] at hrev
  have hdigits : ∀ n : Nat, ∀ u ∈ (natDecimal n).reverse, isDigit u = true := fun n u hu =>
    isDigit_of_mem_natDecimal (List.mem_reverse.1 hu)
  have hcolon : ∀ s : JsString, ∀ u ∈ (58 :: s).head?, isDigit u = false := by
    intro s u hu
    simp only [List.head?_cons, Option.mem_def, Option.some.injEq] at hu
    rw [← hu]
    decide
  obtain ⟨hindex, hrun⟩ := digits_append_inj (hdigits i) (hdigits j) (hcolon _) (hcolon _) hrev
  simp only [List.cons.injEq, true_and] at hrun
  exact ⟨List.reverse_injective hrun, natDecimal_inj (List.reverse_injective hindex)⟩

/-! ## The run of a working copy -/

theorem requireRun_of {context : CommitContext} (run : RunRecord)
    (h : context.run = some run) : requireRun context = .ok run := by
  simp [requireRun, h]

theorem setRun_of {context : CommitContext} (run : RunRecord) (change : RunRecord → RunRecord)
    (h : context.run = some run) :
    setRun context change = .ok { context with
      capacity := context.capacity.moveRun run.phase (change run).phase,
      run := some (change run) } := by
  simp [setRun, requireRun_of _ h]

@[simp] theorem Capacity.moveRun_self (capacity : Capacity) (phase : RunPhase) :
    capacity.moveRun phase phase = capacity := by
  cases phase <;> simp [Capacity.moveRun]

/-- A phase move touches the two phase counters only. -/
theorem Capacity.moveRun_rest (c : Capacity) (p q : RunPhase) :
    (c.moveRun p q).tasks = c.tasks ∧ (c.moveRun p q).runs = c.runs ∧
      (c.moveRun p q).retainedInputBytes = c.retainedInputBytes ∧
      (c.moveRun p q).observationBytes = c.observationBytes ∧
      (c.moveRun p q).ordinaryOperations = c.ordinaryOperations ∧
      (c.moveRun p q).reservedBytes = c.reservedBytes ∧
      (c.moveRun p q).criticalSlots = c.criticalSlots := by
  unfold Capacity.moveRun
  dsimp only
  split <;> split <;> exact ⟨rfl, rfl, rfl, rfl, rfl, rfl, rfl⟩

theorem delegationDataBytes_eq_ok {v : Json} {n : Nat} :
    delegationDataBytes v = .ok n ↔
      copyBoundedDelegationData v = .ok () ∧ n = Json.canonicalBytes v := by
  simp only [delegationDataBytes, bind_eq_ok, pure_eq_ok, Except.ok.injEq]
  grind

/-! ## Recording an operation -/

/-- The run after an operation was recorded: ordinary operations are counted. -/
def RunRecord.countOperation (run : RunRecord) (kind : OperationKind) : RunRecord :=
  if kind.critical then run
  else { run with ordinaryOperationCount := run.ordinaryOperationCount + 1 }

/-- The counters after an operation was recorded. -/
def Capacity.countOperation (capacity : Capacity) (kind : OperationKind) : Capacity :=
  if kind.critical then capacity
  else { capacity with ordinaryOperations := capacity.ordinaryOperations + 1 }

/-- An ordinary operation still fits the ledgers of its run and of the store. -/
def ledgerOpen (context : CommitContext) (run : RunRecord) (kind : OperationKind) : Prop :=
  kind.critical = false →
    run.ordinaryOperationCount < context.current.limits.maxOrdinaryOperationsPerRun ∧
      context.capacity.ordinaryOperations < context.current.limits.maxOrdinaryOperations

/-- A value can be captured and takes at most `limit` bytes. -/
def fits (v : Json) (limit : Nat) : Prop :=
  copyBoundedDelegationData v = .ok () ∧ Json.canonicalBytes v ≤ limit

theorem addOperation_eq_ok {context context' : CommitContext} (run : RunRecord)
    {kind : OperationKind} {atTime : JsString} {attempt : Nat} {request : Option RequestIdentity}
    (hrun : context.run = some run) :
    addOperation context kind atTime attempt request = .ok context' ↔
      ledgerOpen context run kind ∧
      fits (Data.json (operationRow context.command context.task context.receipt run.runId kind
        atTime attempt request)) DELEGATION_CRITICAL_SLOT_BYTES ∧
      context' = { context with
        run := some (run.countOperation kind),
        capacity := context.capacity.countOperation kind,
        mutations := context.mutations ++
          [.operation (operationRow context.command context.task context.receipt run.runId kind
            atTime attempt request)] } := by
  cases hkind : kind.critical with
  | true =>
    simp only [addOperation, requireRun_of _ hrun, ok_bind, hkind, if_true, pure_eq_ok,
      bind_eq_ok, delegationDataBytes_eq_ok, failIf_eq_ok, Except.ok.injEq, ledgerOpen, fits,
      RunRecord.countOperation, Capacity.countOperation, exists_const]
    constructor
    · rintro ⟨n, ⟨hcopy, rfl⟩, hle, rfl⟩
      exact ⟨by simp, ⟨hcopy, by omega⟩, by rw [hrun]⟩
    · rintro ⟨_, ⟨hcopy, hle⟩, rfl⟩
      exact ⟨_, ⟨hcopy, rfl⟩, by omega, by rw [hrun]⟩
  | false =>
    have hset := setRun_of _ (fun r =>
      { r with ordinaryOperationCount := run.ordinaryOperationCount + 1 }) hrun
    simp only [addOperation, requireRun_of _ hrun, ok_bind, hkind, Bool.false_eq_true, if_false,
      hset, pure_eq_ok, bind_eq_ok, failIf_eq_ok, delegationDataBytes_eq_ok, Except.ok.injEq,
      ledgerOpen, fits, RunRecord.countOperation, Capacity.countOperation, exists_const,
      Capacity.moveRun_self]
    constructor
    · rintro ⟨hopen, n, ⟨hcopy, rfl⟩, hle, rfl⟩
      exact ⟨fun _ => by omega, ⟨hcopy, by omega⟩, rfl⟩
    · rintro ⟨hopen, ⟨hcopy, hle⟩, rfl⟩
      have hledger := hopen trivial
      exact ⟨by omega, _, ⟨hcopy, rfl⟩, by omega, rfl⟩

/-! ## Settling a run -/

theorem settleRun_eq_ok [Platform] {context context' : CommitContext} (run : RunRecord)
    {requested : RunOutcome} {atTime : JsString} (hrun : context.run = some run) :
    settleRun context requested atTime = .ok context' ↔
      run.outcome = none ∧ ∃ expiresAt,
        expiryText atTime context.current.limits.notificationTtlMs = .ok expiresAt ∧
        copyBoundedDelegationData (Data.json (completionEnvelope context.current.options
          context.task run (finalOutcome run requested) atTime expiresAt)) = .ok () ∧
        (completionEnvelope context.current.options context.task run (finalOutcome run requested)
          atTime expiresAt).schema = true ∧
        fits (finalSlot (finalOutcome run requested) (completionNotification
          (completionEnvelope context.current.options context.task run
            (finalOutcome run requested) atTime expiresAt))) DELEGATION_FINAL_RESERVATION_BYTES ∧
        context' = { context with
          run := some (run.finish context.command context.task (finalOutcome run requested) atTime),
          capacity := context.capacity.moveRun run.phase .settled,
          receipt := { context.receipt with
            status := .settled, notificationId := some (notificationIdOf run.runId) },
          mutations := context.mutations ++ [.notification (completionNotification
            (completionEnvelope context.current.options context.task run
              (finalOutcome run requested) atTime expiresAt))] } := by
  simp only [settleRun, requireRun_of _ hrun, ok_bind, setRun_of _ _ hrun, bind_eq_ok, parse_eq_ok,
    delegationDataBytes_eq_ok, failIf_eq_ok, pure_eq_ok, Except.ok.injEq, fits, exists_const,
    Bool.not_eq_true, Option.isSome_eq_false_iff, Option.isNone_iff_eq_none]
  constructor
  · rintro ⟨hnone, expiresAt, hexpiry, envelope, ⟨hcopy, hschema, henv⟩, n, ⟨hfit, hn⟩, hle, rfl⟩
    subst henv hn
    exact ⟨hnone, expiresAt, hexpiry, hcopy, hschema, ⟨hfit, by omega⟩, rfl⟩
  · rintro ⟨hnone, expiresAt, hexpiry, hcopy, hschema, ⟨hfit, hle⟩, rfl⟩
    exact ⟨hnone, expiresAt, hexpiry, _, ⟨hcopy, hschema, rfl⟩, _, ⟨hfit, rfl⟩, by omega, rfl⟩

end AgentSdk.Delegation
