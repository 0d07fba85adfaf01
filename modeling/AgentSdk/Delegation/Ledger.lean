import AgentSdk.Delegation.Reachable

/-!
# The capacity ledger

The counters of the store are changed one by one by the handlers.  They are
always the counters recomputed from the rows, they stay within the limits, and
so the two guards that stop a store whose counters or rows contradict each
other never fire.

## Main results

* `Ledger.reachable` — the ledger invariant of every reachable store.
* `capacity_ledger_exact` — what it says about every run of the store.
-/

namespace AgentSdk.Delegation

open AgentSdk.Text AgentSdk.Outcome

variable [Platform] {options : StoreOptions} {s : Store} {command : StoreCommand}
  {task : TaskRecord} {run run' : RunRecord} {e : Effect}

/-! ## Recounting -/

/-- A run in this phase occupies an executor slot. -/
def RunPhase.active : RunPhase → Bool
  | .preparing | .running | .waiting => true
  | .queued | .settled => false

/-- The bytes an observation retains; omission markers are not counted. -/
def TaskObservation.retainedBytes (o : TaskObservation) : Nat :=
  if o.kind = .omitted then 0 else dataBytes o

/-- The counters recomputed from the rows. -/
def Store.recount (s : Store) : Capacity :=
  { tasks := s.tasks.rows.length, runs := s.runs.rows.length,
    activeRuns := s.runs.count fun run => run.phase.active,
    queuedRuns := s.runs.count fun run => decide (run.phase = .queued),
    retainedInputBytes := s.runs.total (fun run => dataBytes run.input) +
      s.ceilings.total dataBytes,
    observationBytes := s.observations.total TaskObservation.retainedBytes,
    ordinaryOperations := s.operations.count fun o => !o.kind.critical,
    reservedBytes := s.runs.rows.length * DELEGATION_RUN_RESERVATION_BYTES,
    criticalSlots := s.runs.rows.length * DELEGATION_CRITICAL_SLOTS }

/-! ## What a change does to the counters -/

omit [Platform] in
/-- A forward move of one phase moves the two phase counters by one row. -/
theorem Capacity.moveRun_counts (c : Capacity) {p q : RunPhase} (h : p.rank ≤ q.rank) :
    ((c.moveRun p q).queuedRuns + if p = .queued then 1 else 0) =
        (c.queuedRuns + if q = .queued then 1 else 0) ∧
      ((c.moveRun p q).activeRuns + if p.active then 1 else 0) =
        (c.activeRuns + if q.active then 1 else 0) := by
  cases p <;> cases q <;>
    simp [RunPhase.rank, Capacity.moveRun, RunPhase.active] at h ⊢

omit [Platform] in
theorem Capacity.countOperation_rest (c : Capacity) (kind : OperationKind) :
    (c.countOperation kind).tasks = c.tasks ∧ (c.countOperation kind).runs = c.runs ∧
      (c.countOperation kind).activeRuns = c.activeRuns ∧
      (c.countOperation kind).queuedRuns = c.queuedRuns ∧
      (c.countOperation kind).retainedInputBytes = c.retainedInputBytes ∧
      (c.countOperation kind).observationBytes = c.observationBytes ∧
      (c.countOperation kind).reservedBytes = c.reservedBytes ∧
      (c.countOperation kind).criticalSlots = c.criticalSlots ∧
      (c.countOperation kind).ordinaryOperations =
        c.ordinaryOperations + if kind.critical then 0 else 1 := by
  unfold Capacity.countOperation
  split <;> simp

/-- The counters a change moves with the phase of its run, and those it leaves
alone. -/
structure Moved (s : Store) (run : RunRecord) (e : Effect) : Prop where
  queued : ∀ r ∈ e.run, e.capacity.queuedRuns =
    (s.capacity.moveRun run.phase r.phase).queuedRuns
  active : ∀ r ∈ e.run, e.capacity.activeRuns =
    (s.capacity.moveRun run.phase r.phase).activeRuns
  tasks : e.capacity.tasks = s.capacity.tasks
  runs : e.capacity.runs = s.capacity.runs
  retained : e.capacity.retainedInputBytes = s.capacity.retainedInputBytes
  reserved : e.capacity.reservedBytes = s.capacity.reservedBytes
  slots : e.capacity.criticalSlots = s.capacity.criticalSlots

omit [Platform] in
theorem Moved.of_move {phase : RunPhase} (hcapacity : e.capacity = s.capacity.moveRun run.phase phase)
    (hphase : ∀ r ∈ e.run, r.phase = phase) : Moved s run e := by
  obtain ⟨htasks, hruns, hretained, -, -, hreserved, hslots⟩ :=
    s.capacity.moveRun_rest run.phase phase
  rw [← hcapacity] at htasks hruns hretained hreserved hslots
  exact ⟨fun r hr => by rw [hcapacity, hphase r hr], fun r hr => by rw [hcapacity, hphase r hr],
    htasks, hruns, hretained, hreserved, hslots⟩

theorem Change.moved (h : Change options s command task run e) : Moved s run e := by
  cases h with
  | intent kind atTime target attempt run' receipt =>
    obtain ⟨htasks, hruns, hretained, -, -, hreserved, hslots⟩ :=
      s.capacity.moveRun_rest run.phase run'.phase
    obtain ⟨htasks', hruns', hactive', hqueued', hretained', -, hreserved', hslots', -⟩ :=
      (s.capacity.moveRun run.phase run'.phase).countOperation_rest kind
    refine ⟨?_, ?_, htasks'.trans htasks, hruns'.trans hruns, hretained'.trans hretained,
      hreserved'.trans hreserved, hslots'.trans hslots⟩
    · rintro r ⟨⟩
      rw [RunRecord.countOperation_phase]
      exact hqueued'
    · rintro r ⟨⟩
      rw [RunRecord.countOperation_phase]
      exact hactive'
  | receipt =>
    refine .of_move rfl ?_
    rintro r ⟨⟩
    exact settleIntent_phase _ _ _
  | request | cancelQueued | settle =>
    refine .of_move rfl ?_
    rintro r ⟨⟩
    rfl
  | resolution request pending atTime receipt _ _ _ hphase =>
    refine ⟨?_, ?_, rfl, rfl, rfl, rfl, rfl⟩ <;>
      · rintro r ⟨⟩
        rw [hphase]
        simp [Capacity.moveRun, Capacity.countOperation, OperationKind.critical]
  | _ =>
    have hself := Capacity.moveRun_self s.capacity run.phase
    refine ⟨?_, ?_, rfl, rfl, rfl, rfl, rfl⟩
    · rintro r ⟨⟩
      exact (congrArg Capacity.queuedRuns hself).symm
    · rintro r ⟨⟩
      exact (congrArg Capacity.activeRuns hself).symm

/-- A change counts one ordinary operation, and only when it records one. -/
inductive OrdinaryCount (options : StoreOptions) (s : Store) (e : Effect) : Prop
  | same (hkinds : ∀ o ∈ e.operation, s.operations.get o.key = none → o.kind.critical = true)
      (hcapacity : e.capacity.ordinaryOperations = s.capacity.ordinaryOperations)
  | one (o : OperationRecord) (hoperation : e.operation = some o)
      (hkind : o.kind.critical = false) (hfree : s.operations.get o.key = none)
      (hcapacity : e.capacity.ordinaryOperations = s.capacity.ordinaryOperations + 1)
      (hroom : s.capacity.ordinaryOperations < options.limits.maxOrdinaryOperations)

theorem Change.ordinary (h : Change options s command task run e) : OrdinaryCount options s e := by
  cases h with
  | retryCleanup kind atTime target prior _ _ _ hprior =>
    refine .same ?_ rfl
    rintro o ⟨⟩ hfree
    exact absurd rfl (Table.get_eq_none.1 hfree prior hprior)
  | intent kind atTime target attempt run' receipt _ _ _ _ _ _ hledger hfree =>
    have hmoved := (s.capacity.moveRun_rest run.phase run'.phase).2.2.2.2.1
    have hcounted := ((s.capacity.moveRun run.phase run'.phase).countOperation_rest
      kind).2.2.2.2.2.2.2.2
    rw [hmoved] at hcounted
    cases hkind : kind.critical with
    | true =>
      refine .same ?_ ?_
      · rintro o ⟨⟩ -
        exact hkind
      · rw [hkind, if_pos rfl, add_zero] at hcounted
        exact hcounted
    | false =>
      rw [hkind, if_neg Bool.false_ne_true] at hcounted
      exact .one _ rfl hkind hfree hcounted (hledger hkind).2
  | receipt disposition atTime message eligibility prior run' status receipt _ hprior =>
    refine .same ?_ (s.capacity.moveRun_rest run.phase run'.phase).2.2.2.2.1
    rintro o ⟨⟩ hfree
    exact absurd rfl (Table.get_eq_none.1 hfree prior (Table.mem_of_get hprior))
  | request state request atTime run' =>
    refine .same ?_ (s.capacity.moveRun_rest run.phase run'.phase).2.2.2.2.1
    rintro o ⟨⟩
  | resolution request pending atTime receipt _ _ _ _ _ _ _ _ hledger hfree =>
    exact .one _ rfl rfl hfree rfl (hledger rfl).2
  | cancelSettled | cancelPending =>
    refine .same ?_ rfl
    rintro o ⟨⟩ -
    rfl
  | cancelQueued =>
    refine .same ?_ (s.capacity.moveRun_rest run.phase .settled).2.2.2.2.1
    rintro o ⟨⟩ -
    rfl
  | settle =>
    refine .same ?_ (s.capacity.moveRun_rest run.phase .settled).2.2.2.2.1
    rintro o ⟨⟩
  | _ =>
    refine .same ?_ rfl
    rintro o ⟨⟩

/-- A change counts the bytes of one observation, and only when it retains
one that is no omission marker. -/
inductive ObservationCount (options : StoreOptions) (s : Store) (e : Effect) : Prop
  | same (hkinds : ∀ o ∈ e.observation, o.kind = .omitted ∧
        ∀ old, s.observations.get o.key = some old → old.kind = .omitted)
      (hcapacity : e.capacity.observationBytes = s.capacity.observationBytes)
  | one (o : TaskObservation) (hobservation : e.observation = some o) (hkind : o.kind ≠ .omitted)
      (hfree : s.observations.get o.key = none)
      (hcapacity : e.capacity.observationBytes = s.capacity.observationBytes + dataBytes o)
      (hroom : s.capacity.observationBytes + dataBytes o ≤
        options.limits.maxRetainedObservationBytes)

theorem Change.retained (h : Change options s command task run e) (hlinked : Linked s)
    (hrun : run ∈ s.runs.rows) : ObservationCount options s e := by
  -- An index beyond the last one of the run is free.
  have hfresh : ∀ {o : TaskObservation}, o.runId = run.runId →
      o.index = run.observationIndex + 1 → s.observations.get o.key = none := by
    intro o hid hindex
    refine Table.get_eq_none.2 fun old hold hkey => ?_
    obtain ⟨hrunId, hsame⟩ := observationKey_inj hkey
    obtain ⟨owner, howner, hownerId, hle⟩ := hlinked.observed old hold
    rw [Store.run_eq howner hrun (hownerId.trans (hrunId.trans hid))] at hle
    omega
  cases h with
  | observe observation _ _ _ _ _ _ hid hindex hkind hfits =>
    exact .one _ rfl hkind (hfresh hid hindex) rfl hfits.2.2.2
  | overflow observation marker _ _ _ _ _ _ _ hindex _ hmarker =>
    refine .same ?_ rfl
    rintro o ⟨⟩
    rcases hmarker with ⟨old, hold, _, hkind, rfl⟩ | ⟨_, rfl⟩
    · refine ⟨hkind, fun other hother => ?_⟩
      have hsame : some old = some other := (Table.get_of_mem hold).symm.trans hother
      rw [Option.some.injEq] at hsame
      exact hsame ▸ hkind
    · refine ⟨rfl, fun other hother => ?_⟩
      have hnone : some other = none := hother.symm.trans (hfresh rfl hindex)
      cases hnone
  | intent kind atTime target attempt run' =>
    have hmoved := (s.capacity.moveRun_rest run.phase run'.phase).2.2.2.1
    have hcounted := ((s.capacity.moveRun run.phase run'.phase).countOperation_rest
      kind).2.2.2.2.2.1
    refine .same ?_ (hcounted.trans hmoved)
    rintro o ⟨⟩
  | receipt disposition atTime message eligibility prior run' | request state request atTime run' =>
    refine .same ?_ (s.capacity.moveRun_rest run.phase run'.phase).2.2.2.1
    rintro o ⟨⟩
  | resolution =>
    refine .same ?_ rfl
    rintro o ⟨⟩
  | cancelQueued | settle =>
    refine .same ?_ (s.capacity.moveRun_rest run.phase .settled).2.2.2.1
    rintro o ⟨⟩
  | _ =>
    refine .same ?_ rfl
    rintro o ⟨⟩

/-- A run enters an executor slot only by its preparation, when one is free and
the other runs of its task are idle. -/
theorem Change.activates (h : Change options s command task run e) (hsound : run.Sound)
    (hqueued : run.phase = .queued) {r : RunRecord} (hr : r ∈ e.run)
    (hactive : r.phase.active = true) :
    s.capacity.activeRuns < options.limits.maxActiveRuns ∧
      ∀ other ∈ s.runs.rows, other.taskId = command.taskId → other.runId ≠ run.runId →
        other.phase.active = false := by
  have hstays : run.phase.active ≠ true := by rw [hqueued]; decide
  have hpending : ∀ {request : HistoricalRequest}, run.pendingRequest ≠ some request := by
    intro request hsome
    rw [hsound.no_pending (by rw [hqueued]; decide)] at hsome
    cases hsome
  cases h with
  | intent kind atTime target attempt run' receipt _ _ _ _ _ hentered =>
    cases hr
    rw [RunRecord.countOperation_phase] at hactive
    cases hentered with
    | prepare _ _ halone hroom =>
      refine ⟨hroom, fun other hother htaskId hne => ?_⟩
      rcases halone other hother htaskId hne with hidle | hidle <;> rw [hidle] <;> rfl
    | turn hphase =>
      rw [hqueued] at hphase
      cases hphase
    | _ => exact absurd hactive hstays
  | receipt disposition atTime message eligibility prior run' status receipt _ _ _ _ _ _ _ _ _ _ _
      hanswered =>
      cases hr
      rw [settleIntent_phase] at hactive
      cases hanswered with
      | pending identity request phase _ _ hrequest => exact absurd hrequest hpending
      | _ => exact absurd hactive hstays
  | request state request atTime run' _ hrequested =>
    cases hr
    cases hrequested with
    | opened hphase =>
      rw [hqueued] at hphase
      cases hphase
    | resolved pending hsome | unavailable pending hsome => exact absurd hsome hpending
  | resolution request pending atTime receipt _ hsome => exact absurd hsome hpending
  | observe observation _ hnot | overflow observation marker _ hnot => exact absurd hqueued hnot
  | cancelQueued | settle =>
    cases hr
    exact absurd hactive Bool.false_ne_true
  | _ =>
    cases hr
    exact absurd hactive hstays

/-! ## The ledger invariant -/

/-- The counters are those of the rows, they are within the limits, and a task
holds as many runs as it counts. -/
structure Ledger (options : StoreOptions) (s : Store) : Prop where
  linked : Linked s
  exact : s.capacity = s.recount
  tasks : s.capacity.tasks ≤ options.limits.maxTasks
  taskRuns : s.capacity.tasks ≤ s.capacity.runs
  runs : s.capacity.runs ≤ options.limits.maxRuns
  active : s.capacity.activeRuns ≤ options.limits.maxActiveRuns
  queued : s.capacity.queuedRuns ≤ options.limits.maxQueuedRuns
  retained : s.capacity.retainedInputBytes ≤ options.limits.maxRetainedInputBytes
  observed : s.capacity.observationBytes ≤ options.limits.maxRetainedObservationBytes
  ordinary : s.capacity.ordinaryOperations ≤ options.limits.maxOrdinaryOperations
  counted : ∀ taskId, s.runs.count (fun run => decide (run.taskId = taskId)) =
    ((s.tasks.get taskId).map TaskRecord.runCount).getD 0
  perTask : ∀ task ∈ s.tasks.rows, task.runCount ≤ options.limits.maxRunsPerTask

omit [Platform] in
theorem Ledger.empty : Ledger options .empty := by
  refine ⟨.empty, rfl, ?_, le_rfl, ?_, ?_, ?_, ?_, ?_, ?_, fun taskId => rfl, ?_⟩ <;>
    simp [Store.empty, Capacity.zero]

/-- The runs after one of them was replaced. -/
structure Replaced (s : Store) (run : RunRecord) (e : Effect) (new : RunRecord) : Prop where
  written : e.run = some new
  old : s.runs.get new.runId = some run
  advances : Advances run new

omit [Platform] in
/-- A run that is replaced keeps the counters that do not look at its phase. -/
theorem Replaced.counts {new : RunRecord} (h : Replaced s run e new) :
    (s.apply e).runs.rows.length = s.runs.rows.length ∧
      (s.apply e).runs.total (fun run => dataBytes run.input) =
        s.runs.total (fun run => dataBytes run.input) ∧
      ∀ taskId, (s.apply e).runs.count (fun run => decide (run.taskId = taskId)) =
        s.runs.count (fun run => decide (run.taskId = taskId)) := by
  have hruns : (s.apply e).runs = s.runs.put new := by
    show s.runs.putOption e.run = _
    rw [h.written]
    rfl
  rw [hruns]
  refine ⟨Table.length_put_old h.old, ?_, fun taskId => ?_⟩
  · have htotal := Table.total_put_old (fun run : RunRecord => dataBytes run.input) h.old
    rw [h.advances.input] at htotal
    exact Nat.add_right_cancel htotal
  · have hcount := Table.count_put_old (fun run : RunRecord => decide (run.taskId = taskId)) h.old
    rw [h.advances.taskId] at hcount
    exact Nat.add_right_cancel hcount

omit [Platform] in
/-- The two phase counters follow the phase of the run that is replaced. -/
theorem Replaced.phases {new : RunRecord} (h : Replaced s run e new) (hmoved : Moved s run e) :
    (e.capacity.queuedRuns + s.runs.count (fun run => decide (run.phase = .queued)) =
        s.capacity.queuedRuns + (s.apply e).runs.count (fun run => decide (run.phase = .queued))) ∧
      (e.capacity.activeRuns + s.runs.count (fun run => run.phase.active) =
        s.capacity.activeRuns + (s.apply e).runs.count (fun run => run.phase.active)) := by
  have hruns : (s.apply e).runs = s.runs.put new := by
    show s.runs.putOption e.run = _
    rw [h.written]
    rfl
  have hqueued := Table.count_put_old (fun run : RunRecord => decide (run.phase = .queued)) h.old
  have hactive := Table.count_put_old (fun run : RunRecord => run.phase.active) h.old
  obtain ⟨hmoveQueued, hmoveActive⟩ := s.capacity.moveRun_counts h.advances.rank
  rw [hruns, hmoved.queued new h.written, hmoved.active new h.written]
  simp only [decide_eq_true_eq] at hqueued
  constructor
  · split at hmoveQueued <;> split at hmoveQueued <;> simp_all <;> omega
  · split at hmoveActive <;> split at hmoveActive <;> simp_all <;> omega

omit [Platform] in
/-- The ordinary operations counted are the ordinary rows added. -/
theorem OrdinaryCount.exact (h : OrdinaryCount options s e)
    (hrows : ∀ o ∈ e.operation, s.operations.get o.key = none ∨
      ∃ prior ∈ s.operations.rows, Revised prior o) :
    e.capacity.ordinaryOperations + s.operations.count (fun o => !o.kind.critical) =
      s.capacity.ordinaryOperations + (s.apply e).operations.count (fun o => !o.kind.critical) := by
  have hput : (s.apply e).operations = s.operations.putOption e.operation := rfl
  rw [hput]
  cases h with
  | same hkinds hcapacity =>
    rw [hcapacity]
    cases hoperation : e.operation with
    | none => rfl
    | some o =>
      have hcount : (s.operations.put o).count (fun o => !o.kind.critical) =
          s.operations.count (fun o => !o.kind.critical) := by
        rcases hrows o hoperation with hfree | ⟨prior, hprior, hrevised⟩
        · rw [Table.count_put_new _ hfree, hkinds o hoperation hfree]
          rfl
        · have hget : s.operations.get o.key = some prior := by
            rw [hrevised.key, Table.get_of_mem hprior]
          have hold := Table.count_put_old (fun o : OperationRecord => !o.kind.critical) hget
          rw [hrevised.kind] at hold
          exact Nat.add_right_cancel hold
      rw [Table.putOption, hcount]
  | one o hoperation hkind hfree hcapacity =>
    rw [hcapacity, hoperation, Table.putOption, Table.count_put_new _ hfree, hkind]
    simp only [Bool.not_false, if_true, Nat.cast_add, Nat.cast_one]
    omega

omit [Platform] in
/-- The observation bytes counted are the bytes of the rows added. -/
theorem ObservationCount.exact (h : ObservationCount options s e) :
    e.capacity.observationBytes + s.observations.total TaskObservation.retainedBytes =
      s.capacity.observationBytes +
        (s.apply e).observations.total TaskObservation.retainedBytes := by
  have hput : (s.apply e).observations = s.observations.putOption e.observation := rfl
  rw [hput]
  cases h with
  | same hkinds hcapacity =>
    rw [hcapacity]
    cases hobservation : e.observation with
    | none => rfl
    | some o =>
      obtain ⟨hkind, hold⟩ := hkinds o hobservation
      have hbytes : o.retainedBytes = 0 := if_pos hkind
      have htotal : (s.observations.put o).total TaskObservation.retainedBytes =
          s.observations.total TaskObservation.retainedBytes := by
        cases hget : s.observations.get o.key with
        | none => rw [Table.total_put_new _ hget, hbytes, add_zero]
        | some old =>
          have hbytes' : old.retainedBytes = 0 := if_pos (hold old hget)
          have hsum := Table.total_put_old TaskObservation.retainedBytes hget
          rw [hbytes, hbytes'] at hsum
          exact hsum
      rw [Table.putOption, htotal]
  | one o hobservation hkind hfree hcapacity =>
    have hbytes : o.retainedBytes = dataBytes o := if_neg hkind
    rw [hcapacity, hobservation, Table.putOption, Table.total_put_new _ hfree, hbytes]
    push_cast
    omega

/-- A change keeps the ledger. -/
theorem Ledger.change (hledger : Ledger options s) (hlinked : Linked (s.apply e))
    (htask : s.tasks.get command.taskId = some task) (hrun : run ∈ s.runs.rows)
    (hchange : Change options s command task run e) : Ledger options (s.apply e) := by
  obtain ⟨new, hnew, hadvances, htask', hceiling⟩ := hchange.advances
  have hid : task.taskId = command.taskId := Store.taskId_of_get htask
  have hmoved := hchange.moved
  have hreplaced : Replaced s run e new :=
    ⟨hnew, by rw [hadvances.runId]; exact Table.get_of_mem hrun, hadvances⟩
  obtain ⟨hlength, hinput, hcounted⟩ := hreplaced.counts
  obtain ⟨hqueued, hactive⟩ := hreplaced.phases hmoved
  have hordinary := hchange.ordinary.exact fun o ho =>
    (hchange.operation_cases hid ho).imp Recorded.free fun hrevised => hrevised
  have hobserved := (hchange.retained hledger.linked hrun).exact
  have htasks : (s.apply e).tasks.rows.length = s.tasks.rows.length :=
    Table.length_put_old (w := task) (by
      show s.tasks.get e.task.taskId = some task
      rw [htask']
      exact hid ▸ htask)
  have hceilings : (s.apply e).ceilings = s.ceilings := by
    show s.ceilings.putOption e.ceiling = _
    rw [hceiling]
    rfl
  have hexact := Capacity.ext_iff.1 hledger.exact
  simp only [Store.recount] at hexact
  obtain ⟨htasks₀, hruns₀, hactive₀, hqueued₀, hretained₀, hobserved₀, hordinary₀, hreserved₀,
    hslots₀⟩ := hexact
  have hcapacity : (s.apply e).capacity = e.capacity := rfl
  refine ⟨hlinked, ?_, ?_, ?_, ?_, ?_, ?_, ?_, ?_, ?_, ?_, ?_⟩
  · rw [hcapacity]
    apply Capacity.ext <;> simp only [Store.recount]
    · rw [hmoved.tasks, htasks, htasks₀]
    · rw [hmoved.runs, hlength, hruns₀]
    · omega
    · omega
    · rw [hmoved.retained, hinput, hceilings, hretained₀]
    · omega
    · omega
    · rw [hmoved.reserved, hlength, hreserved₀]
    · rw [hmoved.slots, hlength, hslots₀]
  · exact hmoved.tasks ▸ hledger.tasks
  · rw [hcapacity, hmoved.tasks, hmoved.runs]
    exact hledger.taskRuns
  · exact hmoved.runs ▸ hledger.runs
  · rw [hcapacity]
    obtain ⟨-, hmove⟩ := s.capacity.moveRun_counts hadvances.rank
    rw [← hmoved.active new hnew] at hmove
    have hroom := hledger.active
    by_cases hidle : new.phase.active = true ∧ run.phase.active ≠ true
    · have hwas : run.phase = .queued := by
        cases hp : run.phase <;> simp [hp, RunPhase.active] at hidle ⊢
        have hrank := hadvances.rank
        rw [hp] at hrank
        cases hq : new.phase <;> simp [hq, RunPhase.rank] at hrank hidle
      have hfree := (hchange.activates (hledger.linked.sound run hrun) hwas hnew hidle.1).1
      rw [if_pos hidle.1, if_neg hidle.2] at hmove
      omega
    · split at hmove <;> split at hmove <;> first | omega | exact absurd ⟨‹_›, ‹_›⟩ hidle
  · rw [hcapacity]
    obtain ⟨hmove, -⟩ := s.capacity.moveRun_counts hadvances.rank
    rw [← hmoved.queued new hnew] at hmove
    have hroom := hledger.queued
    have hrank := hadvances.rank
    split at hmove
    · omega
    · rename_i hp
      have hq : new.phase ≠ .queued := by
        intro hq
        rw [hq] at hrank
        cases hp' : run.phase <;> simp [hp', RunPhase.rank] at hrank hp
      rw [if_neg hq] at hmove
      omega
  · exact hmoved.retained ▸ hledger.retained
  · rw [hcapacity]
    cases hchange.retained hledger.linked hrun with
    | same _ hsame =>
      rw [hsame]
      exact hledger.observed
    | one o _ _ _ hmore hroom =>
      rw [hmore]
      exact hroom
  · rw [hcapacity]
    cases hchange.ordinary with
    | same _ hsame =>
      rw [hsame]
      exact hledger.ordinary
    | one o _ _ _ hmore hroom =>
      rw [hmore]
      omega
  · intro taskId
    rw [hcounted, hledger.counted, Store.apply_tasks_get]
    split
    · rename_i hsame
      rw [htask'] at hsame
      have hget : s.tasks.get taskId = some task := by
        rw [hsame]
        exact hid ▸ htask
      simp only [hget, Option.map_some, Option.getD_some, Effect.finalTask, htask']
      rfl
    · rfl
  · intro other hother
    rcases Table.mem_put.1 hother with rfl | ⟨hold, -⟩
    · show e.task.runCount ≤ _
      rw [htask']
      exact hledger.perTask task (Table.mem_of_get htask)
    · exact hledger.perTask other hold

omit [Platform] in
/-- An admission keeps the ledger. -/
theorem Ledger.admission (hledger : Ledger options s) {admission : RunAdmission}
    {runCount : Nat} {newTasks : Int} {receipt : CommitReceipt}
    (hlinked : Linked (s.apply (admissionEffect s command admission task runCount newTasks receipt)))
    (hadmissible : Admissible options s command admission) (hid : task.taskId = command.taskId)
    (hfree : s.operations.get (operationKey task.parent command.operationId) = none)
    (hnew : newTasks ≤ 1) (hroom : s.capacity.tasks + newTasks ≤ options.limits.maxTasks)
    (hlength : ((s.apply (admissionEffect s command admission task runCount newTasks
      receipt)).tasks.rows.length : Int) = s.tasks.rows.length + newTasks)
    (hcount : runCount = ((s.tasks.get command.taskId).map TaskRecord.runCount).getD 0 + 1)
    (hmax : runCount ≤ options.limits.maxRunsPerTask)
    (hbytes : s.capacity.retainedInputBytes + admissionBytes s admission ≤
      options.limits.maxRetainedInputBytes)
    (hordinary : s.capacity.ordinaryOperations < options.limits.maxOrdinaryOperations) :
    Ledger options (s.apply (admissionEffect s command admission task runCount newTasks receipt)) := by
  let e := admissionEffect s command admission task runCount newTasks receipt
  let new := (admittedRun command admission runCount).countOperation .admitRun
  let operation := recordedOperation command task admission.runId .admitRun admission.createdAt none
    receipt
  have hruns : (s.apply e).runs = s.runs.put new := rfl
  have hfresh : s.runs.get new.runId = none := hadmissible.fresh
  have hexact := Capacity.ext_iff.1 hledger.exact
  simp only [Store.recount] at hexact
  obtain ⟨htasks₀, hruns₀, hactive₀, hqueued₀, hretained₀, hobserved₀, hordinary₀, hreserved₀,
    hslots₀⟩ := hexact
  have hrunLength := Table.length_put_new hfresh
  have hceilings : ((s.apply e).ceilings.total dataBytes : Int) = s.ceilings.total dataBytes +
      (admissionBytes s admission - dataBytes admission.input) := by
    show ((s.ceilings.putOption (admissionCeiling s admission)).total dataBytes : Int) = _
    unfold admissionCeiling admissionBytes
    split
    · rw [Table.putOption]
      push_cast
      omega
    · rename_i hnone
      have hget : s.ceilings.get admission.policyCeiling.ceilingId = none := by
        simpa using hnone
      rw [Table.putOption, Table.total_put_new _ hget]
      push_cast
      omega
  refine ⟨hlinked, ?_, hroom, ?_, ?_, hledger.active, ?_, hbytes, hledger.observed, ?_, ?_, ?_⟩
  · apply Capacity.ext <;> simp only [Store.recount]
    · rw [hlength, ← htasks₀]
      rfl
    · show s.capacity.runs + 1 = ((s.runs.put new).rows.length : Int)
      rw [hrunLength, hruns₀]
      push_cast
      rfl
    · show s.capacity.activeRuns = ((s.runs.put new).count (fun run => run.phase.active) : Int)
      rw [Table.count_put_new _ hfresh, hactive₀]
      rfl
    · show s.capacity.queuedRuns + 1 =
        ((s.runs.put new).count (fun run => decide (run.phase = .queued)) : Int)
      rw [Table.count_put_new _ hfresh, hqueued₀]
      push_cast
      rfl
    · have hinput : (s.runs.put new).total (fun run => dataBytes run.input) =
          s.runs.total (fun run => dataBytes run.input) + dataBytes admission.input :=
        Table.total_put_new _ hfresh
      show s.capacity.retainedInputBytes + admissionBytes s admission =
        ((s.runs.put new).total (fun run => dataBytes run.input) : Int) +
          ((s.apply e).ceilings.total dataBytes : Int)
      rw [hceilings, hinput, hretained₀]
      push_cast
      omega
    · exact hobserved₀
    · show s.capacity.ordinaryOperations + 1 =
        ((s.operations.put operation).count (fun o => !o.kind.critical) : Int)
      rw [Table.count_put_new _ (show s.operations.get operation.key = none from hfree), hordinary₀]
      push_cast
      rfl
    · show s.capacity.reservedBytes + DELEGATION_RUN_RESERVATION_BYTES =
        ((s.runs.put new).rows.length : Int) * DELEGATION_RUN_RESERVATION_BYTES
      rw [hrunLength, hreserved₀]
      push_cast
      ring
    · show s.capacity.criticalSlots + DELEGATION_CRITICAL_SLOTS =
        ((s.runs.put new).rows.length : Int) * DELEGATION_CRITICAL_SLOTS
      rw [hrunLength, hslots₀]
      push_cast
      ring
  · have hle := hledger.taskRuns
    show s.capacity.tasks + newTasks ≤ s.capacity.runs + 1
    omega
  · have hlt := hadmissible.runs
    show s.capacity.runs + 1 ≤ _
    omega
  · have hlt := hadmissible.queued
    show s.capacity.queuedRuns + 1 ≤ _
    omega
  · show s.capacity.ordinaryOperations + 1 ≤ _
    omega
  · intro taskId
    rw [hruns, Table.count_put_new _ hfresh, hledger.counted, Store.apply_tasks_get]
    have hnamed : new.taskId = command.taskId := rfl
    have htaskId : e.task.taskId = command.taskId := hid
    rw [hnamed, htaskId]
    by_cases hsame : taskId = command.taskId
    · subst hsame
      rw [if_pos rfl, decide_eq_true rfl, if_pos rfl]
      exact hcount.symm
    · rw [if_neg hsame, decide_eq_false (Ne.symm hsame), if_neg Bool.false_ne_true, add_zero]
  · intro other hother
    rcases Table.mem_put.1 hother with rfl | ⟨hold, -⟩
    · exact hmax
    · exact hledger.perTask other hold

omit [Platform] in
/-- A retirement keeps the ledger. -/
theorem Ledger.retire (hledger : Ledger options s) (hlinked : Linked (s.apply e))
    (htask : s.tasks.get command.taskId = some task) {named : Option RunRecord}
    (hnamed : ∀ r ∈ named, r ∈ s.runs.rows) (hrun : e.run = named.map RunRecord.next)
    (hcapacity : e.capacity = s.capacity) (hid : e.task.taskId = command.taskId)
    (hcount : e.task.runCount = task.runCount) (hoperation : e.operation = none)
    (hobservation : e.observation = none) (hceiling : e.ceiling = none) :
    Ledger options (s.apply e) := by
  have htasks : (s.apply e).tasks.rows.length = s.tasks.rows.length :=
    Table.length_put_old (w := task) (show s.tasks.get e.task.taskId = some task by rw [hid, htask])
  have hcounts : (s.apply e).runs.rows.length = s.runs.rows.length ∧
      (s.apply e).runs.total (fun run => dataBytes run.input) =
        s.runs.total (fun run => dataBytes run.input) ∧
      (∀ taskId, (s.apply e).runs.count (fun run => decide (run.taskId = taskId)) =
        s.runs.count (fun run => decide (run.taskId = taskId))) ∧
      (s.apply e).runs.count (fun run => decide (run.phase = .queued)) =
        s.runs.count (fun run => decide (run.phase = .queued)) ∧
      (s.apply e).runs.count (fun run => run.phase.active) =
        s.runs.count (fun run => run.phase.active) := by
    cases hsome : named with
    | none =>
      have hruns : (s.apply e).runs = s.runs := by
        show s.runs.putOption e.run = _
        rw [hrun, hsome]
        rfl
      rw [hruns]
      exact ⟨rfl, rfl, fun _ => rfl, rfl, rfl⟩
    | some run =>
      have hreplaced : Replaced s run e run.next :=
        ⟨by rw [hrun, hsome]; rfl, Table.get_of_mem (hnamed run hsome), run.next_advances⟩
      obtain ⟨hlength, hinput, hcounted⟩ := hreplaced.counts
      have hmoved : Moved s run e := by
        refine ⟨?_, ?_, ?_, ?_, ?_, ?_, ?_⟩ <;> rw [hcapacity]
        · intro r hr
          rw [hreplaced.written] at hr
          cases hr
          rw [RunRecord.next, Capacity.moveRun_self]
        · intro r hr
          rw [hreplaced.written] at hr
          cases hr
          rw [RunRecord.next, Capacity.moveRun_self]
      obtain ⟨hqueued, hactive⟩ := hreplaced.phases hmoved
      rw [hcapacity] at hqueued hactive
      exact ⟨hlength, hinput, hcounted, by omega, by omega⟩
  obtain ⟨hlength, hinput, hcounted, hqueued, hactive⟩ := hcounts
  have hrecount : (s.apply e).recount = s.recount := by
    have hoperations : (s.apply e).operations = s.operations := by
      show s.operations.putOption e.operation = _
      rw [hoperation]
      rfl
    have hobservations : (s.apply e).observations = s.observations := by
      show s.observations.putOption e.observation = _
      rw [hobservation]
      rfl
    have hceilings : (s.apply e).ceilings = s.ceilings := by
      show s.ceilings.putOption e.ceiling = _
      rw [hceiling]
      rfl
    simp only [Store.recount, htasks, hlength, hinput, hqueued, hactive, hoperations,
      hobservations, hceilings]
  have hsame : (s.apply e).capacity = s.capacity := hcapacity
  refine ⟨hlinked, ?_, ?_, ?_, ?_, ?_, ?_, ?_, ?_, ?_, ?_, ?_⟩
  · rw [hsame, hrecount]
    exact hledger.exact
  · exact hsame ▸ hledger.tasks
  · rw [hsame]
    exact hledger.taskRuns
  · exact hsame ▸ hledger.runs
  · exact hsame ▸ hledger.active
  · exact hsame ▸ hledger.queued
  · exact hsame ▸ hledger.retained
  · exact hsame ▸ hledger.observed
  · exact hsame ▸ hledger.ordinary
  · intro taskId
    rw [hcounted, hledger.counted, Store.apply_tasks_get]
    split
    · rename_i heq
      rw [heq, hid, htask]
      exact hcount.symm
    · rfl
  · intro other hother
    rcases Table.mem_put.1 hother with rfl | ⟨hold, -⟩
    · show e.task.runCount ≤ _
      rw [hcount]
      exact hledger.perTask task (Table.mem_of_get htask)
    · exact hledger.perTask other hold

/-- A transition keeps the ledger. -/
theorem Ledger.apply (h : Transition options s command e) (hledger : Ledger options s) :
    Ledger options (s.apply e) := by
  have hlinked := hledger.linked.apply h
  cases h with
  | admitTask admission receipt _ hnone _ hadmissible hroom hbytes hordinary =>
    have hlength := Table.length_put_new (t := s.tasks) (v := (admissionEffect s command admission
      (admittedTask options command.taskId admission) 1 1 receipt).finalTask s) hnone
    have hmax : 1 ≤ options.limits.maxRunsPerTask := by
      have hfinite := options.limits_valid.finite options.limits.maxRunsPerTask
        (by simp [Limits.values])
      simp only [isRevision, Bool.and_eq_true, decide_eq_true_eq] at hfinite
      exact hfinite.1
    refine hledger.admission hlinked hadmissible rfl hadmissible.free le_rfl (by omega) ?_
      (by rw [hnone]; rfl) hmax hbytes hordinary
    show ((s.tasks.put _).rows.length : Int) = _
    rw [hlength]
    push_cast
    rfl
  | continueTask admission task previous receipt _ htask _ hcontinues hadmissible hbytes hordinary =>
    have hid : task.taskId = command.taskId := Store.taskId_of_get htask
    have hlength := Table.length_put_old (t := s.tasks) (v := (admissionEffect s command admission
      task.next (task.runCount + 1) 0 receipt).finalTask s) (w := task)
      (show s.tasks.get task.taskId = some task by rw [hid, htask])
    have hfree := hadmissible.free
    rw [hcontinues.parent] at hfree
    have htasks := hledger.tasks
    refine hledger.admission hlinked hadmissible hid hfree (by omega) (by omega) ?_
      (by rw [htask]; rfl) hcontinues.room hbytes hordinary
    show ((s.tasks.put _).rows.length : Int) = _
    rw [hlength, add_zero]
  | act task run e htask hrun _ _ _ _ hchange =>
    exact hledger.change hlinked htask hrun hchange
  | retire reason atTime task named receipt _ htask _ hnamed =>
    exact hledger.retire hlinked htask (fun r hr => (hnamed r hr).1) rfl rfl
      (Store.taskId_of_get htask : task.taskId = _) rfl rfl rfl rfl

/-- **Every reachable store has an exact ledger.** -/
theorem Ledger.reachable (options : StoreOptions) (calls : List StoreCall) :
    Ledger options (Store.empty.run options calls) := by
  refine Store.run_rule .empty ?_ (fun s command e hs hcommitted => hs.apply hcommitted.transition)
    calls
  intro s owner epoch hs
  obtain ⟨hlinked, hexact, h₁, h₂, h₃, h₄, h₅, h₆, h₇, h₈, hcounted, hmax⟩ := hs
  exact ⟨hlinked.withOwner owner epoch, hexact, h₁, h₂, h₃, h₄, h₅, h₆, h₇, h₈, hcounted, hmax⟩

/-! ## The guards -/

/-- Every counter is within its limit. -/
structure Capacity.Within (c : Capacity) (limits : Limits) : Prop where
  tasks : c.tasks ≤ limits.maxTasks
  runs : c.runs ≤ limits.maxRuns
  activeRuns : c.activeRuns ≤ limits.maxActiveRuns
  queuedRuns : c.queuedRuns ≤ limits.maxQueuedRuns
  retainedInputBytes : c.retainedInputBytes ≤ limits.maxRetainedInputBytes
  observationBytes : c.observationBytes ≤ limits.maxRetainedObservationBytes
  ordinaryOperations : c.ordinaryOperations ≤ limits.maxOrdinaryOperations

omit [Platform] in
theorem Ledger.within (h : Ledger options s) : s.capacity.Within options.limits :=
  ⟨h.tasks, h.runs, h.active, h.queued, h.retained, h.observed, h.ordinary⟩

/-- The operations of a run in its reserved slots. -/
def Store.criticalOperations (s : Store) (runId : JsString) : List OperationRecord :=
  s.operations.rows.filter fun o => decide (o.runId = runId) && o.kind.critical

omit [Platform] in
/-- A run has one operation of each reserved kind at most. -/
theorem Linked.criticalOperations_le (h : Linked s) (runId : JsString) :
    (s.criticalOperations runId).length ≤ DELEGATION_CRITICAL_SLOTS := by
  have hmem : ∀ o ∈ s.criticalOperations runId, o ∈ s.operations.rows ∧ o.runId = runId ∧
      o.kind.critical = true := by
    intro o ho
    simpa [Store.criticalOperations] using ho
  have hinj : Set.InjOn OperationRecord.kind {o | o ∈ s.criticalOperations runId} := by
    intro a ha b hb hkind
    obtain ⟨ha, hruna, hcritical⟩ := hmem a ha
    obtain ⟨hb, hrunb, -⟩ := hmem b hb
    exact h.reserved a ha b hb hcritical hkind (hruna.trans hrunb.symm)
  have hnodup : ((s.criticalOperations runId).map OperationRecord.kind).Nodup :=
    (List.Nodup.filter _ s.operations.nodup_rows).map_on fun a ha b hb => hinj ha hb
  have hsubset : (s.criticalOperations runId).map OperationRecord.kind ⊆
      [.cancel, .interrupt, .sessionClose, .bindingCleanup] := by
    intro kind hkind
    obtain ⟨o, ho, rfl⟩ := List.mem_map.1 hkind
    have hcritical := (hmem o ho).2.2
    cases hk : o.kind <;> simp [hk, OperationKind.critical] at hcritical ⊢
  have hlength := (hnodup.subperm hsubset).length_le
  rwa [List.length_map] at hlength

omit [Platform] in
/-- The guard on the counters passes. -/
theorem Ledger.capacity_consistent (h : Ledger options s) :
    ¬capacityInconsistent s.capacity options.limits := by
  have hexact := Capacity.ext_iff.1 h.exact
  simp only [Store.recount] at hexact
  obtain ⟨htasks₀, hruns₀, hactive₀, hqueued₀, hretained₀, hobserved₀, hordinary₀, hreserved₀,
    hslots₀⟩ := hexact
  have hphases : s.runs.count (fun run => run.phase.active) +
      s.runs.count (fun run => decide (run.phase = .queued)) ≤ s.runs.rows.length :=
    Table.count_add_count_le s.runs fun run _ hactive => by
      cases hp : run.phase <;> simp [hp, RunPhase.active] at hactive ⊢
  have hfinite : ∀ n ∈ options.limits.values, n ≤ MAX_SAFE_INTEGER := by
    intro n hn
    have hrevision := options.limits_valid.finite n hn
    simp only [isRevision, Bool.and_eq_true, decide_eq_true_eq] at hrevision
    exact hrevision.2
  have hderived := options.limits_valid.derived.1
  have h₁ := hfinite options.limits.maxTasks (by simp [Limits.values])
  have h₂ := hfinite options.limits.maxRetainedInputBytes (by simp [Limits.values])
  have h₃ := hfinite options.limits.maxRetainedObservationBytes (by simp [Limits.values])
  have h₄ := hfinite options.limits.maxOrdinaryOperations (by simp [Limits.values])
  have h₅ := hfinite options.limits.maxActiveRuns (by simp [Limits.values])
  have h₆ := hfinite options.limits.maxQueuedRuns (by simp [Limits.values])
  obtain ⟨b₁, b₂, b₃, b₄, b₅, b₆, b₇⟩ := h.within
  have hle := h.taskRuns
  simp only [MAX_SAFE_INTEGER, DELEGATION_RUN_RESERVATION_BYTES, DELEGATION_CRITICAL_SLOTS] at *
  unfold capacityInconsistent
  rw [not_or]
  constructor
  · rintro ⟨count, hcount, hbad⟩
    simp only [Capacity.values, MAX_SAFE_INTEGER, List.mem_cons, List.not_mem_nil, or_false]
      at hcount hbad
    rcases hcount with rfl | rfl | rfl | rfl | rfl | rfl | rfl | rfl | rfl <;> omega
  · simp only [DELEGATION_RUN_RESERVATION_BYTES, DELEGATION_CRITICAL_SLOTS]
    omega

omit [Platform] in
/-- A task has at most as many runs as the limit allows. -/
theorem Ledger.runs_le (h : Ledger options s) (taskId : JsString) :
    (runsOf s.runs taskId).length ≤ options.limits.maxRunsPerTask := by
  have hcount : (runsOf s.runs taskId).length =
      s.runs.count (fun run => decide (run.taskId = taskId)) :=
    List.countP_eq_length_filter.symm
  rw [hcount, h.counted]
  cases hget : s.tasks.get taskId with
  | none => exact Nat.zero_le _
  | some task => exact h.perTask task (Table.mem_of_get hget)

/-- The guard on the rows read passes. -/
theorem Ledger.snapshot_consistent (h : Ledger options s) (command : StoreCommand) :
    ¬snapshotInconsistent command (s.current options command) := by
  have hcritical : (s.current options command).criticalOperations.length ≤ 4 := by
    cases hid : commandRunId command with
    | none => simp [Store.current, hid]
    | some runId =>
      have hlist : (s.current options command).criticalOperations =
          s.criticalOperations runId := by
        simp only [Store.current, Store.criticalOperations, hid, List.filter_filter,
          Option.some.injEq]
        exact List.filter_congr fun o _ => Bool.and_comm _ _
      rw [hlist]
      exact h.linked.criticalOperations_le runId
  rintro (hruns | hslots | ⟨run, hrun, hne⟩ | ⟨task, htask, hne⟩)
  · exact absurd (h.runs_le command.taskId) (not_le.2 hruns)
  · exact absurd hcritical (not_le.2 hslots)
  · exact hne (mem_current_runs.1 hrun).2
  · exact hne (Store.taskId_of_get htask)

/-- **The capacity ledger is exact.**  After any list of calls on the store the
counters are those recomputed from the rows and within their limits, no run
has more reserved operations than slots, and neither guard against an
inconsistent store fires, whatever command comes next. -/
theorem capacity_ledger_exact (options : StoreOptions) (calls : List StoreCall) :
    (Store.empty.run options calls).capacity = (Store.empty.run options calls).recount ∧
      (Store.empty.run options calls).capacity.Within options.limits ∧
      (∀ runId, ((Store.empty.run options calls).criticalOperations runId).length ≤ 4) ∧
      ∀ command,
        ¬capacityInconsistent ((Store.empty.run options calls).current options command).capacity
            ((Store.empty.run options calls).current options command).limits ∧
          ¬snapshotInconsistent command
            ((Store.empty.run options calls).current options command) := by
  have hledger := Ledger.reachable options calls
  exact ⟨hledger.exact, hledger.within, hledger.linked.criticalOperations_le, fun command =>
    ⟨hledger.capacity_consistent, hledger.snapshot_consistent command⟩⟩

end AgentSdk.Delegation
