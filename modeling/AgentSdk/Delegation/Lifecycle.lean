import AgentSdk.Delegation.Ledger

/-!
# The life of a task

The runs of a task form one chain, at most one of them is executing and only
the last can be queued, and the state of the task is derived from its runs.  A
run is settled exactly when its outcome is recorded, and then it has one
notification that reports this outcome.

## Main results

* `Lineage.reachable` — the chain of runs in every reachable store.
* `Notified.reachable` — the notifications of settled runs.
* `lifecycle_invariant` — what both say about every run of the store.
-/

namespace AgentSdk.Delegation

open AgentSdk.Text AgentSdk.Outcome

section Life

variable [Platform] {options : StoreOptions} {s : Store} {command : StoreCommand}
  {task : TaskRecord} {run run' : RunRecord} {e : Effect}

/-! ## The chain of runs -/

/-- The runs of every task form one chain. -/
structure Lineage (s : Store) : Prop where
  linked : Linked s
  ordinal : ∀ run ∈ s.runs.rows, ∀ task, s.tasks.get run.taskId = some task →
    1 ≤ run.ordinal ∧ run.ordinal ≤ task.runCount
  unique : ∀ a ∈ s.runs.rows, ∀ b ∈ s.runs.rows, a.taskId = b.taskId → a.ordinal = b.ordinal → a = b
  every : ∀ taskId task, s.tasks.get taskId = some task → ∀ k, 1 ≤ k → k ≤ task.runCount →
    ∃ run ∈ s.runs.rows, run.taskId = taskId ∧ run.ordinal = k
  latest : ∀ taskId task, s.tasks.get taskId = some task → ∃ run ∈ s.runs.rows,
    run.taskId = taskId ∧ run.runId = task.latestRunId ∧ run.ordinal = task.runCount
  previous : ∀ run ∈ s.runs.rows, 1 < run.ordinal → ∃ prior ∈ s.runs.rows,
    prior.taskId = run.taskId ∧ prior.ordinal + 1 = run.ordinal ∧
      run.previousRunId = some prior.runId
  active : ∀ a ∈ s.runs.rows, ∀ b ∈ s.runs.rows, a.taskId = b.taskId → a.phase.active = true →
    b.phase.active = true → a = b
  queued : ∀ run ∈ s.runs.rows, run.phase = .queued → ∀ task, s.tasks.get run.taskId = some task →
    run.ordinal = task.runCount

omit [Platform] in
theorem Lineage.empty : Lineage .empty := by
  refine ⟨.empty, ?_, ?_, ?_, ?_, ?_, ?_, ?_⟩ <;> simp [Store.empty]

/-- A transition that admits no run: the task it writes counts the runs it
counted, and its run was there. -/
structure Steady (s : Store) (command : StoreCommand) (task : TaskRecord) (e : Effect) : Prop where
  retained : s.tasks.get command.taskId = some task
  taskId : e.task.taskId = command.taskId
  runCount : e.task.runCount = task.runCount
  latestRunId : e.task.latestRunId = task.latestRunId
  run : ∀ r ∈ e.run, s.runs.get r.runId ≠ none
  activates : ∀ r ∈ e.run, ∀ old ∈ s.runs.rows, old.runId = r.runId → r.phase.active = true →
    old.phase.active = true ∨ ∀ other ∈ s.runs.rows, other.taskId = command.taskId →
      other.runId ≠ old.runId → other.phase.active = false

omit [Platform] in
/-- A phase that became active was active or queued. -/
theorem RunPhase.queued_of_rank {p q : RunPhase} (h : p.rank ≤ q.rank) (hactive : q.active = true) :
    p.active = true ∨ p = .queued := by
  cases p <;> cases q <;> simp [RunPhase.rank, RunPhase.active] at h hactive ⊢

theorem Transition.steady_act (hlinked : Linked s)
    (htask : s.tasks.get command.taskId = some task) (hrun : run ∈ s.runs.rows)
    (hchange : Change options s command task run e) : Steady s command task e := by
  obtain ⟨new, hnew, hadvances, htask', -⟩ := hchange.advances
  refine ⟨htask, ?_, ?_, ?_, ?_, ?_⟩
  · rw [htask']
    exact (Store.taskId_of_get htask : task.taskId = _)
  · rw [htask']
    rfl
  · rw [htask']
    rfl
  · intro r hr hnone
    rw [hnew] at hr
    cases hr
    exact Table.get_eq_none.1 hnone run hrun hadvances.runId.symm
  · intro r hr old hold hid hactive
    rw [hnew] at hr
    cases hr
    have hsame : old = run := Store.run_eq hold hrun (hid.trans hadvances.runId)
    subst hsame
    rcases RunPhase.queued_of_rank hadvances.rank hactive with hwas | hqueued
    · exact Or.inl hwas
    · exact Or.inr (hchange.activates (hlinked.sound old hrun) hqueued hnew hactive).2

/-- A transition that admits no run keeps the chains. -/
theorem Lineage.steady (h : Transition options s command e) (hsteady : Steady s command task e)
    (hlineage : Lineage s) : Lineage (s.apply e) := by
  have horigin : ∀ r ∈ (s.apply e).runs.rows, ∃ old ∈ s.runs.rows, Advances old r := by
    intro r hr
    rcases h.run_origin hr with horigin | ⟨hnew, hfresh⟩
    · exact horigin
    · exact absurd hfresh (hsteady.run r hnew)
  have htasks : ∀ taskId task', (s.apply e).tasks.get taskId = some task' →
      ∃ old, s.tasks.get taskId = some old ∧ old.runCount = task'.runCount ∧
        old.latestRunId = task'.latestRunId := by
    intro taskId task' hget
    rw [Store.apply_tasks_get] at hget
    split at hget
    · rename_i hid
      cases hget
      exact ⟨task, by rw [hid, hsteady.taskId, hsteady.retained], hsteady.runCount.symm,
        hsteady.latestRunId.symm⟩
    · exact ⟨task', hget, rfl, rfl⟩
  have hsame : ∀ {a b olda oldb : RunRecord}, a ∈ (s.apply e).runs.rows →
      b ∈ (s.apply e).runs.rows → Advances olda a → Advances oldb b → olda = oldb → a = b := by
    rintro a b olda oldb ha hb hadva hadvb rfl
    exact Table.eq_of_key_eq ha hb (hadva.runId.trans hadvb.runId.symm)
  refine ⟨hlineage.linked.apply h, ?_, ?_, ?_, ?_, ?_, ?_, ?_⟩
  · intro r hr task' hget
    obtain ⟨old, hold, hadvances⟩ := horigin r hr
    obtain ⟨oldTask, hgetOld, hcount, -⟩ := htasks _ _ hget
    rw [hadvances.ordinal, ← hcount]
    exact hlineage.ordinal old hold oldTask (hadvances.taskId ▸ hgetOld)
  · intro a ha b hb htaskId hordinal
    obtain ⟨olda, holda, hadva⟩ := horigin a ha
    obtain ⟨oldb, holdb, hadvb⟩ := horigin b hb
    exact hsame ha hb hadva hadvb (hlineage.unique olda holda oldb holdb
      (hadva.taskId.symm.trans (htaskId.trans hadvb.taskId))
      (hadva.ordinal.symm.trans (hordinal.trans hadvb.ordinal)))
  · intro taskId task' hget k hk hle
    obtain ⟨oldTask, hgetOld, hcount, -⟩ := htasks _ _ hget
    obtain ⟨old, hold, htaskId, hordinal⟩ := hlineage.every taskId oldTask hgetOld k hk (hcount ▸ hle)
    obtain ⟨new, hnew, hadvances⟩ := h.exists_advanced hold
    exact ⟨new, hnew, hadvances.taskId.trans htaskId, hadvances.ordinal.trans hordinal⟩
  · intro taskId task' hget
    obtain ⟨oldTask, hgetOld, hcount, hlatest⟩ := htasks _ _ hget
    obtain ⟨old, hold, htaskId, hid, hordinal⟩ := hlineage.latest taskId oldTask hgetOld
    obtain ⟨new, hnew, hadvances⟩ := h.exists_advanced hold
    exact ⟨new, hnew, hadvances.taskId.trans htaskId, hadvances.runId.trans (hid.trans hlatest),
      hadvances.ordinal.trans (hordinal.trans hcount)⟩
  · intro r hr hlt
    obtain ⟨old, hold, hadvances⟩ := horigin r hr
    obtain ⟨prior, hprior, htaskId, hordinal, hprevious⟩ :=
      hlineage.previous old hold (hadvances.ordinal ▸ hlt)
    obtain ⟨new, hnew, hadvances'⟩ := h.exists_advanced hprior
    refine ⟨new, hnew, hadvances'.taskId.trans (htaskId.trans hadvances.taskId.symm), ?_, ?_⟩
    · rw [hadvances'.ordinal, hordinal, hadvances.ordinal]
    · rw [hadvances.previousRunId, hprevious, hadvances'.runId]
  · have hactivated : ∀ r ∈ (s.apply e).runs.rows, ∀ old ∈ s.runs.rows, Advances old r →
        r.phase.active = true → old.phase.active = true ∨ r ∈ e.run ∧
          ∀ other ∈ s.runs.rows, other.taskId = command.taskId → other.runId ≠ old.runId →
            other.phase.active = false := by
      intro r hr old hold hadvances hactive
      rcases Table.mem_putOption.1 hr with hnew | ⟨hkept, -⟩
      · exact (hsteady.activates r hnew old hold hadvances.runId.symm hactive).imp (fun h => h)
          fun halone => ⟨hnew, halone⟩
      · rw [Store.run_eq hkept hold hadvances.runId] at hactive
        exact Or.inl hactive
    intro a ha b hb htaskId hactive hactive'
    obtain ⟨olda, holda, hadva⟩ := horigin a ha
    obtain ⟨oldb, holdb, hadvb⟩ := horigin b hb
    have holdTask : olda.taskId = oldb.taskId :=
      hadva.taskId.symm.trans (htaskId.trans hadvb.taskId)
    -- A run that became active found every other run of its task idle.
    by_contra hne
    have hids : olda.runId ≠ oldb.runId := fun hid =>
      hne (hsame ha hb hadva hadvb (Store.run_eq holda holdb hid))
    rcases hactivated a ha olda holda hadva hactive with hwas | ⟨hnew, halone⟩
    · rcases hactivated b hb oldb holdb hadvb hactive' with hwas' | ⟨hnew, halone⟩
      · exact hne (hsame ha hb hadva hadvb (hlineage.active olda holda oldb holdb holdTask hwas
          hwas'))
      · have hnamed : olda.taskId = command.taskId :=
          hadva.taskId.symm.trans (htaskId.trans (h.place.run b hnew))
        have hidle := halone olda holda hnamed hids
        rw [hwas] at hidle
        cases hidle
    · rcases hactivated b hb oldb holdb hadvb hactive' with hwas' | ⟨hnew', -⟩
      · have hnamed : oldb.taskId = command.taskId :=
          hadvb.taskId.symm.trans (htaskId.symm.trans (h.place.run a hnew))
        have hidle := halone oldb holdb hnamed hids.symm
        rw [hwas'] at hidle
        cases hidle
      · exact hne (Option.mem_unique hnew hnew')
  · intro r hr hqueued task' hget
    obtain ⟨old, hold, hadvances⟩ := horigin r hr
    obtain ⟨oldTask, hgetOld, hcount, -⟩ := htasks _ _ hget
    have hrank := hadvances.rank
    rw [hqueued] at hrank
    have hwas : old.phase = .queued := by
      cases hp : old.phase <;> simp [hp, RunPhase.rank] at hrank ⊢
    rw [hadvances.ordinal, ← hcount]
    exact hlineage.queued old hold hwas oldTask (hadvances.taskId ▸ hgetOld)

omit [Platform] in
/-- An admission extends the chain of its task by one queued run. -/
theorem Lineage.admission (hlineage : Lineage s) {admission : RunAdmission} {runCount : Nat}
    {newTasks : Int} {receipt : CommitReceipt}
    (hlinked : Linked (s.apply (admissionEffect s command admission task runCount newTasks receipt)))
    (hfresh : s.runs.get admission.runId = none) (hid : task.taskId = command.taskId)
    (hcount : runCount = ((s.tasks.get command.taskId).map TaskRecord.runCount).getD 0 + 1)
    (hprevious : 1 < runCount → ∃ prior ∈ s.runs.rows, prior.taskId = command.taskId ∧
      prior.ordinal + 1 = runCount ∧
        (admittedRun command admission runCount).previousRunId = some prior.runId)
    (hidle : ∀ r ∈ s.runs.rows, r.taskId = command.taskId → r.phase ≠ .queued) :
    Lineage (s.apply (admissionEffect s command admission task runCount newTasks receipt)) := by
  let e := admissionEffect s command admission task runCount newTasks receipt
  let new := (admittedRun command admission runCount).countOperation .admitRun
  have hrows : ∀ r, r ∈ (s.apply e).runs.rows ↔ r ∈ s.runs.rows ∨ r = new := by
    intro r
    have hput : (s.apply e).runs.rows = s.runs.rows ++ [new] := Table.rows_put_new hfresh
    rw [hput, List.mem_append, List.mem_singleton]
  have htasks : ∀ taskId task', (s.apply e).tasks.get taskId = some task' →
      (taskId = command.taskId ∧ task'.runCount = runCount ∧ task'.latestRunId = admission.runId) ∨
        (taskId ≠ command.taskId ∧ s.tasks.get taskId = some task') := by
    intro taskId task' hget
    rw [Store.apply_tasks_get] at hget
    split at hget
    · rename_i heq
      cases hget
      exact Or.inl ⟨heq.trans hid, rfl, rfl⟩
    · rename_i hne
      exact Or.inr ⟨fun heq => hne (heq.trans hid.symm), hget⟩
  have hbound : ∀ r ∈ s.runs.rows, r.taskId = command.taskId → 1 ≤ r.ordinal ∧ r.ordinal < runCount := by
    intro r hr htaskId
    obtain ⟨prior, hget⟩ := hlineage.linked.runTask r hr
    have hle := hlineage.ordinal r hr prior hget
    rw [htaskId] at hget
    rw [hget, Option.map_some, Option.getD_some] at hcount
    omega
  refine ⟨hlinked, ?_, ?_, ?_, ?_, ?_, ?_, ?_⟩
  · intro r hr task' hget
    rcases (hrows r).1 hr with hold | rfl
    · rcases htasks _ _ hget with ⟨htaskId, hruns, -⟩ | ⟨-, hgetOld⟩
      · have hle := hbound r hold htaskId
        omega
      · exact hlineage.ordinal r hold task' hgetOld
    · rcases htasks _ _ hget with ⟨-, hruns, -⟩ | ⟨hne, -⟩
      · rw [hruns]
        exact ⟨by show 1 ≤ runCount; omega, le_rfl⟩
      · exact absurd rfl hne
  · intro a ha b hb htaskId hordinal
    rcases (hrows a).1 ha with holda | rfl
    · rcases (hrows b).1 hb with holdb | rfl
      · exact hlineage.unique a holda b holdb htaskId hordinal
      · have hlt := (hbound a holda htaskId).2
        have heq : a.ordinal = runCount := hordinal
        omega
    · rcases (hrows b).1 hb with holdb | rfl
      · have hlt := (hbound b holdb htaskId.symm).2
        have heq : runCount = b.ordinal := hordinal
        omega
      · rfl
  · intro taskId task' hget k hk hle
    rcases htasks _ _ hget with ⟨rfl, hruns, -⟩ | ⟨-, hgetOld⟩
    · rw [hruns] at hle
      by_cases hlast : k = runCount
      · exact ⟨new, (hrows new).2 (Or.inr rfl), rfl, hlast.symm⟩
      · cases hnamed : s.tasks.get command.taskId with
        | none =>
          rw [hnamed, Option.map_none, Option.getD_none] at hcount
          omega
        | some prior =>
          rw [hnamed, Option.map_some, Option.getD_some] at hcount
          obtain ⟨r, hr, hrest⟩ := hlineage.every _ prior hnamed k hk (by omega)
          exact ⟨r, (hrows r).2 (Or.inl hr), hrest⟩
    · obtain ⟨r, hr, hrest⟩ := hlineage.every _ task' hgetOld k hk hle
      exact ⟨r, (hrows r).2 (Or.inl hr), hrest⟩
  · intro taskId task' hget
    rcases htasks _ _ hget with ⟨rfl, hruns, hlatest⟩ | ⟨-, hgetOld⟩
    · exact ⟨new, (hrows new).2 (Or.inr rfl), rfl, hlatest.symm, hruns.symm⟩
    · obtain ⟨r, hr, hrest⟩ := hlineage.latest _ task' hgetOld
      exact ⟨r, (hrows r).2 (Or.inl hr), hrest⟩
  · intro r hr hlt
    rcases (hrows r).1 hr with hold | rfl
    · obtain ⟨prior, hprior, hrest⟩ := hlineage.previous r hold hlt
      exact ⟨prior, (hrows prior).2 (Or.inl hprior), hrest⟩
    · obtain ⟨prior, hprior, hrest⟩ := hprevious hlt
      exact ⟨prior, (hrows prior).2 (Or.inl hprior), hrest⟩
  · intro a ha b hb htaskId hactive hactive'
    rcases (hrows a).1 ha with holda | rfl
    · rcases (hrows b).1 hb with holdb | rfl
      · exact hlineage.active a holda b holdb htaskId hactive hactive'
      · cases hactive'
    · cases hactive
  · intro r hr hqueued task' hget
    rcases (hrows r).1 hr with hold | rfl
    · rcases htasks _ _ hget with ⟨htaskId, -⟩ | ⟨-, hgetOld⟩
      · exact absurd hqueued (hidle r hold htaskId)
      · exact hlineage.queued r hold hqueued task' hgetOld
    · rcases htasks _ _ hget with ⟨-, hruns, -⟩ | ⟨hne, -⟩
      · exact hruns.symm
      · exact absurd rfl hne

/-- A commit keeps the chains. -/
theorem Lineage.apply (hcommitted : Committed options s command e) (hlineage : Lineage s) :
    Lineage (s.apply e) := by
  have h := hcommitted.transition
  have hlinked := hlineage.linked.apply h
  cases h with
  | admitTask admission receipt _ hnone _ hadmissible =>
    have hnoRuns : ∀ r ∈ s.runs.rows, r.taskId ≠ command.taskId := by
      intro r hr htaskId
      obtain ⟨prior, hget⟩ := hlineage.linked.runTask r hr
      rw [htaskId, hnone] at hget
      cases hget
    exact hlineage.admission hlinked hadmissible.fresh rfl (by rw [hnone]; rfl)
      (fun hlt => absurd hlt (lt_irrefl 1)) fun r hr htaskId => absurd htaskId (hnoRuns r hr)
  | continueTask admission task previous receipt hbody htask _ hcontinues hadmissible =>
    refine hlineage.admission hlinked hadmissible.fresh
      (Store.taskId_of_get htask : task.taskId = _) (by rw [htask]; rfl) (fun _ => ?_)
      fun r hr htaskId => (hcontinues.idle r hr htaskId).1
    obtain ⟨hprevious, htaskId⟩ := hcontinues.retained
    obtain ⟨latest, hlatest, -, hid, hordinal⟩ := hlineage.latest _ task htask
    have hsame : previous = latest := Store.run_eq hprevious hlatest
      (hcontinues.latest.trans hid.symm)
    have hmode : admission.continuationMode.isSome = true := by
      have hschema := hcommitted.fenced.schema
      simp only [StoreCommand.schema, hbody, CommandBody.schema, RunAdmission.schema,
        Bool.and_eq_true, beq_iff_eq] at hschema
      rw [← hschema.2.2, hcontinues.named.1]
      rfl
    refine ⟨previous, hprevious, htaskId, by rw [hsame, hordinal], ?_⟩
    simp only [admittedRun, hcontinues.named.1, hmode, Option.isSome_some, Bool.and_self, if_true]
  | act task run e htask hrun _ _ _ _ hchange =>
    exact hlineage.steady hcommitted.transition
      (Transition.steady_act hlineage.linked htask hrun hchange)
  | retire reason atTime task named receipt _ htask _ hnamed =>
    refine hlineage.steady hcommitted.transition ⟨htask,
      (Store.taskId_of_get htask : task.taskId = _), rfl, rfl, ?_, ?_⟩
    · intro r hr hnone
      obtain ⟨run, hrun, rfl⟩ := Option.map_eq_some_iff.1 hr
      exact Table.get_eq_none.1 hnone run (hnamed run hrun).1 rfl
    · intro r hr old hold hid hactive
      obtain ⟨run, hrun, rfl⟩ := Option.map_eq_some_iff.1 hr
      rw [Store.run_eq hold (hnamed run hrun).1 hid]
      exact Or.inl hactive

omit [Platform] in
theorem Lineage.withOwner (h : Lineage s) (owner : Option OwnerToken) (epoch : Nat) :
    Lineage (s.withOwner owner epoch) :=
  { h with linked := h.linked.withOwner owner epoch }

/-- **The runs of every task of a reachable store form a chain.** -/
theorem Lineage.reachable (options : StoreOptions) (calls : List StoreCall) :
    Lineage (Store.empty.run options calls) :=
  Store.run_rule .empty (fun _ owner epoch hs => hs.withOwner owner epoch)
    (fun _ _ _ hs hcommitted => hs.apply hcommitted) calls

/-! ## The state of a task -/

/-- The state of every task is that of its runs, unless it is retired. -/
structure Derived (s : Store) : Prop where
  state : ∀ taskId task, s.tasks.get taskId = some task → task.state ≠ .retired →
    task.state = runsState (runsOf s.runs taskId)
  retired : ∀ taskId task, s.tasks.get taskId = some task → task.state = .retired →
    ∀ run ∈ s.runs.rows, run.taskId = taskId → run.phase = .settled
  retirement : ∀ taskId task, s.tasks.get taskId = some task →
    (task.state = .retired ↔ task.retirement.isSome = true)

omit [Platform] in
theorem Derived.empty : Derived .empty := by
  refine ⟨?_, ?_, ?_⟩ <;> simp [Store.empty]

omit [Platform] in
theorem runsState_ne_retired (runs : List RunRecord) : runsState runs ≠ .retired := by
  unfold runsState
  split
  · exact TaskState.noConfusion
  · split <;> exact TaskState.noConfusion

omit [Platform] in
/-- The state written is `retired` exactly when the transition leaves it so. -/
theorem Effect.finalTask_retired (e : Effect) (s : Store) :
    (e.finalTask s).state = .retired ↔ e.task.state = .retired := by
  unfold Effect.finalTask
  by_cases h : e.task.state = .retired
  · simp [h]
  · simp [h, runsState_ne_retired]

/-- A transition retires a task exactly when it records its retirement, and
only when all its runs are settled. -/
theorem Transition.retired (h : Transition options s command e) (hderived : Derived s) :
    (e.task.state = .retired ↔ e.task.retirement.isSome = true) ∧
      (e.task.state = .retired → ∀ run ∈ s.runs.rows, run.taskId = command.taskId →
        run.phase = .settled) ∧
      (e.task.state = .retired → ∀ r ∈ e.run, s.runs.get r.runId ≠ none) := by
  cases h with
  | admitTask admission receipt =>
    have hactive : ∀ p : Prop, TaskState.active = .retired → p := fun _ h => TaskState.noConfusion h
    exact ⟨⟨hactive _, Bool.noConfusion⟩, hactive _, hactive _⟩
  | continueTask admission task previous receipt _ htask _ hcontinues =>
    have hne : task.state ≠ .retired := hcontinues.state.1
    exact ⟨hderived.retirement _ task htask, fun hstate => absurd hstate hne,
      fun hstate => absurd hstate hne⟩
  | act task run e htask hrun _ _ _ _ hchange =>
    obtain ⟨new, hnew, hadvances, htask', -⟩ := hchange.advances
    rw [htask']
    refine ⟨hderived.retirement _ task htask, hderived.retired _ task htask, ?_⟩
    intro _ r hr hnone
    rw [hnew] at hr
    cases hr
    exact Table.get_eq_none.1 hnone run hrun hadvances.runId.symm
  | retire reason atTime task named receipt _ _ _ hnamed _ hsettled =>
    refine ⟨by simp, fun _ => hsettled, ?_⟩
    intro _ r hr hnone
    obtain ⟨run, hrun, rfl⟩ := Option.map_eq_some_iff.1 hr
    exact Table.get_eq_none.1 hnone run (hnamed run hrun).1 rfl

omit [Platform] in
/-- A settled run stays settled. -/
theorem Advances.settled (h : Advances run run') (hsettled : run.phase = .settled) :
    run'.phase = .settled := by
  have hrank := h.rank
  rw [hsettled] at hrank
  cases hp : run'.phase <;> simp [hp, RunPhase.rank] at hrank ⊢

/-- A transition keeps the states derived. -/
theorem Derived.apply (h : Transition options s command e) (hderived : Derived s) :
    Derived (s.apply e) := by
  have hplaced := h.place
  obtain ⟨hretirement, hsettled, hknown⟩ := h.retired hderived
  have htasks : ∀ taskId task, (s.apply e).tasks.get taskId = some task →
      (taskId = command.taskId ∧ task = e.finalTask s) ∨
        (taskId ≠ command.taskId ∧ s.tasks.get taskId = some task) := by
    intro taskId task hget
    rw [Store.apply_tasks_get, hplaced.task] at hget
    split at hget
    · rename_i heq
      exact Or.inl ⟨heq, (Option.some.inj hget).symm⟩
    · rename_i hne
      exact Or.inr ⟨hne, hget⟩
  refine ⟨?_, ?_, ?_⟩
  · intro taskId task hget hlive
    rcases htasks _ _ hget with ⟨rfl, rfl⟩ | ⟨hne, hgetOld⟩
    · have hopen : e.task.state ≠ .retired := fun hstate =>
        hlive ((e.finalTask_retired s).2 hstate)
      unfold Effect.finalTask
      rw [if_neg hopen, hplaced.task]
      rfl
    · rw [hderived.state _ task hgetOld hlive]
      refine congrArg runsState (runsOf_putOption_of_ne ?_ ?_).symm
      · intro r hr htaskId
        exact hne (htaskId.symm.trans (hplaced.run r hr))
      · intro r hr old hold hid htaskId
        exact hne (htaskId.symm.trans (hplaced.old r hr old hold hid))
  · intro taskId task hget hretired run hrun htaskId
    rcases h.run_origin hrun with ⟨old, hold, hadvances⟩ | ⟨hnew, hfresh⟩
    · refine hadvances.settled ?_
      have holdTask : old.taskId = taskId := hadvances.taskId.symm.trans htaskId
      rcases htasks _ _ hget with ⟨rfl, rfl⟩ | ⟨-, hgetOld⟩
      · exact hsettled ((e.finalTask_retired s).1 hretired) old hold holdTask
      · exact hderived.retired _ task hgetOld hretired old hold holdTask
    · rcases htasks _ _ hget with ⟨rfl, rfl⟩ | ⟨hne, -⟩
      · exact absurd hfresh (hknown ((e.finalTask_retired s).1 hretired) run hnew)
      · exact absurd (htaskId.symm.trans (hplaced.run run hnew)) hne
  · intro taskId task hget
    rcases htasks _ _ hget with ⟨rfl, rfl⟩ | ⟨-, hgetOld⟩
    · exact (e.finalTask_retired s).trans hretirement
    · exact hderived.retirement _ task hgetOld

/-- **The state of every task of a reachable store is derived.** -/
theorem Derived.reachable (options : StoreOptions) (calls : List StoreCall) :
    Derived (Store.empty.run options calls) :=
  Store.run_rule .empty (fun _ _ _ hs => ⟨hs.state, hs.retired, hs.retirement⟩)
    (fun _ _ _ hs hcommitted => hs.apply hcommitted.transition) calls

omit [Platform] in
/-- A run that requires recovery goes on requiring it. -/
theorem Advances.needsRecovery (h : Advances run run') (hrecovery : run.needsRecovery = true) :
    run'.needsRecovery = true := by
  simp only [RunRecord.needsRecovery, Bool.or_eq_true] at hrecovery ⊢
  rcases hrecovery with houtcome | hreason
  · refine Or.inl ?_
    have hsome : run.outcome.isSome = true := by
      cases hout : run.outcome <;> simp [hout] at houtcome ⊢
    rw [(h.final hsome).1]
    exact houtcome
  · exact Or.inr (h.recovery hreason)

/-- A task that requires recovery goes on requiring it, or is retired. -/
theorem Transition.recovery_kept (h : Transition options s command e) (hderived : Derived s)
    {taskId : JsString} (hget : s.tasks.get taskId = some task)
    (hrecovery : task.state = .recoveryRequired) :
    ∃ task', (s.apply e).tasks.get taskId = some task' ∧
      (task'.state = .recoveryRequired ∨ task'.state = .retired) := by
  obtain ⟨task', hget', -⟩ := h.exists_advanced_task hget
  refine ⟨task', hget', ?_⟩
  by_cases hretired : task'.state = .retired
  · exact Or.inr hretired
  · refine Or.inl ?_
    rw [(hderived.apply h).state _ task' hget' hretired]
    have hstate := hderived.state _ task hget (by rw [hrecovery]; exact TaskState.noConfusion)
    rw [hrecovery] at hstate
    -- A run that required recovery is still there and still requires it.
    have hany : (runsOf s.runs taskId).any RunRecord.needsRecovery = true := by
      by_contra hnone
      rw [runsState, if_neg hnone] at hstate
      split at hstate <;> cases hstate
    obtain ⟨run, hrun, hneeds⟩ := List.any_eq_true.1 hany
    obtain ⟨hmem, htaskId⟩ := List.mem_filter.1 hrun
    obtain ⟨new, hnew, hadvances⟩ := h.exists_advanced hmem
    have hany' : (runsOf (s.apply e).runs taskId).any RunRecord.needsRecovery = true :=
      List.any_eq_true.2 ⟨new, List.mem_filter.2 ⟨hnew, decide_eq_true
        (hadvances.taskId.trans (of_decide_eq_true htaskId))⟩, hadvances.needsRecovery hneeds⟩
    rw [runsState, if_pos hany']

/-! ## The notifications of settled runs -/

/-- Retained runs have notifications of different identities: the digests of
their names do not collide. -/
def CollisionFree (s : Store) : Prop :=
  ∀ a ∈ s.runs.rows, ∀ b ∈ s.runs.rows, notificationIdOf a.runId = notificationIdOf b.runId →
    a.runId = b.runId

/-- Notifications report the outcomes of settled runs, and no settled run lost
its notification. -/
structure Notified (s : Store) : Prop where
  origin : ∀ n ∈ s.notifications.rows, n.key = notificationIdOf n.envelope.runId ∧
    ∃ run ∈ s.runs.rows, run.runId = n.envelope.runId ∧ run.outcome = some n.envelope.outcome
  every : ∀ run ∈ s.runs.rows, run.outcome.isSome = true →
    ∃ n ∈ s.notifications.rows, n.envelope.runId = run.runId

theorem Notified.empty : Notified .empty := by
  refine ⟨?_, ?_⟩ <;> simp [Store.empty]

/-- The runs retained before a transition are among those retained after it. -/
theorem CollisionFree.before (h : Transition options s command e)
    (hfree : CollisionFree (s.apply e)) : CollisionFree s := by
  intro a ha b hb heq
  obtain ⟨a', ha', hadva⟩ := h.exists_advanced ha
  obtain ⟨b', hb', hadvb⟩ := h.exists_advanced hb
  rw [← hadva.runId, ← hadvb.runId] at heq ⊢
  exact hfree a' ha' b' hb' heq

/-- A transition that ends no run keeps the notifications, or replaces one by
another with the same envelope. -/
theorem Notified.quiet (h : Transition options s command e) (hnotified : Notified s)
    (hkept : ∀ n ∈ e.notification, ∃ prior, s.notifications.get n.key = some prior ∧
      n.envelope = prior.envelope)
    (hends : ∀ r ∈ e.run, r.outcome.isSome = true →
      ∃ old ∈ s.runs.rows, old.runId = r.runId ∧ old.outcome.isSome = true) :
    Notified (s.apply e) := by
  have hfrom : ∀ n ∈ s.notifications.rows, ∃ run ∈ (s.apply e).runs.rows,
      run.runId = n.envelope.runId ∧ run.outcome = some n.envelope.outcome := by
    intro n hn
    obtain ⟨-, old, hold, hid, houtcome⟩ := hnotified.origin n hn
    obtain ⟨new, hnew, hadvances⟩ := h.exists_advanced hold
    refine ⟨new, hnew, hadvances.runId.trans hid, ?_⟩
    rw [(hadvances.final (by rw [houtcome]; rfl)).1, houtcome]
  refine ⟨?_, ?_⟩
  · intro n hn
    rcases Table.mem_putOption.1 hn with hwritten | ⟨hretained, -⟩
    · obtain ⟨prior, hprior, henvelope⟩ := hkept n hwritten
      obtain ⟨hmem, hkey⟩ := Table.get_eq_some.1 hprior
      rw [henvelope, ← hkey]
      exact ⟨(hnotified.origin prior hmem).1, hfrom prior hmem⟩
    · exact ⟨(hnotified.origin n hretained).1, hfrom n hretained⟩
  · intro r hr houtcome
    obtain ⟨old, hold, hid, hsome⟩ : ∃ old ∈ s.runs.rows, old.runId = r.runId ∧
        old.outcome.isSome = true := by
      rcases Table.mem_putOption.1 hr with hwritten | ⟨hretained, -⟩
      · exact hends r hwritten houtcome
      · exact ⟨r, hretained, rfl, houtcome⟩
    obtain ⟨n, hn, hrunId⟩ := hnotified.every old hold hsome
    by_cases hreplaced : ∃ m ∈ e.notification, n.key = m.key
    · obtain ⟨m, hm, hkey⟩ := hreplaced
      obtain ⟨prior, hprior, henvelope⟩ := hkept m hm
      rw [← hkey, Table.get_of_mem hn] at hprior
      cases hprior
      exact ⟨m, Table.mem_putOption.2 (Or.inl hm), by rw [henvelope, hrunId, hid]⟩
    · simp only [not_exists, not_and] at hreplaced
      exact ⟨n, Table.mem_putOption.2 (Or.inr ⟨hn, hreplaced⟩), hrunId.trans hid⟩

/-- A transition that ends a run adds its notification. -/
theorem Notified.settled (h : Transition options s command e) (hnotified : Notified s)
    (hfree : CollisionFree s) (hrun : run ∈ s.runs.rows) (hrun' : e.run = some run')
    (hid : run'.runId = run.runId) (houtcome : run.outcome = none) {n : NotificationRecord}
    (hnotification : e.notification = some n) (hkey : n.key = notificationIdOf n.envelope.runId)
    (hrunId : n.envelope.runId = run.runId) (hreported : run'.outcome = some n.envelope.outcome) :
    Notified (s.apply e) := by
  have hwritten : run' ∈ (s.apply e).runs.rows := Table.mem_putOption.2 (Or.inl hrun')
  have hadded : n ∈ (s.apply e).notifications.rows := Table.mem_putOption.2 (Or.inl hnotification)
  -- The notification of a settled run has another identity.
  have hother : ∀ m ∈ s.notifications.rows, m.key ≠ n.key := by
    intro m hm hsame
    obtain ⟨hmkey, old, hold, holdId, holdOutcome⟩ := hnotified.origin m hm
    have hcollide : notificationIdOf old.runId = notificationIdOf run.runId := by
      rw [holdId, ← hmkey, hsame, hkey, hrunId]
    have hsameRun : old = run := Store.run_eq hold hrun (hfree old hold run hrun hcollide)
    rw [hsameRun, houtcome] at holdOutcome
    cases holdOutcome
  refine ⟨?_, ?_⟩
  · intro m hm
    rcases Table.mem_putOption.1 hm with hnew | ⟨hretained, -⟩
    · rw [hnotification] at hnew
      cases hnew
      exact ⟨hkey, run', hwritten, hid.trans hrunId.symm, hreported⟩
    · obtain ⟨hmkey, old, hold, holdId, holdOutcome⟩ := hnotified.origin m hretained
      obtain ⟨new, hnew, hadvances⟩ := h.exists_advanced hold
      refine ⟨hmkey, new, hnew, hadvances.runId.trans holdId, ?_⟩
      rw [(hadvances.final (by rw [holdOutcome]; rfl)).1, holdOutcome]
  · intro r hr hsome
    rcases Table.mem_putOption.1 hr with hnew | ⟨hretained, -⟩
    · rw [hrun'] at hnew
      cases hnew
      exact ⟨n, hadded, hrunId.trans hid.symm⟩
    · obtain ⟨m, hm, hmrun⟩ := hnotified.every r hretained hsome
      refine ⟨m, Table.mem_putOption.2 (Or.inr ⟨hm, fun u hu => ?_⟩), hmrun⟩
      rw [hnotification] at hu
      cases hu
      exact hother m hm

/-- A transition keeps the notifications of settled runs. -/
theorem Notified.apply (h : Transition options s command e) (hfree : CollisionFree (s.apply e))
    (hnotified : Notified s) : Notified (s.apply e) := by
  have hbefore := hfree.before h
  have htransition := h
  have hquiet : (∀ r ∈ e.run, r.outcome.isSome = true →
      ∃ old ∈ s.runs.rows, old.runId = r.runId ∧ old.outcome.isSome = true) →
      e.notification = none → Notified (s.apply e) := fun hends hnone =>
    hnotified.quiet h (fun n hn => by rw [hnone] at hn; cases hn) hends
  cases h with
  | admitTask | continueTask =>
    refine hquiet (fun r hr hsome => ?_) rfl
    rw [admissionEffect] at hr
    cases hr
    cases hsome
  | retire reason atTime task named receipt _ _ _ hnamed =>
    refine hquiet (fun r hr hsome => ?_) rfl
    obtain ⟨run, hrun, rfl⟩ := Option.map_eq_some_iff.1 hr
    exact ⟨run, (hnamed run hrun).1, rfl, hsome⟩
  | act task run e _ hrun _ _ _ _ hchange =>
    obtain ⟨run', hrun', hended⟩ := hchange.ended
    have hid : run'.runId = run.runId := by
      obtain ⟨new, hnew, hadvances, -⟩ := hchange.advances
      rw [hrun', Option.some.injEq] at hnew
      rw [hnew, hadvances.runId]
    cases hended with
    | untouched _ houtcome _ _ _ hkept =>
      refine hnotified.quiet htransition hkept fun r hr hsome => ?_
      rw [hrun'] at hr
      cases hr
      exact ⟨run, hrun, hid.symm, houtcome ▸ hsome⟩
    | settled base outcome atTime expiresAt houtcome _ hnotification =>
      exact hnotified.settled htransition hbefore hrun hrun' hid houtcome hnotification rfl rfl
        rfl

/-- The notifications of a reachable store whose digests do not collide. -/
theorem Notified.reachable (options : StoreOptions) (calls : List StoreCall)
    (hfree : CollisionFree (Store.empty.run options calls)) :
    Notified (Store.empty.run options calls) :=
  Store.run_rule (P := fun s => CollisionFree s → Notified s) (fun _ => .empty)
    (fun _ _ _ hs hfree => ⟨(hs hfree).origin, (hs hfree).every⟩)
    (fun _ _ _ hs hcommitted hfree =>
      (hs (hfree.before hcommitted.transition)).apply hcommitted.transition hfree) calls hfree

/-! ## Later stores -/

/-- A task retired stays retired. -/
theorem Transition.retired_kept (h : Transition options s command e) {taskId : JsString}
    (hget : s.tasks.get taskId = some task) (hretired : task.state = .retired) :
    ∃ task', (s.apply e).tasks.get taskId = some task' ∧ task'.state = .retired := by
  have hkept : taskId ≠ e.task.taskId →
      ∃ task', (s.apply e).tasks.get taskId = some task' ∧ task'.state = .retired := fun hne =>
    ⟨task, by rw [Store.apply_tasks_get, if_neg hne, hget], hretired⟩
  by_cases hid : taskId = e.task.taskId
  · refine ⟨e.finalTask s, by rw [Store.apply_tasks_get, if_pos hid], (e.finalTask_retired s).2 ?_⟩
    have hnamed : taskId = command.taskId := hid.trans h.place.task
    subst hnamed
    cases h with
    | admitTask _ _ _ hnone =>
      rw [hnone] at hget
      cases hget
    | continueTask _ prior _ _ _ hprior _ hcontinues =>
      rw [hprior] at hget
      cases hget
      exact absurd hretired hcontinues.state.1
    | act prior run e hprior _ _ _ _ _ hchange =>
      obtain ⟨-, -, -, htask, -⟩ := hchange.advances
      rw [hprior] at hget
      cases hget
      rw [htask]
      exact hretired
    | retire => rfl
  · exact hkept hid

/-- What a store keeps of an earlier one. -/
structure Outlives (s s' : Store) : Prop where
  runs : ∀ run ∈ s.runs.rows, ∃ run' ∈ s'.runs.rows, Advances run run'
  recovery : ∀ taskId task, s.tasks.get taskId = some task → task.state = .recoveryRequired →
    ∃ task', s'.tasks.get taskId = some task' ∧
      (task'.state = .recoveryRequired ∨ task'.state = .retired)
  retired : ∀ taskId task, s.tasks.get taskId = some task → task.state = .retired →
    ∃ task', s'.tasks.get taskId = some task' ∧ task'.state = .retired

omit [Platform] in
theorem Outlives.refl (s : Store) : Outlives s s :=
  ⟨fun run hrun => ⟨run, hrun, .refl run⟩, fun _ task hget hstate => ⟨task, hget, Or.inl hstate⟩,
    fun _ task hget hstate => ⟨task, hget, hstate⟩⟩

omit [Platform] in
theorem Outlives.trans {a b c : Store} (hab : Outlives a b) (hbc : Outlives b c) :
    Outlives a c := by
  refine ⟨fun run hrun => ?_, fun taskId task hget hstate => ?_, fun taskId task hget hstate => ?_⟩
  · obtain ⟨run', hrun', hadvances⟩ := hab.runs run hrun
    obtain ⟨run'', hrun'', hadvances'⟩ := hbc.runs run' hrun'
    exact ⟨run'', hrun'', hadvances.trans hadvances'⟩
  · obtain ⟨task', hget', hrecovery | hretired⟩ := hab.recovery taskId task hget hstate
    · exact hbc.recovery taskId task' hget' hrecovery
    · obtain ⟨task'', hget'', hstate''⟩ := hbc.retired taskId task' hget' hretired
      exact ⟨task'', hget'', Or.inr hstate''⟩
  · obtain ⟨task', hget', hretired⟩ := hab.retired taskId task hget hstate
    exact hbc.retired taskId task' hget' hretired

theorem Derived.step (hderived : Derived s) (call : StoreCall) :
    Derived (s.step options call) ∧ Outlives s (s.step options call) := by
  obtain ⟨owner, epoch, hstep⟩ | ⟨command, e, -, hcommitted, hstep⟩ :=
    Store.step_cases options s call
  · rw [hstep]
    have hrefl := Outlives.refl s
    exact ⟨⟨hderived.state, hderived.retired, hderived.retirement⟩, hrefl.runs, hrefl.recovery,
      hrefl.retired⟩
  · have h := hcommitted.transition
    rw [hstep]
    exact ⟨hderived.apply h, fun run hrun => h.exists_advanced hrun,
      fun _ _ hget hstate => h.recovery_kept hderived hget hstate,
      fun _ _ hget hstate => h.retired_kept hget hstate⟩

/-- Later calls only advance the runs, and a task that requires recovery can
only be retired. -/
theorem Derived.outlives (options : StoreOptions) (hderived : Derived s) (more : List StoreCall) :
    Outlives s (s.run options more) :=
  Machine.run_related Outlives.refl (fun _ _ _ => .trans) (fun _ call hs => (hs.step call).1)
    (fun _ call hs => (hs.step call).2) hderived more

/-! ## The life of a task -/

/-- The chain of runs of a task and the state derived from it. -/
structure TaskLife (s : Store) (taskId : JsString) (task : TaskRecord) : Prop where
  ordinals : ∀ k, (1 ≤ k ∧ k ≤ task.runCount) ↔
    ∃ run ∈ s.runs.rows, run.taskId = taskId ∧ run.ordinal = k
  distinct : ∀ a ∈ s.runs.rows, ∀ b ∈ s.runs.rows, a.taskId = taskId → b.taskId = taskId →
    a.ordinal = b.ordinal → a = b
  latest : ∀ run ∈ s.runs.rows, run.taskId = taskId →
    (run.runId = task.latestRunId ↔ run.ordinal = task.runCount)
  previous : ∀ run ∈ s.runs.rows, run.taskId = taskId → 1 < run.ordinal →
    ∃ prior ∈ s.runs.rows, prior.taskId = taskId ∧ prior.ordinal + 1 = run.ordinal ∧
      run.previousRunId = some prior.runId
  active : ∀ a ∈ s.runs.rows, ∀ b ∈ s.runs.rows, a.taskId = taskId → b.taskId = taskId →
    a.phase.active = true → b.phase.active = true → a = b
  queued : ∀ a ∈ s.runs.rows, a.taskId = taskId → a.phase = .queued →
    a.runId = task.latestRunId ∧ ∀ b ∈ s.runs.rows, b.taskId = taskId → b.phase = .queued → a = b
  retirement : task.state = .retired ↔ task.retirement.isSome = true
  retired : task.state = .retired → ∀ run ∈ s.runs.rows, run.taskId = taskId →
    run.phase = .settled
  recovery : task.state ≠ .retired → (task.state = .recoveryRequired ↔
    ∃ run ∈ s.runs.rows, run.taskId = taskId ∧ run.needsRecovery = true)
  unsettled : task.state ≠ .retired → task.state ≠ .recoveryRequired → (task.state = .active ↔
    ∃ run ∈ s.runs.rows, run.taskId = taskId ∧ run.phase ≠ .settled)
  settled : task.state ≠ .retired → task.state ≠ .recoveryRequired → (task.state = .settled ↔
    ∀ run ∈ s.runs.rows, run.taskId = taskId → run.phase = .settled)

/-- The phase of a run, the marks of its end and its notification. -/
structure RunLife (s : Store) (run : RunRecord) : Prop where
  waiting : run.phase = .waiting ↔ ∃ request ∈ run.pendingRequest, request.state = .waiting
  outcome : run.phase = .settled ↔ run.outcome.isSome = true
  settledAt : run.phase = .settled ↔ run.settledAt.isSome = true
  finalization : run.phase = .settled ↔ run.finalization.isSome = true
  notified : run.phase = .settled ↔
    ∃! n, n ∈ s.notifications.rows ∧ n.envelope.runId = run.runId
  reported : ∀ n ∈ s.notifications.rows, n.envelope.runId = run.runId →
    run.outcome = some n.envelope.outcome

omit [Platform] in
theorem mem_runsOf {runs : Table RunRecord.runId} {taskId : JsString} :
    run ∈ runsOf runs taskId ↔ run ∈ runs.rows ∧ run.taskId = taskId := by
  rw [runsOf, List.mem_filter, decide_eq_true_iff]

omit [Platform] in
/-- The state derived from the runs, by their properties. -/
theorem runsState_cases (runs : List RunRecord) :
    (runsState runs = .recoveryRequired ∧ ∃ run ∈ runs, run.needsRecovery = true) ∨
      ((∀ run ∈ runs, run.needsRecovery = false) ∧
        ((runsState runs = .active ∧ ∃ run ∈ runs, run.phase ≠ .settled) ∨
          (runsState runs = .settled ∧ ∀ run ∈ runs, run.phase = .settled))) := by
  by_cases hrecovery : runs.any RunRecord.needsRecovery = true
  · exact Or.inl ⟨by rw [runsState, if_pos hrecovery], List.any_eq_true.1 hrecovery⟩
  · refine Or.inr ⟨fun run hrun => Bool.eq_false_iff.2 fun hneeds =>
      hrecovery (List.any_eq_true.2 ⟨run, hrun, hneeds⟩), ?_⟩
    by_cases hopen : runs.any (fun run => decide (run.phase ≠ .settled)) = true
    · obtain ⟨run, hrun, hphase⟩ := List.any_eq_true.1 hopen
      exact Or.inl ⟨by rw [runsState, if_neg hrecovery, if_pos hopen], run, hrun,
        of_decide_eq_true hphase⟩
    · refine Or.inr ⟨by rw [runsState, if_neg hrecovery, if_neg hopen], fun run hrun => ?_⟩
      by_contra hphase
      exact hopen (List.any_eq_true.2 ⟨run, hrun, decide_eq_true hphase⟩)

omit [Platform] in
theorem TaskLife.of_invariants (hlineage : Lineage s) (hderived : Derived s) {taskId : JsString}
    (hget : s.tasks.get taskId = some task) : TaskLife s taskId task := by
  have hruns := runsState_cases (runsOf s.runs taskId)
  simp only [mem_runsOf, and_assoc] at hruns
  have hlatest : ∀ run ∈ s.runs.rows, run.taskId = taskId →
      (run.runId = task.latestRunId ↔ run.ordinal = task.runCount) := by
    intro run hrun htaskId
    obtain ⟨last, hlast, hlastTask, hid, hordinal⟩ := hlineage.latest taskId task hget
    constructor
    · intro hrunId
      rw [Store.run_eq hrun hlast (hrunId.trans hid.symm), hordinal]
    · intro hcount
      rw [hlineage.unique run hrun last hlast (htaskId.trans hlastTask.symm)
        (hcount.trans hordinal.symm), hid]
  refine ⟨fun k => ⟨?_, ?_⟩, ?_, hlatest, ?_, ?_, ?_, hderived.retirement taskId task hget,
    hderived.retired taskId task hget, ?_, ?_, ?_⟩
  · rintro ⟨hk, hle⟩
    exact hlineage.every taskId task hget k hk hle
  · rintro ⟨run, hrun, htaskId, rfl⟩
    exact hlineage.ordinal run hrun task (htaskId ▸ hget)
  · intro a ha b hb hta htb
    exact hlineage.unique a ha b hb (hta.trans htb.symm)
  · intro run hrun htaskId hlt
    obtain ⟨prior, hprior, hsame, hrest⟩ := hlineage.previous run hrun hlt
    exact ⟨prior, hprior, hsame.trans htaskId, hrest⟩
  · intro a ha b hb hta htb
    exact hlineage.active a ha b hb (hta.trans htb.symm)
  · intro a ha hta hqueued
    have hcount := hlineage.queued a ha hqueued task (hta ▸ hget)
    refine ⟨(hlatest a ha hta).2 hcount, fun b hb htb hqueued' => ?_⟩
    exact hlineage.unique a ha b hb (hta.trans htb.symm)
      (hcount.trans (hlineage.queued b hb hqueued' task (htb ▸ hget)).symm)
  · intro hlive
    rw [hderived.state taskId task hget hlive]
    rcases hruns with ⟨hstate, hany⟩ | ⟨hnone, hstate⟩
    · exact ⟨fun _ => hany, fun _ => hstate⟩
    · constructor
      · intro hrecovery
        rw [hrecovery] at hstate
        rcases hstate with ⟨hstate, -⟩ | ⟨hstate, -⟩ <;> cases hstate
      · rintro ⟨run, hrun, htaskId, hneeds⟩
        rw [hnone run ⟨hrun, htaskId⟩] at hneeds
        cases hneeds
  · intro hlive hcalm
    rw [hderived.state taskId task hget hlive] at hcalm ⊢
    rcases hruns with ⟨hstate, -⟩ | ⟨-, ⟨hstate, hopen⟩ | ⟨hstate, hclosed⟩⟩
    · exact absurd hstate hcalm
    · exact ⟨fun _ => hopen, fun _ => hstate⟩
    · rw [hstate]
      exact ⟨TaskState.noConfusion, fun ⟨run, hrun, htaskId, hne⟩ =>
        absurd (hclosed run ⟨hrun, htaskId⟩) hne⟩
  · intro hlive hcalm
    rw [hderived.state taskId task hget hlive] at hcalm ⊢
    rcases hruns with ⟨hstate, -⟩ | ⟨-, ⟨hstate, run, hrun, htaskId, hne⟩ | ⟨hstate, hclosed⟩⟩
    · exact absurd hstate hcalm
    · rw [hstate]
      exact ⟨TaskState.noConfusion, fun hall => absurd (hall run hrun htaskId) hne⟩
    · exact ⟨fun _ run hrun htaskId => hclosed run ⟨hrun, htaskId⟩, fun _ => hstate⟩

theorem RunLife.of_invariants (hlinked : Linked s) (hnotified : Notified s)
    (hrun : run ∈ s.runs.rows) : RunLife s run := by
  have hsound := hlinked.sound run hrun
  have hreported : ∀ n ∈ s.notifications.rows, n.envelope.runId = run.runId →
      run.outcome = some n.envelope.outcome := by
    intro n hn hid
    obtain ⟨-, old, hold, holdId, houtcome⟩ := hnotified.origin n hn
    rw [Store.run_eq hrun hold (hid.symm.trans holdId.symm), houtcome]
  refine ⟨hsound.waiting, hsound.outcome, hsound.settledAt, hsound.finalization, ⟨?_, ?_⟩,
    hreported⟩
  · intro hsettled
    obtain ⟨n, hn, hid⟩ := hnotified.every run hrun (hsound.outcome.1 hsettled)
    refine ⟨n, ⟨hn, hid⟩, fun m ⟨hm, hmid⟩ => Table.eq_of_key_eq hm hn ?_⟩
    rw [(hnotified.origin m hm).1, (hnotified.origin n hn).1, hmid, hid]
  · rintro ⟨n, ⟨hn, hid⟩, -⟩
    rw [hsound.outcome, hreported n hn hid]
    rfl

/-- **The life of tasks and runs.**  After any list of calls on the store, the
runs of every task form one chain from which its state is derived, every run
agrees with its phase and every settled run has the one notification that
reports its outcome.  Whatever calls follow, an outcome recorded does not
change and a task that requires recovery can only be retired. -/
theorem lifecycle_invariant (options : StoreOptions) (calls : List StoreCall)
    (hfree : CollisionFree (Store.empty.run options calls)) :
    (∀ taskId task, (Store.empty.run options calls).tasks.get taskId = some task →
        TaskLife (Store.empty.run options calls) taskId task) ∧
      (∀ run ∈ (Store.empty.run options calls).runs.rows,
        RunLife (Store.empty.run options calls) run) ∧
      ∀ more,
        (∀ run ∈ (Store.empty.run options calls).runs.rows, run.outcome.isSome = true →
          ∃ run' ∈ ((Store.empty.run options calls).run options more).runs.rows,
            run'.runId = run.runId ∧ run'.outcome = run.outcome ∧
              run'.settledAt = run.settledAt) ∧
        ∀ taskId task, (Store.empty.run options calls).tasks.get taskId = some task →
          task.state = .recoveryRequired →
          ∃ task', ((Store.empty.run options calls).run options more).tasks.get taskId =
              some task' ∧ (task'.state = .recoveryRequired ∨ task'.state = .retired) := by
  have hlineage := Lineage.reachable options calls
  have hderived := Derived.reachable options calls
  refine ⟨fun taskId task hget => .of_invariants hlineage hderived hget, fun run hrun =>
    .of_invariants hlineage.linked (Notified.reachable options calls hfree) hrun, fun more => ?_⟩
  have houtlives := hderived.outlives options more
  refine ⟨fun run hrun hsome => ?_, houtlives.recovery⟩
  obtain ⟨run', hrun', hadvances⟩ := houtlives.runs run hrun
  exact ⟨run', hrun', hadvances.runId, (hadvances.final hsome).1, (hadvances.final hsome).2.1⟩

end Life

/-! ## A run that is cancelled before it starts -/

section Sample

/-- The hash of the runtime. -/
local instance : Platform := hashPlatform

def sampleOptions : StoreOptions where
  storeId := js "00000000-0000-4000-8000-000000000001"
  limits := {}
  storeId_uuid := by decide +kernel
  limits_valid := by constructor <;> decide +kernel

def sampleOwner : OwnerToken :=
  ⟨sampleOptions.storeId, 1, js "00000000-0000-4000-8000-000000000002"⟩

def sampleParent : ParentScope := ⟨js "session", js "main", 1⟩

def sampleTarget : TargetReference := ⟨js "catalog", 1, js "worker", 1, js "source", 1⟩

def sampleTime : JsString := js "2025-01-01T00:00:00.000Z"

def sampleAdmission : RunAdmission where
  parent := sampleParent
  ancestorTaskId := none
  depth := 1
  policyCeiling := ⟨ceilingDigest sampleParent [sampleTarget], sampleParent, [sampleTarget]⟩
  completionPolicy := .automatic
  runId := js "00000000-0000-4000-8000-000000000004"
  previousRunId := none
  continuationMode := none
  target := sampleTarget
  policyRevision := 1
  originPolicyRevision := 1
  input := ⟨[.text (js "Summarize the findings.")], none⟩
  createdAt := sampleTime
  deadlineAt := js "2025-01-01T00:30:00.000Z"
  queuedStartDeadlineAt := js "2025-01-01T00:05:00.000Z"

/-- A command on the one task of the history. -/
def sampleCommand (operationId : JsString) (revisions : Option (Nat × Nat)) (body : CommandBody) :
    StoreCommand where
  owner := sampleOwner
  operationId := operationId
  inputDigest := js "e3b0c44298fc1c149afbf4c8996fb92427ae41e4649b934ca495991b7852b855"
  taskId := js "00000000-0000-4000-8000-000000000003"
  expectedTaskRevision := (revisions.map Prod.fst).getD 0
  runId := revisions.map fun _ => sampleAdmission.runId
  expectedRunRevision := revisions.map Prod.snd
  body := body

def sampleAdmit : StoreCommand :=
  sampleCommand (js "00000000-0000-4000-8000-000000000005") none (.admitRun sampleAdmission)

def sampleCancel : StoreCommand :=
  sampleCommand (js "00000000-0000-4000-8000-000000000006") (some (1, 1))
    (.cancel sampleTime (js "stop"))

/-- An owner admits a task and cancels it while its run is queued. -/
def sampleCalls : List StoreCall :=
  [.acquireOwner sampleOwner.nonce, .commit sampleAdmit, .commit sampleCancel]

/-! The rows that the history writes, spelled out, so that each call is evaluated once. -/

local instance {α κ : Type} [DecidableEq α] {key : α → κ} : DecidableEq (Table key) :=
  fun s t => decidable_of_iff (s.rows = t.rows) ⟨Table.eq_of_rows, congrArg _⟩

deriving instance DecidableEq for Store

def sampleReceipt : CommitReceipt where
  duplicate := false
  status := .queued
  taskId := sampleAdmit.taskId
  taskRevision := 1
  runId := some sampleAdmission.runId
  runRevision := some 1
  operationId := some sampleAdmit.operationId

def sampleTask : TaskRecord where
  storeId := sampleOptions.storeId
  taskId := sampleAdmit.taskId
  parent := sampleParent
  ancestorTaskId := none
  depth := 1
  policyCeilingRef := sampleAdmission.policyCeiling.ceilingId
  completionPolicy := .automatic
  state := .active
  revision := 1
  latestRunId := sampleAdmission.runId
  runCount := 1
  createdAt := sampleTime
  retiredAt := none
  retirement := none

def sampleRun : RunRecord :=
  { admittedRun sampleAdmit sampleAdmission 1 with ordinaryOperationCount := 1 }

/-- The store of its first owner. -/
def ownedStore : Store :=
  { Store.empty with owner := some sampleOwner, epoch := 1 }

/-- The store that queues the run. -/
def admittedStore : Store :=
  { ownedStore with
    capacity := { Capacity.zero with
      tasks := 1, runs := 1, queuedRuns := 1, retainedInputBytes := 336, ordinaryOperations := 1,
      reservedBytes := 40960, criticalSlots := 4 }
    tasks := Table.empty.put sampleTask
    runs := Table.empty.put sampleRun
    operations := Table.empty.put (operationRow sampleAdmit sampleTask sampleReceipt
      sampleAdmission.runId .admitRun sampleTime 1 none)
    ceilings := Table.empty.put sampleAdmission.policyCeiling }

/-- The task whose only run ended. -/
def sampleSettledTask : TaskRecord := { sampleTask with state := .settled, revision := 2 }

/-- The receipt of the command that ended the run. -/
def sampleSettledReceipt (operationId : JsString) : CommitReceipt where
  duplicate := false
  status := .settled
  taskId := sampleAdmit.taskId
  taskRevision := 2
  runId := some sampleAdmission.runId
  runRevision := some 2
  operationId := some operationId
  notificationId := some (notificationIdOf sampleAdmission.runId)

/-- The notification of the run, a day before it expires. -/
def sampleNotification : NotificationRecord :=
  completionNotification (completionEnvelope sampleOptions sampleSettledTask sampleRun
    (.canceled .notDispatched) sampleTime (js "2025-01-02T00:00:00.000Z"))

/-- The store that ended the queued run. -/
def cancelledStore : Store :=
  { admittedStore with
    capacity := { admittedStore.capacity with queuedRuns := 0 }
    tasks := Table.empty.put sampleSettledTask
    runs := Table.empty.put (({ sampleRun with cancelRequested := true, revision := 2 }).finish
      sampleCancel sampleSettledTask (.canceled .notDispatched) sampleTime)
    operations := admittedStore.operations.put (operationRow sampleCancel sampleSettledTask
      (sampleSettledReceipt sampleCancel.operationId) sampleAdmission.runId .cancel sampleTime 1
        none)
    notifications := Table.empty.put sampleNotification }

theorem step_sampleOwner :
    Store.empty.step sampleOptions (.acquireOwner sampleOwner.nonce) = ownedStore := by
  decide +kernel

theorem step_sampleAdmit :
    ownedStore.step sampleOptions (.commit sampleAdmit) = admittedStore := by
  decide +kernel

theorem step_sampleCancel :
    admittedStore.step sampleOptions (.commit sampleCancel) = cancelledStore := by
  decide +kernel

/-- The history leaves the cancelled store. -/
theorem run_sampleCalls : Store.empty.run sampleOptions sampleCalls = cancelledStore := by
  rw [sampleCalls, Store.run, Machine.run_cons, Machine.run_cons, Machine.run_cons, Machine.run_nil,
    step_sampleOwner, step_sampleAdmit, step_sampleCancel]

theorem sampleCalls_runs : (Store.empty.run sampleOptions sampleCalls).runs.rows.map
    (fun run => (run.runId, run.phase)) = [(sampleAdmission.runId, .settled)] := by
  rw [run_sampleCalls]
  rfl

theorem sampleCalls_collisionFree : CollisionFree (Store.empty.run sampleOptions sampleCalls) := by
  have hid : ∀ run ∈ (Store.empty.run sampleOptions sampleCalls).runs.rows,
      run.runId = sampleAdmission.runId := by
    intro run hrun
    have hmem : (run.runId, run.phase) ∈ [(sampleAdmission.runId, RunPhase.settled)] := by
      rw [← sampleCalls_runs]
      exact List.mem_map.2 ⟨run, hrun, rfl⟩
    rw [List.mem_singleton, Prod.mk.injEq] at hmem
    exact hmem.1
  intro a ha b hb _
  rw [hid a ha, hid b hb]

/-- The cancelled run is settled and has its one notification. -/
theorem lifecycle_of_cancelled_run :
    CollisionFree (Store.empty.run sampleOptions sampleCalls) ∧
      ∃ run ∈ (Store.empty.run sampleOptions sampleCalls).runs.rows,
        run.phase = .settled ∧ RunLife (Store.empty.run sampleOptions sampleCalls) run := by
  refine ⟨sampleCalls_collisionFree, ?_⟩
  have hlife := (lifecycle_invariant sampleOptions sampleCalls sampleCalls_collisionFree).2.1
  have hmem : (sampleAdmission.runId, RunPhase.settled) ∈
      (Store.empty.run sampleOptions sampleCalls).runs.rows.map
        (fun run => (run.runId, run.phase)) := by
    rw [sampleCalls_runs]
    exact List.mem_singleton_self _
  obtain ⟨run, hrun, heq⟩ := List.mem_map.1 hmem
  exact ⟨run, hrun, (Prod.mk.inj heq).2, hlife run hrun⟩

end Sample

end AgentSdk.Delegation
