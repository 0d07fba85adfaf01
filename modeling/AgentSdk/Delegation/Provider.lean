import AgentSdk.Delegation.Reachable

/-!
# Provider work is not replayed

A run is prepared once and dispatched once, by one owner.  Every operation that
reaches the provider carries the epoch of that owner, so a replacement owner
can neither repeat provider work nor report its outcome.

## Main results

* `Provider.reachable` — the provider invariant of every reachable store.
* `no_provider_replay` — what it says about every run of the store.
-/

namespace AgentSdk.Delegation

open AgentSdk.Text AgentSdk.Outcome

variable [Platform] {options : StoreOptions} {s : Store} {command : StoreCommand}
  {task : TaskRecord} {run run' : RunRecord} {e : Effect}

/-! ## What a change does to provider work -/

/-- What a change does to the epoch, the preparation and the dispatch of its
run, and which provider operation it writes. -/
inductive Provided (s : Store) (command : StoreCommand) (run : RunRecord) (e : Effect) :
    RunRecord → Prop
  | prepared (run' : RunRecord) (o : OperationRecord) (hoperation : e.operation = some o)
      (hkind : o.kind = .prepare) (hsame : o.ownerEpoch = command.owner.epoch)
      (hphase : run.phase = .queued) (hepoch : run'.ownerEpoch = command.owner.epoch)
      (hdispatch : run'.dispatch = run.dispatch) (hpreparation : run'.preparation = .intended) : Provided s command run e run'
  | dispatched (run' : RunRecord) (o : OperationRecord) (hoperation : e.operation = some o)
      (hkind : o.kind = .turn) (hsame : o.ownerEpoch = command.owner.epoch)
      (hphase : run.phase = .preparing)
      (hready : run.preparation = .completed) (hnone : run.dispatch = .none)
      (howner : run.ownerEpoch = command.owner.epoch) (hepoch : run'.ownerEpoch = run.ownerEpoch)
      (hdispatch : run'.dispatch = .intended) (hpreparation : run'.preparation = run.preparation) :
      Provided s command run e run'
  | answered (run' : RunRecord) (prior o : OperationRecord) (hoperation : e.operation = some o)
      (hprior : prior ∈ s.operations.rows) (hrun : prior.runId = run.runId)
      (hrevised : Revised prior o) (hopen : prior.disposition ≠ .completed)
      (howner : o.ownerEpoch = prior.ownerEpoch) (hepoch : run'.ownerEpoch = run.ownerEpoch)
      (hdispatch : run'.dispatch = run.dispatch ∨ prior.kind = .turn ∧ run'.dispatch = .delegated)
      (hpreparation : run'.preparation = .completed → run.preparation = .completed ∨
        prior.kind = .prepare ∧ o.disposition = .completed) : Provided s command run e run'
  | other (run' : RunRecord)
      (hoperation : ∀ o ∈ e.operation, o.kind ≠ .prepare ∧ o.kind ≠ .turn ∧
        (o.kind.provider = true → o.ownerEpoch = run.ownerEpoch))
      (hepoch : run'.ownerEpoch = run.ownerEpoch) (hdispatch : run'.dispatch = run.dispatch)
      (hpreparation : run'.preparation = run.preparation) : Provided s command run e run'

omit [Platform] in
theorem other_of_not_provider {o : OperationRecord} (h : o.kind.provider = false) :
    o.kind ≠ .prepare ∧ o.kind ≠ .turn ∧
      (o.kind.provider = true → o.ownerEpoch = run.ownerEpoch) := by
  refine ⟨fun hkind => ?_, fun hkind => ?_, fun hprovider => ?_⟩
  · rw [hkind] at h
    cases h
  · rw [hkind] at h
    cases h
  · rw [hprovider] at h
    cases h

omit [Platform] in
/-- A count of operations touches neither the epoch nor the progress of a
run. -/
theorem RunRecord.countOperation_provider (run : RunRecord) (kind : OperationKind) :
    (run.countOperation kind).ownerEpoch = run.ownerEpoch ∧
      (run.countOperation kind).dispatch = run.dispatch ∧
      (run.countOperation kind).preparation = run.preparation := by
  unfold RunRecord.countOperation
  split <;> exact ⟨rfl, rfl, rfl⟩

omit [Platform] in
/-- What a receipt of a kind does to the progress of a run. -/
theorem settleIntent_provider (kind : OperationKind) (disposition : Disposition)
    (run : RunRecord) :
    (settleIntent kind disposition run).ownerEpoch = run.ownerEpoch ∧
      ((settleIntent kind disposition run).dispatch = run.dispatch ∨
        kind = .turn ∧ (settleIntent kind disposition run).dispatch = .delegated) ∧
      ((settleIntent kind disposition run).preparation = .completed →
        run.preparation = .completed ∨ kind = .prepare ∧ disposition = .completed) := by
  unfold settleIntent
  split <;> first | exact ⟨rfl, Or.inl rfl, Or.inl⟩ | simp

omit [Platform] in
theorem Answered.provider {prior : OperationRecord} {disposition : Disposition}
    {eligibility : Option Eligibility} {status : ReceiptStatus}
    (h : Answered run prior disposition eligibility run' status) :
    run'.ownerEpoch = run.ownerEpoch ∧ run'.dispatch = run.dispatch ∧
      run'.preparation = run.preparation := by
  cases h <;> exact ⟨rfl, rfl, rfl⟩

theorem Change.provided (h : Change options s command task run e) :
    ∃ run', e.run = some run' ∧ Provided s command run e run' := by
  cases h with
  | retryCleanup kind atTime target prior _ hcleanup _ _ _ hsame =>
    refine ⟨_, rfl, .other _ ?_ rfl rfl rfl⟩
    rintro o ⟨⟩
    refine other_of_not_provider ?_
    rw [hsame]
    rcases hcleanup with rfl | rfl <;> rfl
  | intent kind atTime target attempt run' receipt _ hepoch _ _ _ hentered =>
    refine ⟨_, rfl, ?_⟩
    obtain ⟨hcountEpoch, hcountDispatch, hcountPreparation⟩ := run'.countOperation_provider kind
    cases hentered with
    | prepare hphase => exact .prepared _ _ rfl rfl rfl hphase rfl rfl rfl
    | turn hphase hready hnone =>
      exact .dispatched _ _ rfl rfl rfl hphase hready hnone (hepoch.resolve_right (by decide)) rfl
        rfl rfl
    | configure | steer | interrupt =>
      refine .other _ ?_ rfl rfl rfl
      rintro o ⟨⟩
      exact ⟨OperationKind.noConfusion, OperationKind.noConfusion,
        fun _ => (hepoch.resolve_right (by decide)).symm⟩
    | sessionClose | bindingCleanup =>
      refine .other _ ?_ rfl rfl rfl
      rintro o ⟨⟩
      exact other_of_not_provider rfl
  | receipt disposition atTime message eligibility prior run' status receipt _ hprior _ hrun _
      hdisposition _ _ hopen _ _ hanswered =>
      obtain ⟨hepoch, hdispatch, hpreparation⟩ := hanswered.provider
      obtain ⟨hepoch', hdispatch', hpreparation'⟩ :=
        settleIntent_provider prior.kind disposition run'
      rw [hepoch] at hepoch'
      rw [hdispatch] at hdispatch'
      rw [hpreparation] at hpreparation'
      refine ⟨_, rfl, .answered _ prior _ rfl (Table.mem_of_get hprior) hrun
        ⟨rfl, rfl, rfl, rfl, rfl, rfl, rfl, fun _ => rfl, fun hfixed => ?_⟩ hopen.2.2.1 rfl
        hepoch' hdispatch' hpreparation'⟩
      rw [hfixed] at hdisposition
      cases hdisposition
  | request state request atTime run' _ hrequested =>
    refine ⟨_, rfl, ?_⟩
    cases hrequested <;> refine .other _ ?_ rfl rfl rfl <;> rintro o ⟨⟩
  | resolution request pending atTime receipt _ _ _ _ _ hepoch =>
    refine ⟨_, rfl, .other _ ?_ rfl rfl rfl⟩
    rintro o ⟨⟩
    exact ⟨OperationKind.noConfusion, OperationKind.noConfusion, fun _ => hepoch.symm⟩
  | cancelSettled | cancelPending | cancelQueued =>
    refine ⟨_, rfl, .other _ ?_ rfl rfl rfl⟩
    rintro o ⟨⟩
    exact other_of_not_provider rfl
  | _ =>
    refine ⟨_, rfl, .other _ ?_ rfl rfl rfl⟩
    rintro o ⟨⟩

/-! ## The provider invariant -/

/-- The provider operations recorded for one run. -/
structure ProviderRun (s : Store) (run : RunRecord) : Prop where
  once : ∀ a ∈ s.operations.rows, ∀ b ∈ s.operations.rows, a.runId = run.runId →
    b.runId = run.runId → a.kind = b.kind → a.kind = .prepare ∨ a.kind = .turn → a = b
  epoch : ∀ o ∈ s.operations.rows, o.runId = run.runId → o.kind.provider = true →
    o.ownerEpoch = run.ownerEpoch
  ready : run.preparation = .completed → ∃ p ∈ s.operations.rows, p.runId = run.runId ∧
    p.kind = .prepare ∧ p.disposition = .completed
  turn : ∀ o ∈ s.operations.rows, o.runId = run.runId → o.kind = .turn →
    run.dispatch ≠ .none ∧ ∃ p ∈ s.operations.rows, p.runId = run.runId ∧ p.kind = .prepare ∧
      p.disposition = .completed
  sent : run.dispatch ≠ .none → ∃ o ∈ s.operations.rows, o.runId = run.runId ∧ o.kind = .turn

/-- A completed preparation stays completed. -/
theorem completed_kept (h : Transition options s command e)
    (hanswer : ∀ o ∈ e.operation, o.kind = .prepare → ∀ prior ∈ s.operations.rows,
      Revised prior o → prior.disposition ≠ .completed) {p : OperationRecord}
    (hp : p ∈ s.operations.rows) (hkind : p.kind = .prepare) (hdone : p.disposition = .completed) :
    p ∈ (s.apply e).operations.rows := by
  obtain ⟨o, ho, hrevised, rfl | hnew⟩ := h.exists_revised hp
  · exact ho
  · exact absurd hdone (hanswer o hnew (hrevised.kind.trans hkind) p hp hrevised)

/-- Runs whose operations a transition does not touch keep their invariant. -/
theorem ProviderRun.frame (h : Transition options s command e) (hprovider : ProviderRun s run)
    (hother : ∀ o ∈ e.operation, o.runId ≠ run.runId) : ProviderRun (s.apply e) run := by
  have hsame : ∀ o, o.runId = run.runId →
      (o ∈ (s.apply e).operations.rows ↔ o ∈ s.operations.rows) := by
    intro o hid
    constructor
    · intro ho
      rcases Table.mem_putOption.1 ho with hnew | ⟨hold, -⟩
      · exact absurd hid (hother o hnew)
      · exact hold
    · intro ho
      obtain ⟨o', ho', hrevised, rfl | hnew⟩ := h.exists_revised ho
      · exact ho'
      · exact absurd (hrevised.runId.trans hid) (hother o' hnew)
  refine ⟨?_, ?_, ?_, ?_, ?_⟩
  · intro a ha b hb hruna hrunb
    exact hprovider.once a ((hsame a hruna).1 ha) b ((hsame b hrunb).1 hb) hruna hrunb
  · intro o ho hid
    exact hprovider.epoch o ((hsame o hid).1 ho) hid
  · intro hready
    obtain ⟨p, hp, hid, hrest⟩ := hprovider.ready hready
    exact ⟨p, (hsame p hid).2 hp, hid, hrest⟩
  · intro o ho hid hkind
    obtain ⟨hdispatch, p, hp, hid', hrest⟩ := hprovider.turn o ((hsame o hid).1 ho) hid hkind
    exact ⟨hdispatch, p, (hsame p hid').2 hp, hid', hrest⟩
  · intro hdispatch
    obtain ⟨o, ho, hid, hkind⟩ := hprovider.sent hdispatch
    exact ⟨o, (hsame o hid).2 ho, hid, hkind⟩

/-- The provider invariant of a store. -/
structure Provider (s : Store) : Prop where
  linked : Linked s
  run : ∀ run ∈ s.runs.rows, ProviderRun s run

/-- A change writes an operation of its own run. -/
theorem Change.operation_runId (h : Change options s command task run e) {o : OperationRecord}
    (ho : o ∈ e.operation) : o.runId = run.runId := by
  cases h with
  | retryCleanup kind atTime target prior _ _ _ _ hrun
  | receipt disposition atTime message eligibility prior run' status receipt _ _ _ hrun =>
    cases ho
    exact hrun
  | intent | resolution | cancelSettled | cancelPending | cancelQueued => cases ho; rfl
  | _ => cases ho

section Step

variable (h : Transition options s command e) (hlinked : Linked s) (hrun : run ∈ s.runs.rows)
  (hown : ∀ o ∈ e.operation, o.runId = run.runId) (hprovided : Provided s command run e run')

include hlinked hrun in
omit [Platform] in
/-- The operations of a run are not ahead of it. -/
theorem rank_le {o : OperationRecord} (ho : o ∈ s.operations.rows) (hid : o.runId = run.runId) :
    o.kind.rank ≤ run.phase.rank := by
  obtain ⟨owner, howner, hrunId, -, hrank⟩ := hlinked.operationRun o ho
  rwa [Store.run_eq howner hrun (hrunId.trans hid)] at hrank

include hlinked hrun hown hprovided in
omit [Platform] in
/-- A preparation that is answered is not completed yet. -/
theorem Provided.open_prepare {o : OperationRecord} (ho : o ∈ e.operation) (hkind : o.kind = .prepare)
    {prior : OperationRecord} (hprior : prior ∈ s.operations.rows) (hrevised : Revised prior o) :
    prior.disposition ≠ .completed := by
  cases hprovided with
  | prepared new hoperation _ _ hphase =>
    have hrank := rank_le hlinked hrun hprior (hrevised.runId.symm.trans (hown o ho))
    rw [← hrevised.kind, hkind, hphase] at hrank
    exact absurd hrank (by decide)
  | dispatched new hoperation hturn =>
    rw [hoperation, Option.mem_some_iff] at ho
    rw [← ho, hturn] at hkind
    cases hkind
  | answered earlier new hoperation hearlier _ hrevised' hopen =>
    rw [hoperation] at ho
    cases ho
    have hsame : prior = earlier := Table.eq_of_key_eq hprior hearlier
      (hrevised.key.symm.trans hrevised'.key)
    exact hsame ▸ hopen
  | other hoperation => exact absurd hkind (hoperation o ho).1

include hlinked hrun hprovided in
omit [Platform] in
/-- A preparation or a turn that is recorded is the first of its run. -/
theorem Provided.first {o : OperationRecord} (ho : o ∈ e.operation) (hrecorded : Recorded s command e o)
    (hkind : o.kind = .prepare ∨ o.kind = .turn) {prior : OperationRecord}
    (hprior : prior ∈ s.operations.rows) (hid : prior.runId = run.runId) : prior.kind ≠ o.kind := by
  intro hsame
  have hrank := rank_le hlinked hrun hprior hid
  rw [hsame] at hrank
  cases hprovided with
  | prepared new hoperation hprepare _ hphase =>
    rw [hoperation, Option.mem_some_iff] at ho
    rw [← ho, hprepare, hphase] at hrank
    exact absurd hrank (by decide)
  | dispatched new hoperation hturn _ hphase =>
    rw [hoperation, Option.mem_some_iff] at ho
    rw [← ho, hturn, hphase] at hrank
    exact absurd hrank (by decide)
  | answered earlier new hoperation hearlier _ hrevised =>
    rw [hoperation] at ho
    cases ho
    refine Table.get_eq_none.1 hrecorded.free earlier hearlier hrevised.key.symm
  | other hoperation =>
    obtain ⟨hprepare, hturn, -⟩ := hoperation o ho
    exact hkind.elim hprepare hturn

include h hlinked hrun hown hprovided in
/-- A change of a run keeps its provider invariant. -/
theorem ProviderRun.provided (hrunId : run'.runId = run.runId) (hprovider : ProviderRun s run) :
    ProviderRun (s.apply e) run' := by
  have hkept : ∀ p ∈ s.operations.rows, p.kind = .prepare → p.disposition = .completed →
      p ∈ (s.apply e).operations.rows := fun p hp hkind hdone =>
    completed_kept h (fun o ho hkind prior hprior hrevised =>
      Provided.open_prepare hlinked hrun hown hprovided ho hkind hprior hrevised) hp hkind hdone
  have hready : run.preparation = .completed → ∃ p ∈ (s.apply e).operations.rows,
      p.runId = run.runId ∧ p.kind = .prepare ∧ p.disposition = .completed := by
    intro hdone
    obtain ⟨p, hp, hid, hkind, hcompleted⟩ := hprovider.ready hdone
    exact ⟨p, hkept p hp hkind hcompleted, hid, hkind, hcompleted⟩
  have hturn : ∀ o ∈ s.operations.rows, o.runId = run.runId → o.kind = .turn →
      run.dispatch ≠ .none ∧ ∃ p ∈ (s.apply e).operations.rows, p.runId = run.runId ∧
        p.kind = .prepare ∧ p.disposition = .completed := by
    intro o ho hid hkind
    obtain ⟨hdispatch, p, hp, hid', hprepare, hcompleted⟩ := hprovider.turn o ho hid hkind
    exact ⟨hdispatch, p, hkept p hp hprepare hcompleted, hid', hprepare, hcompleted⟩
  have hsent : ∀ o ∈ s.operations.rows, o.runId = run.runId → o.kind = .turn →
      ∃ o ∈ (s.apply e).operations.rows, o.runId = run.runId ∧ o.kind = .turn := by
    intro o ho hid hkind
    obtain ⟨o', ho', hrevised, -⟩ := h.exists_revised ho
    exact ⟨o', ho', hrevised.runId.trans hid, hrevised.kind.trans hkind⟩
  refine ⟨?_, ?_, ?_, ?_, ?_⟩
  · intro a ha b hb hruna hrunb hkind hmain
    rw [hrunId] at hruna hrunb
    rcases h.operation_origin ha with ⟨hrecorded, hnew⟩ | ⟨pa, hpa, hreva⟩
    · rcases h.operation_origin hb with ⟨-, hnew'⟩ | ⟨pb, hpb, hrevb⟩
      · exact Option.mem_unique hnew hnew'
      · exact absurd (hrevb.kind.symm.trans hkind.symm) (Provided.first hlinked hrun hprovided
          hnew hrecorded hmain hpb (hrevb.runId.symm.trans hrunb))
    · rcases h.operation_origin hb with ⟨hrecorded, hnew⟩ | ⟨pb, hpb, hrevb⟩
      · exact absurd (hreva.kind.symm.trans hkind) (Provided.first hlinked hrun hprovided hnew
          hrecorded (hkind ▸ hmain) hpa (hreva.runId.symm.trans hruna))
      · have hsame : pa = pb := hprovider.once pa hpa pb hpb (hreva.runId.symm.trans hruna)
          (hrevb.runId.symm.trans hrunb) (hreva.kind.symm.trans (hkind.trans hrevb.kind))
          (hreva.kind ▸ hmain)
        subst hsame
        exact Table.eq_of_key_eq ha hb (hreva.key.trans hrevb.key.symm)
  · intro o ho hid hkind
    rw [hrunId] at hid
    rcases Table.mem_putOption.1 ho with hnew | ⟨hold, -⟩
    · cases hprovided with
      | prepared new hoperation _ hsame _ hepoch =>
        rw [hoperation] at hnew
        cases hnew
        exact hsame.trans hepoch.symm
      | dispatched new hoperation _ hsame _ _ _ howner hepoch =>
        rw [hoperation] at hnew
        cases hnew
        exact hsame.trans (howner.symm.trans hepoch.symm)
      | answered prior new hoperation hprior hid' hrevised _ howner hepoch =>
        rw [hoperation] at hnew
        cases hnew
        exact howner.trans ((hprovider.epoch prior hprior hid' (hrevised.kind ▸ hkind)).trans
          hepoch.symm)
      | other hoperation hepoch => exact ((hoperation o hnew).2.2 hkind).trans hepoch.symm
    · have hsame := hprovider.epoch o hold hid hkind
      cases hprovided with
      | prepared new hoperation _ _ hphase =>
        have hrank := (OperationKind.rank_of_provider hkind).trans (rank_le hlinked hrun hold hid)
        rw [hphase] at hrank
        exact absurd hrank (by decide)
      | dispatched _ _ _ _ _ _ _ _ hepoch
      | answered _ _ _ _ _ _ _ _ hepoch => exact hsame.trans hepoch.symm
      | other _ hepoch => exact hsame.trans hepoch.symm
  · intro hdone
    rw [hrunId]
    cases hprovided with
    | prepared _ _ _ _ _ _ _ hpreparation =>
      rw [hpreparation] at hdone
      cases hdone
    | dispatched _ _ _ _ _ hcompleted => exact hready hcompleted
    | answered prior new hoperation _ _ hrevised _ _ _ _ hpreparation =>
      rcases hpreparation hdone with hcompleted | ⟨hkind, hcompleted⟩
      · exact hready hcompleted
      · have hnew : new ∈ e.operation := hoperation
        exact ⟨new, Table.mem_putOption.2 (Or.inl hnew), hown new hnew,
          hrevised.kind.trans hkind, hcompleted⟩
    | other _ _ _ hpreparation => exact hready (hpreparation ▸ hdone)
  · intro o ho hid hkind
    rw [hrunId] at hid ⊢
    rcases Table.mem_putOption.1 ho with hnew | ⟨hold, -⟩
    · cases hprovided with
      | prepared new hoperation hprepare =>
        rw [hoperation, Option.mem_some_iff] at hnew
        rw [← hnew, hprepare] at hkind
        cases hkind
      | dispatched new _ _ _ _ hcompleted _ _ _ hdispatch =>
        exact ⟨by rw [hdispatch]; exact Dispatch.noConfusion, hready hcompleted⟩
      | answered prior new hoperation hprior hid' hrevised _ _ _ hdispatch =>
        rw [hoperation] at hnew
        cases hnew
        obtain ⟨hne, hexists⟩ := hturn prior hprior hid' (hrevised.kind ▸ hkind)
        refine ⟨?_, hexists⟩
        rcases hdispatch with hsame | ⟨-, hdelegated⟩
        · exact hsame ▸ hne
        · rw [hdelegated]
          exact Dispatch.noConfusion
      | other hoperation => exact absurd hkind (hoperation o hnew).2.1
    · obtain ⟨hne, hexists⟩ := hturn o hold hid hkind
      refine ⟨?_, hexists⟩
      cases hprovided with
      | prepared _ _ _ _ _ _ hdispatch | other _ _ hdispatch => exact hdispatch ▸ hne
      | dispatched _ _ _ _ _ _ _ _ _ hdispatch =>
        rw [hdispatch]
        exact Dispatch.noConfusion
      | answered _ _ _ _ _ _ _ _ _ hdispatch =>
        rcases hdispatch with hsame | ⟨-, hdelegated⟩
        · exact hsame ▸ hne
        · rw [hdelegated]
          exact Dispatch.noConfusion
  · intro hne
    rw [hrunId]
    have hstays : run.dispatch ≠ .none →
        ∃ o ∈ (s.apply e).operations.rows, o.runId = run.runId ∧ o.kind = .turn := by
      intro hdispatch
      obtain ⟨o, ho, hid, hkind⟩ := hprovider.sent hdispatch
      exact hsent o ho hid hkind
    cases hprovided with
    | prepared _ _ _ _ _ _ hdispatch | other _ _ hdispatch => exact hstays (hdispatch ▸ hne)
    | dispatched new hoperation hturn =>
      have hnew : new ∈ e.operation := hoperation
      exact ⟨new, Table.mem_putOption.2 (Or.inl hnew), hown new hnew, hturn⟩
    | answered prior _ _ hprior hid _ _ _ _ hdispatch =>
      rcases hdispatch with hsame | ⟨hkind, -⟩
      · exact hstays (hsame ▸ hne)
      · exact hsent prior hprior hid hkind

end Step

omit [Platform] in
/-- A run just admitted has no provider operation. -/
theorem ProviderRun.admitted (hlinked : Linked s) {new : RunRecord} {admitted : OperationRecord}
    (hfresh : s.runs.get new.runId = none) (hoperation : e.operation = some admitted)
    (hkind : admitted.kind = .admitRun) (hpreparation : new.preparation = .none)
    (hdispatch : new.dispatch = .none) :
    ProviderRun (s.apply e) new := by
  have hadmission : ∀ o ∈ (s.apply e).operations.rows, o.runId = new.runId → o.kind = .admitRun := by
    intro o ho hid
    rcases Table.mem_putOption.1 ho with hnew | ⟨hold, -⟩
    · rw [hoperation, Option.mem_some_iff] at hnew
      rw [← hnew, hkind]
    · obtain ⟨owner, howner, hrunId, -⟩ := hlinked.operationRun o hold
      exact absurd (hrunId.trans hid) (Table.get_eq_none.1 hfresh owner howner)
  refine ⟨?_, ?_, ?_, ?_, fun hne => absurd hdispatch hne⟩
  · intro a ha b _ hruna _ _ hmain
    rw [hadmission a ha hruna] at hmain
    rcases hmain with hmain | hmain <;> cases hmain
  · intro o ho hid hprovider
    rw [hadmission o ho hid] at hprovider
    cases hprovider
  · intro hdone
    rw [hpreparation] at hdone
    cases hdone
  · intro o ho hid hturn
    rw [hadmission o ho hid] at hturn
    cases hturn

/-- A transition keeps the provider invariant. -/
theorem Provider.apply (h : Transition options s command e) (hprovider : Provider s) :
    Provider (s.apply e) := by
  have hlinked := hprovider.linked
  refine ⟨hlinked.apply h, fun r hr => ?_⟩
  have hcase := h
  cases hcase with
  | admitTask admission receipt _ _ _ hadmissible
  | continueTask admission task previous receipt _ _ _ _ hadmissible =>
    rcases Table.mem_putOption.1 hr with hnew | ⟨hold, -⟩
    · cases hnew
      exact ProviderRun.admitted hlinked hadmissible.fresh rfl rfl rfl rfl
    · refine (hprovider.run r hold).frame h ?_
      rintro o ⟨⟩ hid
      exact Table.get_eq_none.1 hadmissible.fresh r hold hid.symm
  | act task run e _ hrun _ _ _ _ hchange =>
    obtain ⟨run', hwritten, hprovided⟩ := hchange.provided
    obtain ⟨run'', hwritten', hadvances, -, -⟩ := hchange.advances
    rw [hwritten] at hwritten'
    cases hwritten'
    rcases Table.mem_putOption.1 hr with hnew | ⟨hold, hne⟩
    · rw [hwritten] at hnew
      cases hnew
      exact (hprovider.run run hrun).provided h hlinked hrun
        (fun o ho => hchange.operation_runId ho) hprovided hadvances.runId
    · refine (hprovider.run r hold).frame h fun o ho hid => ?_
      exact hne run' hwritten
        (hid.symm.trans ((hchange.operation_runId ho).trans hadvances.runId.symm))
  | retire reason atTime task named receipt _ _ _ hnamed =>
    rcases Table.mem_putOption.1 hr with hnew | ⟨hold, -⟩
    · obtain ⟨run, hrun, rfl⟩ := Option.map_eq_some_iff.1 hnew
      have hframe := (hprovider.run run (hnamed run hrun).1).frame h fun o ho =>
        absurd ho (Option.not_mem_none o)
      exact { hframe with }
    · exact (hprovider.run r hold).frame h fun o ho => absurd ho (Option.not_mem_none o)

/-- **Every reachable store satisfies the provider invariant.** -/
theorem Provider.reachable (options : StoreOptions) (calls : List StoreCall) :
    Provider (Store.empty.run options calls) := by
  refine Store.run_rule ⟨.empty, fun run hrun => absurd hrun List.not_mem_nil⟩ ?_
    (fun s command e hs hcommitted => hs.apply hcommitted.transition) calls
  intro s owner epoch hs
  refine ⟨hs.linked.withOwner owner epoch, fun run hrun => ?_⟩
  obtain ⟨honce, hepoch, hready, hturn, hsent⟩ := hs.run run hrun
  exact ⟨honce, hepoch, hready, hturn, hsent⟩

/-! ## Main result -/

/-- The progress of a dispatch in one step. -/
inductive Dispatch.Step : Dispatch → Dispatch → Prop
  | stay (dispatch : Dispatch) : Dispatch.Step dispatch dispatch
  | intend : Dispatch.Step .none .intended
  | delegate : Dispatch.Step .intended .delegated

omit [Platform] in
theorem Provided.dispatch_step (h : Provided s command run e run') (hprovider : ProviderRun s run) :
    Dispatch.Step run.dispatch run'.dispatch := by
  cases h with
  | prepared _ _ _ _ _ _ hdispatch | other _ _ hdispatch =>
    rw [hdispatch]
    exact .stay _
  | dispatched _ _ _ _ _ _ hnone _ _ hdispatch =>
    rw [hdispatch, hnone]
    exact .intend
  | answered prior new _ hprior hid _ _ _ _ hdispatch =>
    rcases hdispatch with hsame | ⟨hkind, hdelegated⟩
    · rw [hsame]
      exact .stay _
    · have hne := (hprovider.turn prior hprior hid hkind).1
      rw [hdelegated]
      cases hd : run.dispatch with
      | none => exact absurd hd hne
      | intended => exact .delegate
      | delegated => exact .stay _

/-- A run written over an earlier row moved its dispatch by one step. -/
theorem Transition.dispatch_step (h : Transition options s command e) (hprovider : Provider s)
    (hrun : run ∈ s.runs.rows) {new : RunRecord} (hnew : new ∈ e.run) (hid : run.runId = new.runId) :
    Dispatch.Step run.dispatch new.dispatch := by
  cases h with
  | admitTask admission receipt _ _ _ hadmissible
  | continueTask admission task previous receipt _ _ _ _ hadmissible =>
    cases hnew
    exact absurd hid (Table.get_eq_none.1 hadmissible.fresh run hrun)
  | act task acted e _ hacted _ _ _ _ hchange =>
    obtain ⟨run', hwritten, hprovided⟩ := hchange.provided
    obtain ⟨run'', hwritten', hadvances, -, -⟩ := hchange.advances
    rw [hwritten] at hwritten'
    cases hwritten'
    rw [hwritten] at hnew
    cases hnew
    rw [Store.run_eq hrun hacted (hid.trans hadvances.runId)]
    exact hprovided.dispatch_step (hprovider.run acted hacted)
  | retire reason atTime task named receipt _ _ _ hnamed =>
    obtain ⟨old, hold, rfl⟩ := Option.map_eq_some_iff.1 hnew
    rw [Store.run_eq hrun (hnamed old hold).1 hid]
    exact .stay _

/-- A run that holds what the provider itself ended with. -/
def RunRecord.endedByProvider (run : RunRecord) : Prop :=
  ∃ outcome ∈ run.outcome, outcome.terminalTruth = true

/-- The turn of a run was recorded by the current owner. -/
def Store.turnOwned (s : Store) (runId : JsString) : Prop :=
  ∃ owner ∈ s.owner, ∃ turn ∈ s.operations.rows, turn.runId = runId ∧ turn.kind = .turn ∧
    turn.ownerEpoch = owner.epoch

/-- A terminal outcome is reported by the owner of the turn. -/
theorem Committed.terminal (h : Committed options s command e) (hprovider : Provider s)
    {new : RunRecord} (hnew : new ∈ e.run) (hended : new.endedByProvider) :
    (∃ run ∈ s.runs.rows, run.runId = new.runId ∧ run.outcome = new.outcome) ∨
      s.turnOwned new.runId := by
  obtain ⟨outcome, houtcome, htruth⟩ := hended
  cases h.transition with
  | admitTask | continueTask => cases hnew; cases houtcome
  | retire reason atTime task named receipt _ _ _ hnamed =>
    obtain ⟨run, hrun, rfl⟩ := Option.map_eq_some_iff.1 hnew
    exact Or.inl ⟨run, (hnamed run hrun).1, rfl, rfl⟩
  | act task run e _ hrun _ _ _ _ hchange =>
    obtain ⟨run', hwritten, hends⟩ := hchange.ended
    obtain ⟨run'', hwritten', hadvances, -, -⟩ := hchange.advances
    rw [hwritten] at hwritten'
    cases hwritten'
    rw [hwritten] at hnew
    cases hnew
    have hid := hadvances.runId
    cases hends with
    | untouched _ hsame => exact Or.inl ⟨run, hrun, hid.symm, hsame.symm⟩
    | settled base requested atTime expiresAt _ hterminal =>
      refine Or.inr ?_
      -- The outcome recorded is the one asked for: a recovery is no terminal truth.
      have hrequested : requested.terminalTruth = true := by
        have hfinal : finalOutcome run requested = outcome := Option.some.inj houtcome
        rw [← hfinal, finalOutcome] at htruth
        cases hreason : run.recoveryReason with
        | none => simpa only [hreason] using htruth
        | some reason => simp [hreason, RunOutcome.terminalTruth] at htruth
      obtain ⟨hphase, howner⟩ := hterminal hrequested
      have hrank : run.phase.rank = 2 := by
        rcases hphase with hphase | hphase <;> rw [hphase] <;> rfl
      have hrunInv := hprovider.run run hrun
      obtain ⟨turn, hturn, hturnRun, hkind⟩ :=
        hrunInv.sent ((hprovider.linked.sound run hrun).live hrank)
      have hepoch := hrunInv.epoch turn hturn hturnRun (by rw [hkind]; rfl)
      exact ⟨command.owner, h.fenced.owner, turn, hturn, hturnRun.trans hid.symm, hkind,
        hepoch.trans howner⟩

/-- **Provider work is not replayed.**  In every reachable store a run has at
most one preparation and one turn; the turn rests on a completed preparation of
the same epoch; all its provider operations carry one epoch.  Every call keeps
the operations recorded, moves a dispatch forward by one step at most, and lets
only the owner of the turn record what the provider ended with. -/
theorem no_provider_replay (options : StoreOptions) (calls : List StoreCall) :
    (∀ run ∈ (Store.empty.run options calls).runs.rows,
      ∀ a ∈ (Store.empty.run options calls).operations.rows, a.runId = run.runId →
        (∀ b ∈ (Store.empty.run options calls).operations.rows, b.runId = run.runId →
          (a.kind = b.kind → a.kind = .prepare ∨ a.kind = .turn → a = b) ∧
            (a.kind.provider = true → b.kind.provider = true → a.ownerEpoch = b.ownerEpoch)) ∧
        (a.kind = .turn → ∃ p ∈ (Store.empty.run options calls).operations.rows,
          p.runId = run.runId ∧ p.kind = .prepare ∧ p.ownerEpoch = a.ownerEpoch ∧
            p.disposition = .completed)) ∧
      ∀ call,
        (∀ o ∈ (Store.empty.run options calls).operations.rows,
          ∃ o' ∈ ((Store.empty.run options calls).step options call).operations.rows,
            Revised o o') ∧
        (∀ run ∈ (Store.empty.run options calls).runs.rows,
          ∃ run' ∈ ((Store.empty.run options calls).step options call).runs.rows,
            run'.runId = run.runId ∧ Dispatch.Step run.dispatch run'.dispatch) ∧
        ∀ run' ∈ ((Store.empty.run options calls).step options call).runs.rows,
          run'.endedByProvider →
            (∃ run ∈ (Store.empty.run options calls).runs.rows,
              run.runId = run'.runId ∧ run.outcome = run'.outcome) ∨
            (Store.empty.run options calls).turnOwned run'.runId := by
  have hprovider := Provider.reachable options calls
  generalize Store.empty.run options calls = s at hprovider
  refine ⟨fun run hrun a ha hid => ⟨fun b hb hid' => ⟨?_, ?_⟩, ?_⟩, fun call => ?_⟩
  · exact (hprovider.run run hrun).once a ha b hb hid hid'
  · intro hkind hkind'
    exact ((hprovider.run run hrun).epoch a ha hid hkind).trans
      ((hprovider.run run hrun).epoch b hb hid' hkind').symm
  · intro hkind
    obtain ⟨-, p, hp, hid', hprepare, hdone⟩ := (hprovider.run run hrun).turn a ha hid hkind
    exact ⟨p, hp, hid', hprepare, ((hprovider.run run hrun).epoch p hp hid' (by rw [hprepare]; rfl)
      ).trans ((hprovider.run run hrun).epoch a ha hid (by rw [hkind]; rfl)).symm, hdone⟩
  · obtain ⟨owner, epoch, hstep⟩ | ⟨command, e, -, hcommitted, hstep⟩ :=
      Store.step_cases options s call
    · rw [hstep]
      exact ⟨fun o ho => ⟨o, ho, .refl o⟩, fun run hrun => ⟨run, hrun, rfl, .stay _⟩,
        fun run' hrun' _ => Or.inl ⟨run', hrun', rfl, rfl⟩⟩
    · rw [hstep]
      refine ⟨fun o ho => ?_, fun run hrun => ?_, fun run' hrun' hended => ?_⟩
      · obtain ⟨o', ho', hrevised, -⟩ := hcommitted.transition.exists_revised ho
        exact ⟨o', ho', hrevised⟩
      · obtain ⟨run', hrun', hadvances⟩ := hcommitted.transition.exists_advanced hrun
        refine ⟨run', hrun', hadvances.runId, ?_⟩
        rcases Table.mem_putOption.1 hrun' with hnew | ⟨hold, -⟩
        · exact hcommitted.transition.dispatch_step hprovider hrun hnew hadvances.runId.symm
        · rw [Store.run_eq hold hrun hadvances.runId]
          exact .stay _
      · rcases Table.mem_putOption.1 hrun' with hnew | ⟨hold, -⟩
        · exact hcommitted.terminal hprovider hnew hended
        · exact Or.inl ⟨run', hold, rfl, rfl⟩

end AgentSdk.Delegation
