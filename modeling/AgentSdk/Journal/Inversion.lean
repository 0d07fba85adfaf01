import AgentSdk.Journal.Change

/-!
# Accepted transitions

Each planner is taken apart once: what its acceptance says is a `Transition`.

## Main results

* `planCoordinatorTransition_ok` — an accepted event of any kind.
-/

namespace AgentSdk.Journal

open AgentSdk.Text AgentSdk.Outcome

/-- An accepted event other than the clean close leaves the snapshot alone, or
changes the generation. -/
inductive Transition (snapshot : CoordinatorSnapshot) (g : DirtyGeneration) :
    CoordinatorPlan → List Act → Prop
  | unchanged : Transition snapshot g (.commit snapshot) []
  | changes {plan : CoordinatorPlan} {next : DirtyGeneration} {acts : List Act}
      (change : Change snapshot g next acts)
      (committed : Committed snapshot (.dirty next) plan.snapshot) :
      Transition snapshot g plan acts

/-- What the clean close of a generation found, and what it committed. -/
structure Closing (snapshot : CoordinatorSnapshot) (g : DirtyGeneration) (plan : CoordinatorPlan) :
    Prop where
  admission : g.admissionOpen = false
  members : g.members = []
  queue : g.queue = []
  entered : g.entered = none
  committed : Committed snapshot (.clean
    { generationOrdinal := g.identity.ordinal
      lastGenerationId := some g.identity.generationId
      settledAtSequence := snapshot.sequence + 1 }) plan.snapshot

variable {snapshot : CoordinatorSnapshot} {g : DirtyGeneration} {plan : CoordinatorPlan}

theorem Transition.of_commitDirty {next : DirtyGeneration} {acts : List Act}
    (change : Change snapshot g next acts) (h : commitDirty snapshot next = .ok plan) :
    Transition snapshot g plan acts := by
  obtain ⟨s', rfl, hcommitted⟩ := commitDirty_ok h
  exact .changes change hcommitted

variable {memberId : JsString} {member : CoordinatorMember} {effectSequence : Nat}
  {record : SandboxRecoveryRecord}

theorem currentMember_ok (h : currentMember g memberId = .ok member) :
    g.member? memberId = some member ∧ g.member? member.memberId = some member := by
  unfold currentMember at h
  cases hmember : g.member? memberId with
  | none => simp [hmember] at h
  | some found =>
    simp only [hmember] at h
    cases h
    exact ⟨rfl, by rw [(member?_spec hmember).2]; exact hmember⟩

theorem originalRequest_ok {entered : EnteredEffect} {role : ResourceRole}
    {action : ResourceAction}
    (h : originalRequest g effectSequence = .ok (entered, role, action, member)) :
    g.entered = some entered ∧ entered.role = .resource role ∧
      entered.action = .resource action ∧ g.member? entered.memberId = some member := by
  unfold originalRequest at h
  cases hentered : g.entered with
  | none => simp [hentered] at h
  | some found =>
  simp only [hentered] at h
  cases hrole : found.role with
  | member => simp [hrole] at h
  | resource foundRole =>
  cases haction : found.action with
  | member_retire => simp [hrole, haction] at h
  | resource foundAction =>
  simp only [hrole, haction] at h
  obtain ⟨-, h⟩ := failIf_bind_eq_ok.1 h
  cases hmember : g.member? found.memberId with
  | none => simp [hmember] at h
  | some foundMember =>
    simp only [hmember] at h
    cases h
    exact ⟨rfl, hrole, haction, hmember⟩

/-! ## Events of the generation -/

/-- A change of the state and the basis alone. -/
theorem Transition.of_authority (state : GenerationState) (basis : AuthorityBasis)
    (authority : state = g.state ∧ basis = g.basis ∨
      g.liveState = true ∧ state.isCleanupOnly = false)
    (h : commitDirty snapshot { g with state, basis } = .ok plan) :
    Transition snapshot g plan [] :=
  .of_commitDirty (.steady authority) h

theorem planCloseAdmission_ok (h : planCloseAdmission snapshot g = .ok plan) :
    Transition snapshot g plan [] := by
  refine .of_authority _ g.basis ?_ h
  by_cases hlive : g.liveState = true
  · exact .inr ⟨hlive, by simp [hlive, GenerationState.isCleanupOnly]⟩
  · exact .inl ⟨by simp [hlive], rfl⟩

theorem planFence_ok {fault : CoordinatorFault} (h : planFence snapshot g fault = .ok plan) :
    Transition snapshot g plan [] := by
  refine .of_authority _ g.basis ?_ h
  by_cases hlive : g.liveState = true
  · exact .inr ⟨hlive, by simp [hlive, GenerationState.isCleanupOnly]⟩
  · exact .inl ⟨by simp [hlive], rfl⟩

theorem planCleanClose_ok (h : planCleanClose snapshot g = .ok plan) : Closing snapshot g plan := by
  unfold planCleanClose at h
  obtain ⟨hguard, h⟩ := failIf_bind_eq_ok.1 h
  obtain ⟨next, hcommit, h⟩ := bind_eq_ok.1 h
  cases h
  simp only [not_or, not_not, List.length_eq_zero_iff, Bool.not_eq_true, Option.isSome_eq_false_iff,
    Option.isNone_iff_eq_none] at hguard
  exact ⟨hguard.1, hguard.2.1, hguard.2.2.1, hguard.2.2.2, commit_ok hcommit⟩

theorem planReopenCleanup_ok (h : planReopenCleanup snapshot g = .ok plan) :
    Transition snapshot g plan (if g.state.isCleanupOnly then [] else [.recovered]) := by
  unfold planReopenCleanup at h
  split at h
  · rename_i hcleanup
    cases h
    rw [if_pos hcleanup]
    exact .unchanged
  · rename_i hactive
    obtain ⟨digest, -, h⟩ := bind_eq_ok.1 h
    obtain ⟨next, hrecovered, h⟩ := bind_eq_ok.1 h
    rw [if_neg hactive]
    exact .of_commitDirty (.recovers (by simpa using hactive) hrecovered) h

theorem planRegister_ok {binding : RegistrationBinding} {slot : Nat}
    (h : planRegister snapshot g record binding slot = .ok plan) :
    Transition snapshot g plan [.registered record.operationId g.nextMemberSequence] := by
  unfold planRegister at h
  obtain ⟨hopen, h⟩ := failIf_bind_eq_ok.1 h
  obtain ⟨-, h⟩ := failIf_bind_eq_ok.1 h
  obtain ⟨-, h⟩ := failIf_bind_eq_ok.1 h
  obtain ⟨hfresh, h⟩ := failIf_bind_eq_ok.1 h
  obtain ⟨hinert, h⟩ := failIf_bind_eq_ok.1 h
  obtain ⟨digest, -, h⟩ := bind_eq_ok.1 h
  simp only [not_or, Bool.not_eq_true, List.any_eq_false, beq_iff_eq] at hfresh
  simp only [not_or, Bool.not_eq_true, List.any_eq_false, bne_iff_ne, ne_eq, not_not] at hinert
  exact .of_commitDirty (.registers (by simpa using hopen) hfresh.1 hinert.2.2) h

theorem planFullBasis_ok {basis : FullBasis} (h : planFullBasis snapshot g basis = .ok plan) :
    Transition snapshot g plan [] := by
  unfold planFullBasis at h
  obtain ⟨hlive, h⟩ := failIf_bind_eq_ok.1 h
  obtain ⟨-, h⟩ := failIf_bind_eq_ok.1 h
  simp only [not_or, Bool.not_eq_false] at hlive
  refine .of_authority _ (.full basis) (.inr ⟨hlive.1, ?_⟩) h
  split
  · rfl
  · rfl

theorem planQuiesce_ok {basis : FullBasis} (h : planQuiesce snapshot g basis = .ok plan) :
    Transition snapshot g plan [] := by
  unfold planQuiesce at h
  obtain ⟨hlive, h⟩ := failIf_bind_eq_ok.1 h
  simp only [not_or, Bool.not_eq_false] at hlive
  refine .of_authority _ (.full basis) (.inr ⟨hlive.1, ?_⟩) h
  split
  · rfl
  · rfl

/-! ## Events of effects -/

theorem planCancelQueued_ok (h : planCancelQueued snapshot g effectSequence = .ok plan) :
    Transition snapshot g plan [] := by
  unfold planCancelQueued at h
  obtain ⟨-, h⟩ := failIf_bind_eq_ok.1 h
  exact .of_commitDirty (.cancels _) h

theorem nextScheduled_mem {queued : QueuedEffect} (h : nextScheduled g = some queued) :
    queued ∈ g.queue := by
  rcases Option.or_eq_some_iff.1 h with hcleanup | hhead
  · exact List.mem_of_find?_eq_some hcleanup
  · exact List.mem_of_mem_head? hhead.2

theorem armable_spec {queued : QueuedEffect} (h : armable g effectSequence = some queued) :
    queued ∈ g.queue ∧ queued.effectSequence = effectSequence := by
  have hnext : (nextScheduled g).filter (fun queued => queued.effectSequence == effectSequence) =
      some queued → queued ∈ g.queue ∧ queued.effectSequence = effectSequence := by
    intro hfilter
    obtain ⟨hscheduled, hnumber⟩ := Option.filter_eq_some_iff.1 hfilter
    exact ⟨nextScheduled_mem hscheduled, by simpa using hnumber⟩
  unfold armable at h
  split at h
  · rename_i growth hgrowth
    split at h
    · rename_i hfirst
      cases h
      exact ⟨List.mem_of_find?_eq_some hgrowth, hfirst.1⟩
    · exact hnext h
  · exact hnext h

theorem planArm_ok {before input : JsString}
    (h : planArm snapshot g effectSequence before input = .ok plan) :
    ∃ recipe, (∃ next, plan = .arm next recipe) ∧ Transition snapshot g plan [.armed recipe] := by
  unfold planArm at h
  obtain ⟨hfree, h⟩ := failIf_bind_eq_ok.1 h
  split at h
  · rename_i queued number memberId role action binding requested harmable
    obtain ⟨-, hnumber⟩ := armable_spec harmable
    split at h
    · cases h
    · rename_i member hmember
      split at h
      · cases h
      · rename_i resource hresource
        obtain ⟨hgrowth, h⟩ := failIf_bind_eq_ok.1 h
        obtain ⟨hidentity, h⟩ := failIf_bind_eq_ok.1 h
        split at h
        · cases h
        · rename_i ledger hledger
          obtain ⟨hadmits, h⟩ := failIf_bind_eq_ok.1 h
          obtain ⟨next, rfl, hcommitted⟩ := commitArmed_ok rfl h
          simp only [Bool.not_eq_false] at hadmits
          refine ⟨_, ⟨next, rfl⟩, .changes (.arms (by simpa using hfree) ?_ rfl rfl
            hmember hresource hledger (fun hclean => ?_) ?_ hadmits) hcommitted⟩
          · rw [hnumber]
            exact harmable
          · simp only [hclean, true_and, not_or, Bool.not_eq_false, Bool.not_eq_true] at hgrowth
            exact ⟨hgrowth.1, hgrowth.2.1, hgrowth.2.2.1, hgrowth.2.2.2⟩
          · by_cases hc : action = .create
            · simpa [hc] using hidentity
            · simpa [hc] using hidentity
  · cases h

theorem planReturned_ok {id : JsString} (h : planReturned snapshot g effectSequence id = .ok plan) :
    Transition snapshot g plan
      (g.entered.toList.map fun entered => .returned entered.owner id) := by
  unfold planReturned at h
  obtain ⟨⟨entered, role, action, member⟩, hrequest, h⟩ := bind_eq_ok.1 h
  obtain ⟨hentered, hrole, haction, hmember⟩ := originalRequest_ok hrequest
  obtain ⟨hguard, h⟩ := failIf_bind_eq_ok.1 h
  simp only [not_or, not_and, not_not] at hguard
  rw [hentered]
  exact .of_commitDirty (.returns hentered hrole (hguard.1 ▸ haction) hmember hguard.2) h

theorem planSettle_ok {settlement : Settlement}
    (h : planSettle snapshot g effectSequence settlement = .ok plan) :
    Transition snapshot g plan (g.entered.toList.flatMap fun entered =>
      (settlement.readback entered).toList.map fun id => .identified entered.owner id) := by
  unfold planSettle at h
  obtain ⟨⟨entered, role, action, member⟩, hrequest, h⟩ := bind_eq_ok.1 h
  obtain ⟨hentered, hrole, haction, hmember⟩ := originalRequest_ok hrequest
  obtain ⟨next, hnext, h⟩ := bind_eq_ok.1 h
  obtain ⟨hdispatched, h⟩ := failIf_bind_eq_ok.1 h
  obtain ⟨hpresent, h⟩ := failIf_bind_eq_ok.1 h
  obtain ⟨habsent, h⟩ := failIf_bind_eq_ok.1 h
  simp only [not_and, not_not, Bool.not_eq_false] at hdispatched hpresent habsent
  have hacts : (g.entered.toList.flatMap fun entered =>
      (settlement.readback entered).toList.map fun id => Act.identified entered.owner id) =
      (settlement.readback entered).toList.map fun id => .identified entered.owner id := by
    simp [hentered]
  rw [hacts]
  exact .of_commitDirty (.settles hentered hrole haction hmember (continuationWith_ok hnext)
    hdispatched hpresent habsent) h

/-! ## Events of members -/

theorem planCheckpoint_ok {mode : CheckpointMode}
    (h : planCheckpoint snapshot g memberId record mode = .ok plan) :
    Transition snapshot g plan [] := by
  unfold planCheckpoint at h
  obtain ⟨member, hmember, h⟩ := bind_eq_ok.1 h
  obtain ⟨-, h⟩ := failIf_bind_eq_ok.1 h
  obtain ⟨next, hnext, h⟩ := bind_eq_ok.1 h
  have hcontinued := continuation_ok hnext
  exact .of_commitDirty (.updates (currentMember_ok hmember).2 hcontinued.carried hcontinued.roles) h

theorem planCallerSinkFailed_ok (h : planCallerSinkFailed snapshot g memberId = .ok plan) :
    Transition snapshot g plan [] := by
  unfold planCallerSinkFailed at h
  obtain ⟨member, hmember, h⟩ := bind_eq_ok.1 h
  have hcarried : Carried member { member with
      checkpoint := { member.checkpoint with
        callerSink := if member.checkpoint.callerSink.isFailed then member.checkpoint.callerSink
          else .failed (snapshot.sequence + 1) }
      state := .cleanup_pending .storage } := by
    refine ⟨rfl, rfl, rfl, rfl, fun role resource hr => ⟨resource, hr, rfl, .refl _⟩,
      fun _ h => h, fun hfailed => by simp [hfailed], ?_⟩
    cases member.state <;> simp [MemberState.stage]
  exact .of_commitDirty (.updates (currentMember_ok hmember).2 hcarried rfl) h

theorem planMemberState_ok {requested : MemberState}
    (h : planMemberState snapshot g memberId requested = .ok plan) :
    Transition snapshot g plan [] := by
  unfold planMemberState at h
  obtain ⟨member, hmember, h⟩ := bind_eq_ok.1 h
  obtain ⟨hallowed, h⟩ := failIf_bind_eq_ok.1 h
  obtain ⟨-, h⟩ := failIf_bind_eq_ok.1 h
  have hcarried : Carried member { member with state := member.state.subsume requested } :=
    ⟨rfl, rfl, rfl, rfl, fun role resource hr => ⟨resource, hr, rfl, .refl _⟩, fun _ h => h,
      fun _ => rfl, MemberState.allows_stage (by simpa using hallowed)⟩
  exact .of_commitDirty (.updates (currentMember_ok hmember).2 hcarried rfl) h

/-- A change of the scopes a member owns. -/
theorem Transition.of_work {work : WorkOwnership}
    (hmember : currentMember g memberId = .ok member)
    (h : commitDirty snapshot (replaceMember g { member with work }) = .ok plan) :
    Transition snapshot g plan [] := by
  have hcarried : Carried member { member with work } :=
    ⟨rfl, rfl, rfl, rfl, fun role resource hr => ⟨resource, hr, rfl, .refl _⟩, fun _ h => h,
      fun _ => rfl, Nat.le_refl _⟩
  exact .of_commitDirty (.updates (currentMember_ok hmember).2 hcarried rfl) h

theorem planWorkEnter_ok {token : JsString} {scope : ScopeName}
    (h : planWorkEnter snapshot g memberId scope token = .ok plan) :
    Transition snapshot g plan [] := by
  unfold planWorkEnter at h
  obtain ⟨member, hmember, h⟩ := bind_eq_ok.1 h
  obtain ⟨-, h⟩ := failIf_bind_eq_ok.1 h
  exact .of_work hmember h

theorem planWorkJoin_ok {token : JsString} {scope : ScopeName}
    (h : planWorkJoin snapshot g memberId scope token = .ok plan) :
    Transition snapshot g plan [] := by
  unfold planWorkJoin at h
  obtain ⟨member, hmember, h⟩ := bind_eq_ok.1 h
  split at h
  · cases h
    exact .unchanged
  · cases h
    exact .unchanged
  · obtain ⟨-, h⟩ := failIf_bind_eq_ok.1 h
    exact .of_work hmember h

theorem planSettleRecoveredWork_ok {proofDigest : JsString}
    (h : planSettleRecoveredWork snapshot g memberId proofDigest = .ok plan) :
    Transition snapshot g plan [] := by
  unfold planSettleRecoveredWork at h
  obtain ⟨member, hmember, h⟩ := bind_eq_ok.1 h
  obtain ⟨-, h⟩ := failIf_bind_eq_ok.1 h
  exact .of_work hmember h

theorem planQueue_ok {role : EffectRole} {action : EffectAction}
    (h : planQueue snapshot g memberId role action = .ok plan) :
    Transition snapshot g plan ((g.member? memberId).toList.map fun member =>
      .numbered (queuedEffect snapshot g member role action)) := by
  unfold planQueue at h
  obtain ⟨member, hmember, h⟩ := bind_eq_ok.1 h
  obtain ⟨hfound, hself⟩ := currentMember_ok hmember
  obtain ⟨-, h⟩ := failIf_bind_eq_ok.1 h
  obtain ⟨hgrowth, h⟩ := failIf_bind_eq_ok.1 h
  obtain ⟨-, h⟩ := failIf_bind_eq_ok.1 h
  obtain ⟨hunowned, h⟩ := failIf_bind_eq_ok.1 h
  obtain ⟨hcell, h⟩ := failIf_bind_eq_ok.1 h
  obtain ⟨-, h⟩ := failIf_bind_eq_ok.1 h
  rw [hfound]
  refine .of_commitDirty (.queues hself (fun effect heffect howner => ?_) (fun hordinary => ?_)
    fun receipt hreceipt hentered => ?_) h
  · exact hunowned (List.any_eq_true.2 ⟨effect, heffect, by simpa using howner⟩)
  · simp only [hordinary, true_and, not_or, Bool.not_eq_false, Bool.not_eq_true] at hgrowth
    exact ⟨hgrowth.1, hgrowth.2.1, hgrowth.2.2.1, hgrowth.2.2.2.1⟩
  · rw [Option.mem_def.1 hreceipt] at hcell
    simpa [hentered] using hcell

theorem planResolveUncertain_ok {resolution : Resolution}
    (h : planResolveUncertain snapshot g memberId resolution = .ok plan) :
    Transition snapshot g plan [] := by
  unfold planResolveUncertain at h
  obtain ⟨member, hmember, h⟩ := bind_eq_ok.1 h
  split at h
  · cases h
  · rename_i ledger hledger
    split at h
    · rename_i effect intent hcell
      obtain ⟨-, h⟩ := failIf_bind_eq_ok.1 h
      obtain ⟨hkeeps, h⟩ := failIf_bind_eq_ok.1 h
      obtain ⟨habsent, h⟩ := failIf_bind_eq_ok.1 h
      obtain ⟨continued, hcontinued, h⟩ := bind_eq_ok.1 h
      simp only [not_and, Bool.not_eq_false] at hkeeps habsent
      exact .of_commitDirty (.resolves (currentMember_ok hmember).2 hledger hcell
        (continuationWith_ok hcontinued) hkeeps habsent) h
    · cases h

theorem planRetire_ok {mode : CheckpointMode}
    (h : planRetire snapshot g memberId record mode = .ok plan) :
    Transition snapshot g plan ((g.member? memberId).toList.map .retired) := by
  unfold planRetire at h
  obtain ⟨member, hmember, h⟩ := bind_eq_ok.1 h
  obtain ⟨hfound, hself⟩ := currentMember_ok hmember
  obtain ⟨hguard, h⟩ := failIf_bind_eq_ok.1 h
  obtain ⟨next, -, h⟩ := bind_eq_ok.1 h
  obtain ⟨-, h⟩ := failIf_bind_eq_ok.1 h
  simp only [not_or, Bool.not_eq_false, Bool.not_eq_true, List.any_eq_false, Bool.and_eq_true,
    beq_iff_eq, bne_iff_ne, ne_eq, not_and, not_not] at hguard
  rw [hfound]
  refine .of_commitDirty (.retires hself hguard.1 hguard.2.1 (fun entry hentry => ?_)
    (fun entered hentered hsame => ?_) rfl rfl) h
  · exact hguard.2.2.2 entry hentry
  · have hnot := hguard.2.2.1
    rw [DirtyGeneration.hasEntered, Option.mem_def.1 hentered] at hnot
    simp [hsame] at hnot

/-! ## Every event -/

theorem planDirtyTransition_ok {event : CoordinatorEvent}
    (h : planDirtyTransition snapshot g event = .ok plan) :
    Transition snapshot g plan (actsOf snapshot g plan event) ∨
      event = .clean_close ∧ Closing snapshot g plan := by
  cases event with
  | close_admission => exact .inl (planCloseAdmission_ok h)
  | fence fault => exact .inl (planFence_ok h)
  | clean_close => exact .inr ⟨rfl, planCleanClose_ok h⟩
  | reopen_cleanup => exact .inl (planReopenCleanup_ok h)
  | register record binding slot => exact .inl (planRegister_ok h)
  | full_basis basis => exact .inl (planFullBasis_ok h)
  | quiesce basis => exact .inl (planQuiesce_ok h)
  | cancel_queued effectSequence => exact .inl (planCancelQueued_ok h)
  | arm effectSequence before input =>
    obtain ⟨recipe, ⟨next, rfl⟩, htransition⟩ := planArm_ok h
    exact .inl htransition
  | returned effectSequence id => exact .inl (planReturned_ok h)
  | settle effectSequence settlement => exact .inl (planSettle_ok h)
  | checkpoint memberId record mode => exact .inl (planCheckpoint_ok h)
  | caller_sink_failed memberId => exact .inl (planCallerSinkFailed_ok h)
  | member_state memberId state => exact .inl (planMemberState_ok h)
  | work_enter memberId scope token => exact .inl (planWorkEnter_ok h)
  | work_join memberId scope token => exact .inl (planWorkJoin_ok h)
  | settle_recovered_work memberId proofDigest => exact .inl (planSettleRecoveredWork_ok h)
  | queue memberId role action => exact .inl (planQueue_ok h)
  | resolve_uncertain memberId resolution => exact .inl (planResolveUncertain_ok h)
  | retire memberId record mode => exact .inl (planRetire_ok h)

/-- **An accepted event** is a transition of the dirty generation, with the acts
of the event, or its clean close. -/
theorem planCoordinatorTransition_ok {event : CoordinatorEvent}
    (h : planCoordinatorTransition snapshot event = .ok plan) :
    ∃ g, snapshot.generation = .dirty g ∧
      (Transition snapshot g plan (actsOf snapshot g plan event) ∨
        event = .clean_close ∧ Closing snapshot g plan) := by
  unfold planCoordinatorTransition at h
  cases hg : snapshot.generation with
  | clean previous => simp [hg] at h
  | dirty g =>
    simp only [hg] at h
    obtain ⟨-, h⟩ := failIf_bind_eq_ok.1 h
    exact ⟨g, rfl, planDirtyTransition_ok h⟩

end AgentSdk.Journal
