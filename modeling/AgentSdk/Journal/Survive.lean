import AgentSdk.Journal.Held
import AgentSdk.Journal.NoReplay

/-!
# Obligations survive until they are discharged

The obligations of a generation over every run: a step keeps a member or retires
it discharged, a generation closes when everyone was discharged, and recovery is
accepted at every moment.

## Main results

* `obligations_survive` — every moment of a run and the step that follows it.
* `entered_cleanup_stays` — recovery for cleanup only leaves an entered cleanup.
-/

namespace AgentSdk.Journal

open AgentSdk.Text AgentSdk.Outcome AgentSdk.Json

/-! ## Members and generations that end -/

/-- What a step does to the obligations of a generation. -/
structure Survives (journal next : JournalState) (g : DirtyGeneration) : Prop where
  /-- A member is kept, or it was discharged and nothing of it is left. -/
  member : ∀ memberId member, g.member? memberId = some member →
    (∃ g' current, next.snapshot.generation = .dirty g' ∧ g'.member? memberId = some current ∧
      MemberKept member current) ∨
    Discharged journal.acts member ∧ ∃ g', next.snapshot.generation = .dirty g' ∧
      g'.member? memberId = none ∧ (∃ tombstone ∈ g'.retired, tombstone.memberId = memberId) ∧
      ∀ effect ∈ g'.effects, effect.memberId ≠ memberId
  /-- A generation is clean when nothing is left and every armed action was of a
  member that was discharged. -/
  closed : ∀ clean, next.snapshot.generation = .clean clean →
    g.members = [] ∧ g.effects = [] ∧ ∀ recipe, .armed recipe ∈ journal.acts →
      ∃ member, .retired member ∈ journal.acts ∧ member.memberId = recipe.memberId ∧
        Discharged journal.acts member

variable {journal : JournalState}

theorem Survives.refl {g : DirtyGeneration} (hg : journal.snapshot.generation = .dirty g) :
    Survives journal journal g := by
  refine ⟨fun memberId member found => .inl ⟨g, member, hg, found, .refl member⟩,
    fun clean hclean => ?_⟩
  rw [hg] at hclean
  cases hclean

/-- Nothing is queued or entered for an identity that is nobody's. -/
theorem GenerationSound.unqueued {snapshot : CoordinatorSnapshot} {g : DirtyGeneration}
    (sound : GenerationSound snapshot g) {memberId : JsString} (gone : g.member? memberId = none) :
    ∀ effect ∈ g.effects, effect.memberId ≠ memberId := by
  intro effect heffect hid
  have hcurrent := (sound.queued effect heffect).2.1
  rw [hid, gone] at hcurrent
  cases hcurrent

theorem JournalState.Held.survives (held : journal.Held) (call : Call) {g : DirtyGeneration}
    (hg : journal.snapshot.generation = .dirty g) : Survives journal (journal.step call) g := by
  cases call with
  | begin_ identity basis =>
    rcases journal.step_begin identity basis with hsame | hbegun
    · rw [hsame]
      exact .refl hg
    · obtain ⟨previous, _, hclean, -⟩ := hbegun
      rw [hg] at hclean
      cases hclean
  | transition event =>
    rcases journal.step_transition event with hsame | haccepted
    · rw [hsame]
      exact .refl hg
    · obtain ⟨found, hfound, houtcome⟩ := haccepted
      rw [hg] at hfound
      cases hfound
      generalize journal.step (.transition event) = next at houtcome
      have hhistory := held.sound.history g hg
      have hobligations := held.obligations g hg
      have hsound := held.sound.valid.sound hg
      cases houtcome with
      | unchanged => exact .refl hg
      | @changed _ g' new generation valid acts change =>
        have hsound' := valid.sound generation
        refine ⟨fun memberId member hmember => ?_, fun clean hclean => ?_⟩
        · have hid := (member?_spec hmember).2
          rcases change.member hhistory.slot hmember with hstays | hgone
          · obtain ⟨current, hcurrent, hstep⟩ := hstays
            subst hid
            exact .inl ⟨g', current, generation, hcurrent,
              hstep.kept hhistory.identities hsound hsound' hmember hcurrent⟩
          · have hact : Act.retired member ∈ new := by simp [hgone.1]
            obtain ⟨tombstone, hmem, hnamed⟩ :=
              (change.retired hhistory.slot).2 member hgone.1
            exact .inr ⟨hobligations.discharged hhistory hsound change hact, g', generation,
              hgone.2, ⟨tombstone, hmem, hnamed.trans hid⟩, hsound'.unqueued hgone.2⟩
        · rw [generation] at hclean
          cases hclean
      | closed closing admission members queue entered generation valid ordinal acts =>
        refine ⟨fun memberId member hmember => ?_, fun clean _ => ⟨members, ?_,
          fun recipe hact => ?_⟩⟩
        · have hmem := (member?_spec hmember).1
          rw [members] at hmem
          cases hmem
        · simp [DirtyGeneration.effects, queue, entered]
        · rcases hobligations.armed recipe hact with hcell | hretired
          · rw [DirtyGeneration.cell?, DirtyGeneration.member?, members] at hcell
            cases hcell
          · obtain ⟨member, hmember, hid⟩ := hretired
            exact ⟨member, hmember, hid, (hobligations.retired member hmember).1⟩

/-! ## Recovery at any moment -/

/-- What recovery does to a dirty snapshot that has a sequence left. -/
structure Reopens (snapshot : CoordinatorSnapshot) (g : DirtyGeneration)
    (next : CoordinatorSnapshot) (g' : DirtyGeneration) : Prop where
  accepted : planCoordinatorTransition snapshot .reopen_cleanup = .ok (.commit next)
  generation : next.generation = .dirty g'
  cleanup : g'.state.isCleanupOnly = true
  /-- A generation that was not for cleanup only is recovered. -/
  recovered : g.state.isCleanupOnly = false → Recovered g g'
  /-- One that was is left as it is, an entered cleanup included. -/
  unchanged : g.state.isCleanupOnly = true → next = snapshot
  repeated : next.sequence < MAX_SAFE_INTEGER →
    planCoordinatorTransition next .reopen_cleanup = .ok (.commit next)

theorem JournalState.Held.reopens (held : journal.Held) {g : DirtyGeneration}
    (hg : journal.snapshot.generation = .dirty g)
    (room : journal.snapshot.sequence < MAX_SAFE_INTEGER) :
    ∃ next g', Reopens journal.snapshot g next g' := by
  cases hcleanup : g.state.isCleanupOnly with
  | true =>
    have haccepted := planReopenCleanup_repeated hg hcleanup room
    refine ⟨journal.snapshot, g, haccepted, hg, hcleanup, fun hnot => ?_, fun _ => rfl,
      fun _ => haccepted⟩
    rw [hcleanup] at hnot
    cases hnot
  | false =>
    have hslot := (held.sound.history g hg).slot
    obtain ⟨digest, -, haccepted⟩ := planReopenCleanup_accepted held.sound.valid hg hslot
      (held.openings g hg) hcleanup room
    have hrecovered : Recovered g (g.recoveredWith digest) :=
      recovered_kept hslot (held.sound.valid.sound hg)
    refine ⟨_, g.recoveredWith digest, haccepted, rfl, hrecovered.cleanup, fun _ => hrecovered,
      fun hyes => ?_, planReopenCleanup_repeated rfl hrecovered.cleanup⟩
    rw [hcleanup] at hyes
    cases hyes

/-- After a generation is for cleanup only, no create and no start is armed. -/
theorem Kept.cleanup_arms {g g' : DirtyGeneration} {acts : List Act} (h : Kept g g' acts)
    (cleanup : g.state.isCleanupOnly = true) : growthArms acts = [] := by
  refine List.eq_nil_iff_forall_not_mem.2 fun owner howner => ?_
  have hended : g.liveState = false := by
    rw [Bool.eq_false_iff, ne_eq, DirtyGeneration.liveState_iff]
    simp [cleanup]
  exact h.growth owner howner (.ended hended)

/-- **Obligations survive until they are discharged.**  At every moment of a run: a
step keeps each member or retires it discharged, and a generation is clean only
when every armed action was of a member that was discharged; while a sequence is
left recovery is accepted, changes nothing when it is repeated, and keeps members,
checkpoints, presences and tombstones, where only the entered action becomes
uncertain; and once a generation is for cleanup only, no growth is armed in it. -/
theorem obligations_survive {authorityId daemonId : JsString} {start : CoordinatorSnapshot}
    (h : createInitialCoordinatorSnapshot authorityId daemonId = .ok start)
    (earlier : List Call) {g : DirtyGeneration}
    (hg : (JournalState.after start earlier).snapshot.generation = .dirty g) :
    (∀ call, Survives (JournalState.after start earlier)
      ((JournalState.after start earlier).step call) g) ∧
    ((JournalState.after start earlier).snapshot.sequence < MAX_SAFE_INTEGER →
      ∃ next g', Reopens (JournalState.after start earlier).snapshot g next g') ∧
    (g.state.isCleanupOnly = true → ∀ later g',
      (JournalState.after start (earlier ++ later)).snapshot.generation = .dirty g' →
      g'.identity.ordinal = g.identity.ordinal →
      ∃ new, (JournalState.after start (earlier ++ later)).acts =
        (JournalState.after start earlier).acts ++ new ∧ growthArms new = []) := by
  have hheld := JournalState.run_held h earlier
  refine ⟨fun call => hheld.survives call hg, fun room => hheld.reopens hg room,
    fun hcleanup later g' hg' hordinal => ?_⟩
  obtain ⟨new, hacts, hkept⟩ := (JournalState.run_later h earlier later).kept g g' hg hg' hordinal
  exact ⟨new, hacts, hkept.cleanup_arms hcleanup⟩

/-! ## Two crashes of one member -/

namespace Sample

def memberId : JsString := js "00000000-0000-4000-8000-000000000003"

/-- The record of a sandbox with one observer. -/
def record (phase : SandboxRecoveryPhase) (authority : SandboxRecoveryAuthority)
    (observer : SandboxResourceIdentity) : SandboxRecoveryRecord :=
  { backendId := js "agenai-docker"
    backendRevision := Profile.native_arm64.backendRevision
    namespace_ := js "sample"
    operationId := memberId
    sandboxId := js "docker-" ++ memberId
    imageDigest := digest 97
    policyDigest := digest 98
    configurationDigest := digest 99
    phase, authority
    resources := [{ role := .route_observer, name := js "observer", identity := observer }] }

def reserved : SandboxRecoveryRecord := record .reserved .unverified .planned

def creating : SandboxRecoveryRecord := record .starting (.verified daemonId) .creating

def identified : SandboxRecoveryRecord :=
  record .starting (.verified daemonId) (.identified (js "id") (digest 100))

def recordDigest (record : SandboxRecoveryRecord) : JsString :=
  coordinatorDigest "agenai.desktop-coordinator.recovery-record.v1" (Json.stringify record.json)

def identityDigest : JsString :=
  memberIdentityDigest authorityId (engineKeyOf daemonId) identity reserved 1 0 (subnetOf 0)
    (gatewayOf 0) (digest 99)

/-- The member at a revision of its checkpoint. -/
def member (revision : Nat) (record : SandboxRecoveryRecord) (state : MemberState)
    (work : WorkOwnership) (ledger : RoleLedger) : CoordinatorMember :=
  { memberId
    memberSequence := 1
    binding :=
      { identityDigest, initialRecordDigest := recordDigest reserved
        configurationIdentityDigest := digest 99, profile := .native_arm64 }
    checkpoint := { revision, digest := recordDigest record, record, callerSink := .healthy }
    state
    allocation := .reserved 0 (subnetOf 0) (gatewayOf 0)
    roles := [ledger]
    projection := .none
    work }

def generation (state : GenerationState) (nextEffectSequence : Nat) (member : CoordinatorMember)
    (queue : List QueuedEffect) (entered : Option EnteredEffect) : DirtyGeneration :=
  { identity, state, basis, nextMemberSequence := 2, nextEffectSequence, members := [member], queue
    entered, retired := [] }

/-- The records of the sample are admitted. -/
theorem admitted_record : reserved.admitted = true ∧ creating.admitted = true ∧
    identified.admitted = true := by
  have hbackend : isIdentity (js "agenai-docker") = true := by decide
  have hrevision : isIdentity Profile.native_arm64.backendRevision = true := by decide
  have hnamespace : isNamespace (js "sample") = true := by decide
  have hmember : isIdentity memberId = true := by decide
  have hsandbox : isIdentity (js "docker-" ++ memberId) = true := by decide
  have himage : isDigest (digest 97) = true := by decide
  have hpolicy : isDigest (digest 98) = true := by decide
  have hconfiguration : isDigest (digest 99) = true := by decide
  have hfingerprint : isDigest (digest 100) = true := by decide
  have hdaemon : isIdentity daemonId = true := by decide
  have hname : isIdentity (js "observer") = true := by decide
  have hid : isIdentity (js "id") = true := by decide
  refine ⟨?_, ?_, ?_⟩
  · simp [SandboxRecoveryRecord.admitted, reserved, record, hbackend, hrevision, hnamespace,
      hmember, hsandbox, himage, hpolicy, hconfiguration, hname, SandboxRecoveryAuthority.admitted,
      SandboxRecoveryResource.admitted, SandboxResourceIdentity.admitted]
  · simp [SandboxRecoveryRecord.admitted, creating, record, hbackend, hrevision, hnamespace,
      hmember, hsandbox, himage, hpolicy, hconfiguration, hname, hdaemon,
      SandboxRecoveryAuthority.admitted, SandboxRecoveryResource.admitted,
      SandboxResourceIdentity.admitted]
  · simp [SandboxRecoveryRecord.admitted, identified, record, hbackend, hrevision, hnamespace,
      hmember, hsandbox, himage, hpolicy, hconfiguration, hname, hdaemon, hid, hfingerprint,
      SandboxRecoveryAuthority.admitted, SandboxRecoveryResource.admitted,
      SandboxResourceIdentity.admitted]

/-- What the stages of the member's checkpoint have in common. -/
structure Stage (revision : Nat) (r : SandboxRecoveryRecord) : Prop where
  admitted : r.admitted = true
  initial : r.initial = reserved
  operation : r.operationId = memberId
  backend : r.backendId = js "agenai-docker"
  backendRevision : r.backendRevision = Profile.native_arm64.backendRevision
  configuration : r.configurationDigest = digest 99
  sandbox : r.sandboxId = js "docker-" ++ memberId
  authority : r.authority = .unverified ∨ r.authority = .verified daemonId
  first : revision = 0 → r = reserved
  bound : revision ≤ 2
  role : ∃ observer, r.resources =
    [{ role := .route_observer, name := js "observer", identity := observer }]
  digest : memberIdentityDigest authorityId (engineKeyOf daemonId) identity r 1 0 (subnetOf 0)
    (gatewayOf 0) (Sample.digest 99) = identityDigest

theorem stage_reserved : Stage 0 reserved :=
  ⟨admitted_record.1, rfl, rfl, rfl, rfl, rfl, rfl, .inl rfl, fun _ => rfl, by omega, ⟨_, rfl⟩, rfl⟩

theorem stage_creating : Stage 1 creating :=
  ⟨admitted_record.2.1, rfl, rfl, rfl, rfl, rfl, rfl, .inr rfl, by omega, by omega, ⟨_, rfl⟩, rfl⟩

theorem stage_identified : Stage 2 identified :=
  ⟨admitted_record.2.2, rfl, rfl, rfl, rfl, rfl, rfl, .inr rfl, by omega, by omega, ⟨_, rfl⟩, rfl⟩

variable {sequence revision : Nat} {previous : JsString} {r : SandboxRecoveryRecord}
  {state : MemberState} {work : WorkOwnership} {ledger : RoleLedger} {g : DirtyGeneration}

theorem validateCheckpoint_sample (stage : Stage revision r) (hsequence : 2 ≤ sequence) :
    validateCheckpoint (snapshot sequence previous g) (member revision r state work ledger) =
      .ok () := by
  have hrecord := (recoveryRecordDigest_of_admitted stage.admitted).2
  have hinitial : initialRecoveryDigest r = .ok (recordDigest reserved) := by
    rw [initialRecoveryDigest, stage.initial]
    exact (recoveryRecordDigest_of_admitted stage_reserved.admitted).2
  unfold validateCheckpoint
  refine bind_eq_ok.2 ⟨_, hrecord, bind_eq_ok.2 ⟨_, hinitial, failIf_eq_ok.2 ?_⟩⟩
  simp only [not_or, not_and, not_not]
  have hbound := stage.bound
  refine ⟨stage.operation, stage.backend, stage.backendRevision, stage.configuration, stage.sandbox,
    ?_, rfl, rfl, ?_, fun hzero => ?_, ?_⟩
  · intro hnot
    exact stage.authority.resolve_left hnot
  · exact Nat.not_lt.2 (show revision ≤ sequence by omega)
  · have hfirst := stage.first hzero
    subst hfirst
    exact ⟨rfl, rfl, rfl, by simp [member, reserved, record]⟩
  · simp [member]

/-- What the states of the member have in common. -/
structure Idle (state : MemberState) (work : WorkOwnership) (ledger : RoleLedger) : Prop where
  retained : state ≠ .retained
  bytes : jsonBytes state.json ≤ 60
  scopes : jsonBytes work.json ≤ 240
  tokens : work.tokens = []
  owned : work.scopes.all WorkScope.shape = true
  role : ledger.role = .route_observer
  shape : ledger.shape = true
  named : ∀ id ∈ ledger.presence.named?, jsonBytes (.str id) ≤ 514

theorem shape_member (stage : Stage revision r) (idle : Idle state work ledger) :
    (member revision r state work ledger).shape = true := by
  have hmember : isUuid memberId = true := by decide
  have hsubnet : isSubnet (subnetOf 0) = true := by decide
  have hgateway : isIpv4 (gatewayOf 0) = true := by decide
  have hrevision : isSequence revision = true := by
    refine decide_eq_true (stage.bound.trans ?_)
    decide
  have hparsed : (parseSandboxRecoveryRecord r).isOk = true := by
    rw [(recoveryRecordDigest_of_admitted stage.admitted).1]
    rfl
  have hdigest : ∀ r, isDigest (recordDigest r) = true := fun r => isDigest_coordinatorDigest _ _
  have hidentity : isDigest identityDigest = true := isDigest_coordinatorDigest _ _
  simp only [CoordinatorMember.shape, member, MemberBinding.shape, Checkpoint.shape,
    MemberAllocation.shape, MemberProjection.shape, CallerSink.shape, hmember, hsubnet, hgateway,
    hrevision, hparsed, hdigest, hidentity, digests_shape.2.2.1, idle.owned, idle.shape,
    List.length_cons, List.length_nil, List.all_cons, List.all_nil, Bool.and_true, Bool.true_and]
  rfl

variable {seen : Seen} {gstate : GenerationState} {next number requestedAt : Nat}
  {item : CoordinatorMember} {queue : List QueuedEffect} {entered : Option EnteredEffect}
  {observer : SandboxResourceIdentity} {action : ResourceAction}

theorem validateMember_sample (stage : Stage revision r) (hsequence : 2 ≤ sequence)
    (idle : Idle state work ledger) (hidentity : g.identity = identity)
    (hledger : ∀ observer, r.resources =
        [{ role := .route_observer, name := js "observer", identity := observer }] →
      validateLedger (snapshot sequence previous g) g (member revision r state work ledger)
        { resourceNames := [js "observer"], resourceIds := observer.id?.toList } ledger =
          .ok seen) :
    validateMember (snapshot sequence previous g) g {} (member revision r state work ledger) =
      .ok seen := by
  obtain ⟨observer, hresources⟩ := stage.role
  have hshape := shape_member stage idle
  have hmetadata : jsonBytes (member revision r state work ledger).metadata ≤
      COORDINATOR_JOURNAL_LIMITS.memberMetadataBytes := by
    refine CoordinatorMember.metadata_le hshape idle.bytes idle.scopes
      (List.nodup_singleton ledger.role) .compute (fun entry hentry _ => ?_) trivial
    cases List.mem_singleton.1 hentry
    exact idle.named
  unfold validateMember
  refine bind_eq_ok.2 ⟨{ resourceNames := [js "observer"], resourceIds := observer.id?.toList }, ?_,
    bind_eq_ok.2 ⟨(), validateCheckpoint_sample stage hsequence, bind_eq_ok.2 ⟨(), ?_,
    bind_eq_ok.2 ⟨(), ?_, bind_eq_ok.2 ⟨(), rfl, failIf_bind_eq_ok.2 ⟨Nat.not_lt.2 hmetadata,
    bind_eq_ok.2 ⟨{ resourceNames := [js "observer"], resourceIds := observer.id?.toList }, ?_,
    bind_eq_ok.2 ⟨seen, ?_, bind_eq_ok.2 ⟨(), ?_, rfl⟩⟩⟩⟩⟩⟩⟩⟩⟩
  · show r.resources.foldlM validateResource {} = _
    rw [hresources]
    cases observer <;> rfl
  · have hrole := idle.role
    have hfound : r.resource? ledger.role ≠ none := by
      simp [SandboxRecoveryRecord.resource?, hresources, hrole]
    refine failIf_eq_ok.2 ?_
    simp [member, sortedUnique, hfound, hresources]
  · refine failIf_eq_ok.2 ?_
    simp only [ne_eq, not_or, not_not]
    refine ⟨trivial, trivial, ?_⟩
    rw [hidentity]
    exact stage.digest.symm
  · have htokens : (member revision r state work ledger).work.tokens = [] := idle.tokens
    unfold validateWork
    rw [htokens]
    exact failIf_bind_eq_ok.2 ⟨by simp, failIf_bind_eq_ok.2 ⟨by simp, rfl⟩⟩
  · exact bind_eq_ok.2 ⟨seen, hledger observer hresources, rfl⟩
  · exact failIf_eq_ok.2 fun hbad => idle.retained hbad.1

theorem validateCounters_sample (hsequence : 2 ≤ sequence) (hnext : 0 < next)
    (hstate : gstate = .awaiting_first_observer ∨ gstate.isCleanupOnly = true)
    (hid : item.memberId = memberId) (hnumber : item.memberSequence = 1)
    (hallocation : item.allocation = .reserved 0 (subnetOf 0) (gatewayOf 0))
    (hqueue : queue.length ≤ 1) :
    validateCounters (snapshot sequence previous (generation gstate next item queue entered))
      (generation gstate next item queue entered) = .ok () := by
  have hauthority : memberId ≠ authorityId := by decide
  have hgeneration : memberId ≠ identity.generationId := by decide
  have hdistinct : identity.generationId ≠ authorityId := by decide
  have hslots : (generation gstate next item queue entered).slots.Nodup := by
    simp [DirtyGeneration.slots, generation, hallocation]
  have hsorted : sortedUnique (queue.map QueuedEffect.effectSequence) = true := by
    cases queue with
    | nil => rfl
    | cons effect rest =>
      cases rest with
      | nil => rfl
      | cons other rest => simp at hqueue
  unfold validateCounters
  refine failIf_bind_eq_ok.2 ⟨?_, failIf_bind_eq_ok.2 ⟨?_, failIf_bind_eq_ok.2 ⟨?_,
    failIf_bind_eq_ok.2 ⟨?_, failIf_bind_eq_ok.2 ⟨?_, failIf_eq_ok.2 (not_not.2 hslots)⟩⟩⟩⟩⟩
  · have hbasis : basis.atSequence = 1 := rfl
    have hordinal : identity.ordinal = 1 := rfl
    simp only [snapshot, generation, hbasis, hordinal, not_or]
    refine ⟨by omega, by omega, by omega, by omega, hdistinct, by omega, ?_⟩
    rcases hstate with hawaiting | hcleanup
    · simp [hawaiting]
    · cases gstate <;> simp [GenerationState.isCleanupOnly] at hcleanup ⊢
  · have hfull : basis.isFull = false := rfl
    simp only [generation, hfull]
    rcases hstate with hawaiting | hcleanup
    · simp [hawaiting]
    · cases gstate <;> simp [GenerationState.isCleanupOnly] at hcleanup ⊢
  · simp [generation, COORDINATOR_JOURNAL_LIMITS.retirements]
  · simp only [generation, hsorted, not_or]
    exact ⟨by simp [sortedUnique], by simp [sortedUnique], by simp⟩
  · simp [generation, DirtyGeneration.everyone, snapshot, hid, hnumber, hauthority, hgeneration]

theorem shape_sample (hsequence : sequence ≤ 9) (hprevious : isDigest previous = true)
    (hnext : next ≤ 9) (hstate : gstate.shape = true) (hitem : item.shape = true)
    (hqueue : queue.length ≤ 1) (hqueued : queue.all QueuedEffect.shape = true)
    (hentered : entered.all EnteredEffect.shape = true) :
    (snapshot sequence previous (generation gstate next item queue entered)).shape = true := by
  have hauthority : isUuid authorityId = true := by decide
  have hdaemon : isId daemonId = true := by decide
  have hidentity : identity.shape = true := by decide
  have hbasis : basis.shape = true := by decide
  have hkey : isDigest (engineKeyOf daemonId) = true := isDigest_coordinatorDigest _ _
  have hcount : ∀ n, n ≤ 9 → isSequence n = true := fun n hn =>
    decide_eq_true (hn.trans (by decide))
  have hwaiting : queue.length ≤ COORDINATOR_JOURNAL_LIMITS.queue := hqueue.trans (by decide)
  have hfew : decide ([item].length ≤ COORDINATOR_JOURNAL_LIMITS.members) = true := rfl
  simp only [CoordinatorSnapshot.shape, snapshot, Generation.shape, DirtyGeneration.shape,
    generation,
    hauthority, hkey, hdaemon, hcount sequence hsequence, hprevious, hidentity, hstate, hbasis,
    hcount 2 (by omega), hcount next hnext, hitem, hqueued, hentered, hwaiting, hfew,
    Option.all_some, List.all_cons, List.all_nil, Bool.and_true, decide_true]
  rfl

theorem valid_sample (seen : Seen) (stage : Stage revision r) (idle : Idle state work ledger)
    (hlow : 2 ≤ sequence) (hhigh : sequence ≤ 9) (hprevious : isDigest previous = true)
    (hnext : 0 < next ∧ next ≤ 9)
    (hgstate : gstate = .awaiting_first_observer ∨ gstate.isCleanupOnly = true)
    (hshape : gstate.shape = true) (hfew : queue.length ≤ 1) (hone : queue = [] ∨ entered = none)
    (hqueued : queue.all QueuedEffect.shape = true)
    (hentered : entered.all EnteredEffect.shape = true)
    (hledger : ∀ observer, r.resources =
        [{ role := .route_observer, name := js "observer", identity := observer }] →
      validateLedger (snapshot sequence previous
          (generation gstate next (member revision r state work ledger) queue entered))
        (generation gstate next (member revision r state work ledger) queue entered)
        (member revision r state work ledger)
        { resourceNames := [js "observer"], resourceIds := observer.id?.toList } ledger =
          .ok seen)
    (hqueue : ∀ effect ∈ queue, validateEffect (snapshot sequence previous
        (generation gstate next (member revision r state work ledger) queue entered))
      (generation gstate next (member revision r state work ledger) queue entered) seen true effect
      (bytes effect.json) = .ok ())
    (henter : ∀ effect ∈ entered, validateEffect (snapshot sequence previous
        (generation gstate next (member revision r state work ledger) queue entered))
      (generation gstate next (member revision r state work ledger) queue entered) seen false
      effect.toQueuedEffect (bytes effect.json) = .ok ())
    (hslot : validateSlot (snapshot sequence previous
        (generation gstate next (member revision r state work ledger) queue entered))
      (generation gstate next (member revision r state work ledger) queue entered) seen = .ok ()) :
    (snapshot sequence previous
      (generation gstate next (member revision r state work ledger) queue entered)).Valid := by
  have hmember := shape_member stage idle
  have hsnapshot : (snapshot sequence previous
      (generation gstate next (member revision r state work ledger) queue entered)).shape = true :=
    shape_sample hhigh hprevious hnext.2 hshape hmember hfew hqueued hentered
  have hgeneration : (generation gstate next (member revision r state work ledger) queue
      entered).shape = true := by
    simp only [CoordinatorSnapshot.shape, Bool.and_eq_true] at hsnapshot
    exact hsnapshot.2
  have hdirty : validateDirty (snapshot sequence previous
      (generation gstate next (member revision r state work ledger) queue entered))
      (generation gstate next (member revision r state work ledger) queue entered) = .ok () := by
    unfold validateDirty
    refine bind_eq_ok.2 ⟨(), validateCounters_sample hlow hnext.1 hgstate rfl rfl rfl hfew,
      bind_eq_ok.2 ⟨seen,
        bind_eq_ok.2 ⟨seen, validateMember_sample stage hlow idle rfl hledger, rfl⟩,
      failIf_bind_eq_ok.2 ⟨?_, failIf_bind_eq_ok.2 ⟨?_, bind_eq_ok.2 ⟨(), forM_eq_ok.2 hqueue,
      bind_eq_ok.2 ⟨(),
        forM_eq_ok.2 fun effect heffect => henter effect (Option.mem_toList.1 heffect),
      bind_eq_ok.2 ⟨(), hslot, bind_eq_ok.2 ⟨(), rfl,
      failIf_eq_ok.2 (Nat.not_lt.2 (envelope_fits hsnapshot hgeneration))⟩⟩⟩⟩⟩⟩⟩⟩
    · have heffects : (generation gstate next (member revision r state work ledger) queue
          entered).effects.length ≤ 1 := by
        rcases hone with hempty | hnone
        · cases entered <;> simp [generation, DirtyGeneration.effects, hempty]
        · simpa [generation, DirtyGeneration.effects, hnone] using hfew
      have hnodup : ∀ {α : Type} (f : QueuedEffect → α), ((generation gstate next
          (member revision r state work ledger) queue entered).effects.map f).Nodup := by
        intro α f
        cases heffect : (generation gstate next (member revision r state work ledger) queue
            entered).effects with
        | nil => simp
        | cons effect rest =>
          rw [heffect] at heffects
          have hrest : rest = [] := by simpa using heffects
          simp [hrest]
      simp [hnodup]
    · have hgrowth : (queue.filter fun entry => entry.action.isGrowth).length ≤ 1 :=
        (List.length_filter_le _ queue).trans hfew
      exact Nat.not_lt.2 (hgrowth.trans (by decide))
  refine ⟨framed_of_validated hsnapshot rfl hdirty, hsnapshot, ?_⟩
  have hdaemon : isId daemonId = true := by decide
  unfold validateSnapshot
  refine bind_eq_ok.2 ⟨engineKeyOf daemonId, failIf_bind_eq_ok.2 ⟨?_, rfl⟩,
    failIf_bind_eq_ok.2 ⟨not_not.2 rfl, failIf_bind_eq_ok.2 ⟨?_, hdirty⟩⟩⟩
  · simp [snapshot, hdaemon]
  · have hpositive : sequence ≠ 0 := by omega
    simp [snapshot, hpositive]

/-- The ledger of the observer: registered, armed, recovered and armed to be
deleted. -/
def untouched : RoleLedger := emptyRole .route_observer 2

def armed : RoleLedger := untouched.enter .create 1

def abandoned (digest : JsString) : RoleLedger := armed.setCell (.uncertain 1 digest) .create

def deleting (digest : JsString) : RoleLedger := (abandoned digest).setCell (.pending 2) .delete

def effect (number requestedAt : Nat) (action : ResourceAction) : QueuedEffect :=
  { effectSequence := number, memberId, role := .resource .route_observer
    action := .resource action, bindingDigest := identityDigest
    requestedAtSequence := requestedAt }

def createOwner : EffectOwner := ⟨memberId, .resource .route_observer, .resource .create⟩

def deleteOwner : EffectOwner := ⟨memberId, .resource .route_observer, .resource .delete⟩

theorem idle_reserved {ledger : RoleLedger} (h : ledger = untouched ∨ ledger = armed) :
    Idle .reserved (.all .not_entered) ledger := by
  have hstate : jsonBytes MemberState.reserved.json ≤ 60 := by decide
  have hscopes : jsonBytes (WorkOwnership.all .not_entered).json ≤ 240 := by decide
  rcases h with rfl | rfl
  all_goals exact ⟨by simp, hstate, hscopes, rfl, rfl, rfl, rfl, by rintro id ⟨⟩⟩

theorem idle_cleanup {digest : JsString} (hdigest : isDigest digest = true) {ledger : RoleLedger}
    (h : ledger = abandoned digest ∨ ledger = deleting digest) :
    Idle (.cleanup_pending .unknown_outcome) (.all .unavailable_after_recovery) ledger := by
  have hstate : jsonBytes (MemberState.cleanup_pending .unknown_outcome).json ≤ 60 := by
    decide
  have hscopes : jsonBytes (WorkOwnership.all .unavailable_after_recovery).json ≤ 240 := by
    decide
  rcases h with rfl | rfl
  all_goals
    refine ⟨by simp, hstate, hscopes, rfl, rfl, rfl, ?_, by rintro id ⟨⟩⟩
    simp [deleting, abandoned, armed, untouched, emptyRole, RoleLedger.enter, RoleLedger.setCell,
      RoleLedger.shape, RoleLedger.cells, Presence.shape, ActionReceipt.shape, isSequence,
      MAX_SAFE_INTEGER, applicableAction, hdigest]

theorem valid_registered (hprevious : isDigest previous = true) :
    (snapshot 2 previous (generation .awaiting_first_observer 1
      (member 0 reserved .reserved (.all .not_entered) untouched) [] none)).Valid :=
  valid_sample { resourceNames := [js "observer"] } stage_reserved (idle_reserved (.inl rfl))
    (by omega) (by omega) hprevious ⟨by omega, by omega⟩ (.inl rfl) rfl (by simp) (.inl rfl) rfl rfl
    (fun observer hresources => by
      simp only [reserved, record, List.cons.injEq, and_true, SandboxRecoveryResource.mk.injEq,
        true_and] at hresources
      subst hresources
      rfl)
    (by simp) (by simp) rfl

theorem resources_eq {phase : SandboxRecoveryPhase} {authority : SandboxRecoveryAuthority}
    {found : SandboxResourceIdentity}
    (h : (record phase authority observer).resources =
      [{ role := .route_observer, name := js "observer", identity := found }]) :
    observer = found := by
  simp only [record, List.cons.injEq, and_true, SandboxRecoveryResource.mk.injEq, true_and] at h
  exact h

theorem effect_shape (hnumber : number ≤ 9) (hrequested : requestedAt ≤ 9)
    (action : ResourceAction) : (effect number requestedAt action).shape = true := by
  have hmember : isUuid memberId = true := by decide
  have hidentity : isDigest identityDigest = true := isDigest_coordinatorDigest _ _
  have hcount : ∀ n, n ≤ 9 → isSequence n = true := fun n hn =>
    decide_eq_true (hn.trans (by decide))
  simp [QueuedEffect.shape, effect, hmember, hidentity, hcount number hnumber,
    hcount requestedAt hrequested]

theorem validateEffect_sample {queued : Bool} {size : Nat} (idle : Idle state work ledger)
    (hnumber : 0 < number ∧ number < next) (hrequested : requestedAt ≤ sequence)
    (hsize : size ≤ COORDINATOR_JOURNAL_LIMITS.effectBytes)
    (hgrowth : gstate.isCleanupOnly = true → (EffectAction.resource action).isGrowth = false)
    (hunowned : queued = true → seen.owner? number = none) :
    validateEffect (snapshot sequence previous
        (generation gstate next (member revision r state work ledger) queue entered))
      (generation gstate next (member revision r state work ledger) queue entered) seen queued
      (effect number requestedAt action) size = .ok () := by
  have hfound : (generation gstate next (member revision r state work ledger) queue entered).member?
      memberId = some (member revision r state work ledger) := by
    simp [DirtyGeneration.member?, generation, member]
  have hledger : ((member revision r state work ledger).ledger? .route_observer).isNone =
      false := by
    simp [CoordinatorMember.ledger?, member, idle.role]
  have happlicable : applicableAction .route_observer action = true := by cases action <;> rfl
  unfold validateEffect
  refine failIf_bind_eq_ok.2 ⟨?_, failIf_eq_ok.2 ?_⟩
  · simp only [effect, hfound, hledger, happlicable, not_or, not_and]
    refine ⟨by simp [member], by omega, ?_, ?_, Nat.not_lt.2 hsize, by simp, fun hcleanup => ?_⟩
    · exact Nat.not_le.2 hnumber.2
    · exact Nat.not_lt.2 hrequested
    · simp [hgrowth hcleanup]
  · intro hbad
    have hnone : seen.owner? (effect number requestedAt action).effectSequence = none :=
      hunowned hbad.1
    rw [hnone] at hbad
    simp at hbad

theorem valid_checkpointed (hprevious : isDigest previous = true) :
    (snapshot 3 previous (generation .awaiting_first_observer 1
      (member 1 creating .reserved (.all .not_entered) untouched) [] none)).Valid := by
  refine valid_sample { resourceNames := [js "observer"] } stage_creating (idle_reserved (.inl rfl))
    (by omega) (by omega) hprevious ⟨by omega, by omega⟩ (.inl rfl) rfl (by simp) (.inl rfl) rfl rfl
    (fun observer hresources => ?_) (by simp) (by simp) rfl
  cases resources_eq hresources
  rfl

theorem valid_queued (hprevious : isDigest previous = true) :
    (snapshot 4 previous (generation .awaiting_first_observer 2
      (member 1 creating .reserved (.all .not_entered) untouched) [effect 1 4 .create]
      none)).Valid := by
  have hshape : (effect 1 4 .create).shape = true := effect_shape (by omega) (by omega) .create
  have idle : Idle .reserved (.all .not_entered) untouched := idle_reserved (.inl rfl)
  refine valid_sample { resourceNames := [js "observer"] } stage_creating idle (by omega) (by omega)
    hprevious ⟨by omega, by omega⟩ (.inl rfl) rfl (by simp) (.inr rfl) (by simp [hshape]) rfl
    (fun observer hresources => ?_) (fun found hfound => ?_) (by simp) rfl
  · cases resources_eq hresources
    rfl
  · cases List.mem_singleton.1 hfound
    exact validateEffect_sample idle ⟨by omega, by omega⟩ (by omega) (QueuedEffect.bytes_le hshape)
      (by simp [GenerationState.isCleanupOnly]) (fun _ => rfl)

/-- The entered effect of an action. -/
def entry (number requestedAt armedAt revision : Nat) (r : SandboxRecoveryRecord)
    (reference : JsString) (action : ResourceAction) : EnteredEffect :=
  { effect number requestedAt action with
    armedAtSequence := armedAt, checkpointRevision := revision, checkpointDigest := recordDigest r
    reference, expectedBeforeDigest := digest 97
    transitionRecipe := transitionRecipeOf (.resource .route_observer) (.resource action)
    expectedInputDigest := digest 98, result := .unobserved }

theorem entry_shape {armedAt revision : Nat} (hnumber : number ≤ 9) (hrequested : requestedAt ≤ 9)
    (harmed : armedAt ≤ 9) (hrevision : revision ≤ 9) {reference : JsString}
    (hreference : isId reference = true) (action : ResourceAction) :
    (entry number requestedAt armedAt revision r reference action).shape = true := by
  have hcount : ∀ n, n ≤ 9 → isSequence n = true := fun n hn =>
    decide_eq_true (hn.trans (by decide))
  have hdigest : isDigest (recordDigest r) = true := isDigest_coordinatorDigest _ _
  have happlicable : applicableAction .route_observer action = true := by cases action <;> rfl
  have hrecipe : isTransitionRecipe
      (transitionRecipeOf (.resource .route_observer) (.resource action)) = true := by
    simp only [isTransitionRecipe, List.any_eq_true, Bool.and_eq_true, beq_iff_eq]
    refine ⟨.route_observer, by simp [ResourceRole.all], action, ?_, happlicable, rfl⟩
    cases action <;> simp [ResourceAction.all]
  have hqueued : (effect number requestedAt action).shape = true :=
    effect_shape hnumber hrequested action
  simp [EnteredEffect.shape, entry, hqueued, hcount armedAt harmed, hcount revision hrevision,
    hdigest, hreference, digests_shape.1, digests_shape.2.1, hrecipe, EffectResult.shape]

theorem validateSlot_sample {armedAt : Nat} {reference : JsString} (idle : Idle state work ledger)
    (hresources : r.resources =
      [{ role := .route_observer, name := js "observer", identity := observer }])
    (harmed : armedAt ≤ sequence) (hrequested : requestedAt ≤ armedAt)
    (hreference : reference = observer.id?.getD (js "observer"))
    (hidentity : if action = .create then observer = .creating else observer.isIdentified = true)
    (hpresence : action = .create → ∃ number, ledger.presence = .possibly_present number none)
    (hpending : seen.pending = [number]) :
    validateSlot (snapshot sequence previous
        (generation gstate next (member revision r state work ledger) []
          (some (entry number requestedAt armedAt revision r reference action))))
      (generation gstate next (member revision r state work ledger) []
        (some (entry number requestedAt armedAt revision r reference action))) seen = .ok () := by
  have hfound : (generation gstate next (member revision r state work ledger) []
      (some (entry number requestedAt armedAt revision r reference action))).member? memberId =
        some (member revision r state work ledger) := by
    simp [DirtyGeneration.member?, generation, member]
  have hresource : r.resource? .route_observer =
      some { role := .route_observer, name := js "observer", identity := observer } := by
    simp [SandboxRecoveryRecord.resource?, hresources]
  have hledger : (member revision r state work ledger).ledger? .route_observer = some ledger := by
    simp [CoordinatorMember.ledger?, member, idle.role]
  have hrecord : (member revision r state work ledger).checkpoint.record.resource? .route_observer =
      some { role := .route_observer, name := js "observer", identity := observer } := hresource
  unfold validateSlot
  simp only [generation]
  unfold validateEntered
  simp only [entry, effect]
  simp only [generation, entry, effect] at hfound
  rw [hfound]
  simp only [hrecord, hledger]
  refine failIf_bind_eq_ok.2 ⟨?_, failIf_bind_eq_ok.2 ⟨?_, failIf_eq_ok.2 ?_⟩⟩
  · simp only [not_or, not_and, not_not]
    refine ⟨rfl, rfl, Nat.not_lt.2 harmed, Nat.not_lt.2 hrequested, hreference, ?_, trivial,
      by simp⟩
    by_cases hcreate : action = .create
    · simpa [hcreate] using hidentity
    · simpa [hcreate] using hidentity
  · intro hbad
    obtain ⟨number, hp⟩ := hpresence hbad.1
    simp [hp, EffectResult.returnedId] at hbad
  · simp [hpending]

/-- The ledger of the observer while its create is pending.  Only the named parts of
the generation and the member are read. -/
theorem ledger_armed {snapshot : CoordinatorSnapshot} (hnext : g.nextEffectSequence = 2)
    (hitem : item.memberId = memberId)
    (hresource : item.checkpoint.record.resource? .route_observer =
      some { role := .route_observer, name := js "observer", identity := .creating }) :
    validateLedger snapshot g item { resourceNames := [js "observer"] } armed =
      .ok { resourceNames := [js "observer"], effectOwners := [(1, createOwner)]
            pending := [1] } := by
  have hrole : item.checkpoint.record.resource? armed.role = _ := hresource
  unfold validateLedger
  simp only [hrole]
  cases g with
  | mk _ _ _ _ next _ _ _ _ =>
    cases item with
    | mk id _ _ _ _ _ _ _ _ =>
      subst hnext hitem
      rfl

/-- Its ledger while its delete is pending, after recovery. -/
theorem ledger_deleting {snapshot : CoordinatorSnapshot} {digest : JsString}
    (hnext : g.nextEffectSequence = 3) (hitem : item.memberId = memberId)
    (hresource : item.checkpoint.record.resource? .route_observer =
      some { role := .route_observer, name := js "observer"
             identity := .identified (js "id") (Sample.digest 100) }) :
    validateLedger snapshot g item
        { resourceNames := [js "observer"], resourceIds := [js "id"] } (deleting digest) =
      .ok { resourceNames := [js "observer"], resourceIds := [js "id"]
            effectOwners := [(2, deleteOwner), (1, createOwner)], pending := [2] } := by
  have hrole : item.checkpoint.record.resource? (deleting digest).role = _ := hresource
  unfold validateLedger
  simp only [hrole]
  cases g with
  | mk _ _ _ _ next _ _ _ _ =>
    cases item with
    | mk id _ _ _ _ _ _ _ _ =>
      subst hnext hitem
      rfl

theorem valid_armed (hprevious : isDigest previous = true) :
    (snapshot 5 previous (generation .awaiting_first_observer 2
      (member 1 creating .reserved (.all .not_entered) armed) []
      (some (entry 1 4 5 1 creating (js "observer") .create)))).Valid := by
  have hreference : isId (js "observer") = true := by decide
  have hshape : (entry 1 4 5 1 creating (js "observer") .create).shape = true :=
    entry_shape (by omega) (by omega) (by omega) (by omega) hreference .create
  have hentered : (some (entry 1 4 5 1 creating (js "observer") .create)).all EnteredEffect.shape = true :=
    Option.all_some.trans hshape
  have idle : Idle .reserved (.all .not_entered) armed := idle_reserved (.inr rfl)
  refine valid_sample { resourceNames := [js "observer"]
                        effectOwners := [(1, createOwner)]
                        pending := [1] } stage_creating idle (by omega) (by omega)
    hprevious ⟨by omega, by omega⟩ (.inl rfl) rfl (by simp) (.inl rfl) rfl hentered
    (fun observer hresources => ?_) (by simp) (fun found hfound => ?_) ?_
  · cases resources_eq hresources
    exact ledger_armed rfl rfl rfl
  · cases hfound
    exact validateEffect_sample idle ⟨by omega, by omega⟩ (by omega) (EnteredEffect.bytes_le hshape)
      (by simp [GenerationState.isCleanupOnly]) (by simp)
  · exact validateSlot_sample idle rfl (by omega) (by omega) rfl (by simp) (fun _ => ⟨1, rfl⟩) rfl

theorem valid_identified {digest : JsString} (hdigest : isDigest digest = true)
    (hprevious : isDigest previous = true) :
    (snapshot 7 previous (generation (.cleanup_only digest) 2
      (member 2 identified (.cleanup_pending .unknown_outcome) (.all .unavailable_after_recovery)
        (abandoned digest)) [] none)).Valid := by
  refine valid_sample { resourceNames := [js "observer"]
                        resourceIds := [js "id"]
                        effectOwners := [(1, createOwner)] }
    stage_identified (idle_cleanup hdigest (.inl rfl)) (by omega) (by omega) hprevious
    ⟨by omega, by omega⟩ (.inr rfl) hdigest (by simp) (.inl rfl) rfl rfl
    (fun observer hresources => ?_) (by simp) (by simp) rfl
  cases resources_eq hresources
  rfl

theorem valid_requeued {digest : JsString} (hdigest : isDigest digest = true)
    (hprevious : isDigest previous = true) :
    (snapshot 8 previous (generation (.cleanup_only digest) 3
      (member 2 identified (.cleanup_pending .unknown_outcome) (.all .unavailable_after_recovery)
        (abandoned digest)) [effect 2 8 .delete] none)).Valid := by
  have hshape : (effect 2 8 .delete).shape = true := effect_shape (by omega) (by omega) .delete
  have idle := idle_cleanup hdigest (.inl (rfl : abandoned digest = abandoned digest))
  refine valid_sample { resourceNames := [js "observer"]
                        resourceIds := [js "id"]
                        effectOwners := [(1, createOwner)] }
    stage_identified idle (by omega) (by omega) hprevious
    ⟨by omega, by omega⟩ (.inr rfl) hdigest (by simp) (.inr rfl) (by simp [hshape]) rfl
    (fun observer hresources => ?_) (fun found hfound => ?_) (by simp) rfl
  · cases resources_eq hresources
    rfl
  · cases List.mem_singleton.1 hfound
    exact validateEffect_sample idle ⟨by omega, by omega⟩ (by omega) (QueuedEffect.bytes_le hshape)
      (fun _ => rfl) (fun _ => rfl)

theorem valid_deleting {digest : JsString} (hdigest : isDigest digest = true)
    (hprevious : isDigest previous = true) :
    (snapshot 9 previous (generation (.cleanup_only digest) 3
      (member 2 identified (.cleanup_pending .unknown_outcome) (.all .unavailable_after_recovery)
        (deleting digest)) [] (some (entry 2 8 9 2 identified (js "id") .delete)))).Valid := by
  have hreference : isId (js "id") = true := by decide
  have hshape : (entry 2 8 9 2 identified (js "id") .delete).shape = true :=
    entry_shape (by omega) (by omega) (by omega) (by omega) hreference .delete
  have hentered : (some (entry 2 8 9 2 identified (js "id") .delete)).all EnteredEffect.shape = true :=
    Option.all_some.trans hshape
  have idle := idle_cleanup hdigest (.inr (rfl : deleting digest = deleting digest))
  refine valid_sample { resourceNames := [js "observer"]
                        resourceIds := [js "id"]
                        effectOwners := [(2, deleteOwner), (1, createOwner)]
                        pending := [2] } stage_identified idle (by omega) (by omega)
    hprevious ⟨by omega, by omega⟩ (.inr rfl) hdigest (by simp) (.inl rfl) rfl hentered
    (fun observer hresources => ?_) (by simp) (fun found hfound => ?_) ?_
  · cases resources_eq hresources
    exact ledger_deleting rfl rfl rfl
  · cases hfound
    exact validateEffect_sample idle ⟨by omega, by omega⟩ (by omega) (EnteredEffect.bytes_le hshape)
      (fun _ => rfl) (by simp)
  · exact validateSlot_sample idle rfl (by omega) (by omega) rfl
      (by simp [SandboxResourceIdentity.isIdentified]) (by simp) rfl

theorem plan_register : planDirtyTransition (snapshot 1 previous begun) begun
    (.register reserved { profile := .native_arm64, configurationIdentityDigest := digest 99 } 0) =
      commitDirty (snapshot 1 previous begun) (generation .awaiting_first_observer 1
        (member 0 reserved .reserved (.all .not_entered) untouched) [] none) := by
  have hdigest := (recoveryRecordDigest_of_admitted admitted_record.1).2
  have hregistered : registeredMember (snapshot 1 previous begun) begun reserved
      { profile := .native_arm64, configurationIdentityDigest := digest 99 } 0
      (recordDigest reserved) =
        member 0 reserved .reserved (.all .not_entered) untouched := by
    simp only [registeredMember, reserved, record, List.map_cons, List.map_nil,
      List.mergeSort_singleton]
    rfl
  simp only [planDirtyTransition, planRegister, hdigest]
  refine (failIf_bind (by decide)).trans ((failIf_bind ?_).trans ((failIf_bind ?_).trans
    ((failIf_bind ?_).trans ((failIf_bind ?_).trans ?_))))
  · simp only [snapshot, begun]
    decide
  · simp only [begun]
    decide
  · simp [begun, DirtyGeneration.everyone, DirtyGeneration.slots]
  · simp [reserved, record]
  · simp only [ok_bind]
    change commitDirty _ { begun with
      nextMemberSequence := 2
      members := [registeredMember (snapshot 1 previous begun) begun reserved
        { profile := .native_arm64, configurationIdentityDigest := digest 99 } 0
        (recordDigest reserved)] } = _
    rw [hregistered]
    rfl

theorem digests_differ : recordDigest creating ≠ recordDigest reserved ∧
    recordDigest identified ≠ recordDigest creating := by
  decide +kernel

theorem current_sample :
    (generation gstate next (member revision r state work ledger) queue entered).member? memberId =
      some (member revision r state work ledger) := by
  simp [DirtyGeneration.member?, generation, member]

theorem replace_sample {later : CoordinatorMember} (hid : item.memberId = later.memberId) :
    replaceMember (generation gstate next item queue entered) later =
      generation gstate next later queue entered := by
  simp [replaceMember, generation, hid]

/-- A checkpoint of the sample that changes the identity of the observer. -/
theorem plan_checkpoint {phase phase' : SandboxRecoveryPhase}
    {authority : SandboxRecoveryAuthority} {observer' : SandboxResourceIdentity}
    {mode : CheckpointMode}
    (hadmitted : (record phase' (.verified daemonId) observer').admitted = true)
    (hrevision : revision ≤ 9) (hphase : mode = .canonical_cleanup → phase' = phase)
    (hauthority : authority ≠ .unverified → authority = .verified daemonId)
    (hcontinues : observer.continues observer' mode false = true)
    (hnew : recordDigest (record phase' (.verified daemonId) observer') ≠
      recordDigest (record phase authority observer)) :
    planDirtyTransition (snapshot sequence previous (generation gstate next
        (member revision (record phase authority observer) state work ledger) [] none))
      (generation gstate next (member revision (record phase authority observer) state work ledger)
        [] none)
      (.checkpoint memberId (record phase' (.verified daemonId) observer') mode) =
    commitDirty (snapshot sequence previous (generation gstate next
        (member revision (record phase authority observer) state work ledger) [] none))
      (generation gstate next
        (member (revision + 1) (record phase' (.verified daemonId) observer') state work ledger)
        [] none) := by
  have hdigest : recoveryRecordDigest (record phase' (.verified daemonId) observer') =
      .ok (recordDigest (record phase' (.verified daemonId) observer')) :=
    (recoveryRecordDigest_of_admitted hadmitted).2
  have hcontinued : continuation
      (member revision (record phase authority observer) state work ledger)
      (record phase' (.verified daemonId) observer') mode =
        .ok (member (revision + 1) (record phase' (.verified daemonId) observer') state work
          ledger) := by
    unfold continuation
    refine failIf_bind_eq_ok.2 ⟨by simp [member, CallerSink.isFailed], failIf_bind_eq_ok.2 ⟨?_,
      failIf_bind_eq_ok.2 ⟨?_, bind_eq_ok.2 ⟨(), forM_eq_ok.2 fun resource hresource => ?_,
      bind_eq_ok.2 ⟨_, hdigest, ?_⟩⟩⟩⟩⟩
    · rintro ⟨hmode, -, hother⟩
      exact hother (hphase hmode)
    · simp only [member, record, ne_eq, not_true_eq_false, false_or, List.length_cons, not_and,
        not_not]
      exact fun hverified => (hauthority hverified).symm
    · have hsame : resource =
          { role := .route_observer, name := js "observer", identity := observer } := by
        simpa [member, record] using hresource
      subst hsame
      refine failIf_eq_ok.2 ?_
      have hfound : (record phase' (.verified daemonId) observer').resource? .route_observer =
          some { role := .route_observer, name := js "observer", identity := observer' } := by
        simp [SandboxRecoveryRecord.resource?, record]
      have hsink : (member revision (record phase authority observer) state work
          ledger).checkpoint.callerSink.isFailed = false := rfl
      simp [hfound, hsink, hcontinues]
    · have hchanged : recordDigest (record phase' (.verified daemonId) observer') ≠
          (member revision (record phase authority observer) state work ledger).checkpoint.digest :=
        hnew
      have hroom : revision ≠ MAX_SAFE_INTEGER :=
        Nat.ne_of_lt (Nat.lt_of_le_of_lt hrevision (by decide))
      rw [if_neg hchanged]
      exact failIf_bind_eq_ok.2 ⟨hroom, rfl⟩
  simp only [planDirtyTransition, planCheckpoint, currentMember, current_sample, pure_eq_ok,
    ok_bind, hcontinued]
  refine (failIf_bind ?_).trans ?_
  · simp [DirtyGeneration.hasEntered, generation]
  · exact congrArg (commitDirty _) (replace_sample rfl)

theorem plan_queue (hrole : ledger.role = .route_observer) (hnext : next ≤ 9)
    (hcell : ledger.cell action = .not_entered)
    (hgrowth : (EffectAction.resource action).isGrowth = true →
      gstate = .awaiting_first_observer ∧ state = .reserved ∧ sequence ≤ 9) :
    planDirtyTransition (snapshot sequence previous
        (generation gstate next (member revision r state work ledger) [] none))
      (generation gstate next (member revision r state work ledger) [] none)
      (.queue memberId (.resource .route_observer) (.resource action)) =
    commitDirty (snapshot sequence previous
        (generation gstate next (member revision r state work ledger) [] none))
      (generation gstate (next + 1) (member revision r state work ledger)
        [effect next (sequence + 1) action] none) := by
  have hledger : (member revision r state work ledger).ledger? .route_observer = some ledger := by
    simp [CoordinatorMember.ledger?, member, hrole]
  have hfound : (member revision r state work ledger).cell? (.resource .route_observer)
      (.resource action) = some .not_entered := by
    simp [CoordinatorMember.cell?, hledger, hcell]
  have happlicable : applicableAction .route_observer action = true := by cases action <;> rfl
  simp only [planDirtyTransition, planQueue, currentMember, current_sample, pure_eq_ok, ok_bind,
    hfound, hledger, happlicable]
  refine (failIf_bind ?_).trans ((failIf_bind ?_).trans ((failIf_bind ?_).trans
    ((failIf_bind ?_).trans ((failIf_bind ?_).trans ((failIf_bind ?_).trans ?_)))))
  · simp
  · rintro ⟨hyes, hbad⟩
    obtain ⟨rfl, rfl, hsequence⟩ := hgrowth hyes
    have hlow : sequence < MAX_SAFE_INTEGER - COORDINATOR_JOURNAL_LIMITS.cleanupEffectReserve :=
      Nat.lt_of_le_of_lt hsequence (by decide)
    have hhigh : next ≤ MAX_SAFE_INTEGER - COORDINATOR_JOURNAL_LIMITS.cleanupEffectReserve :=
      hnext.trans (by decide)
    have hadmits : admitsGrowthRole (generation .awaiting_first_observer next
        (member revision r .reserved work ledger) [] none) (.resource .route_observer) = true := by
      simp [admitsGrowthRole, generation, basis, AuthorityBasis.isFull]
    rcases hbad with hlive | hsink | hending | hrole | hsequences | heffects
    · cases hlive
    · cases hsink
    · cases hending
    · rw [hadmits] at hrole
      cases hrole
    · exact Nat.not_lt.2 hsequences hlow
    · exact Nat.not_lt.2 hhigh heffects
  · simp [generation, COORDINATOR_JOURNAL_LIMITS.queue, COORDINATOR_JOURNAL_LIMITS.ordinaryQueue]
  · simp [DirtyGeneration.effects, generation]
  · simp
  · have hne : next ≠ MAX_SAFE_INTEGER := Nat.ne_of_lt (Nat.lt_of_le_of_lt hnext (by decide))
    simp [generation, hne]
  · have heffect : queuedEffect (snapshot sequence previous
          (generation gstate next (member revision r state work ledger) [] none))
        (generation gstate next (member revision r state work ledger) [] none)
        (member revision r state work ledger) (.resource .route_observer) (.resource action) =
          effect next (sequence + 1) action := by
      simp only [queuedEffect, hfound, Option.bind_some, ActionReceipt.reused, Option.getD_none]
      rfl
    simp only [heffect, enqueue, Option.bind_some, ActionReceipt.reused, if_true]
    simp only [generation, List.nil_append, List.mergeSort_singleton]

theorem plan_arm
    (hresources : r.resources =
      [{ role := .route_observer, name := js "observer", identity := observer }])
    (hrole : ledger.role = .route_observer) (hcell : ledger.cell action = .not_entered)
    (hidentity : if action = .create then observer = .creating else observer.isIdentified = true)
    (hgrowth : (EffectAction.resource action).isGrowth = true →
      gstate = .awaiting_first_observer ∧ state = .reserved) :
    planDirtyTransition (snapshot sequence previous
        (generation gstate next (member revision r state work ledger)
          [effect number requestedAt action] none))
      (generation gstate next (member revision r state work ledger)
        [effect number requestedAt action] none)
      (.arm number (digest 97) (digest 98)) =
    commitArmed (snapshot sequence previous
        (generation gstate next (member revision r state work ledger)
          [effect number requestedAt action] none))
      (generation gstate next (member revision r state work (ledger.enter action number)) []
        (some (entry number requestedAt (sequence + 1) revision r
          (observer.id?.getD (js "observer")) action))) := by
  have hledger : (member revision r state work ledger).ledger? .route_observer = some ledger := by
    simp [CoordinatorMember.ledger?, member, hrole]
  have hresource : (member revision r state work ledger).checkpoint.record.resource?
      .route_observer =
        some { role := .route_observer, name := js "observer", identity := observer } := by
    simp [SandboxRecoveryRecord.resource?, member, hresources]
  have harmable : armable (generation gstate next (member revision r state work ledger)
      [effect number requestedAt action] none) number =
        some (effect number requestedAt action) := by
    cases action <;> simp [armable, nextScheduled, generation, effect, QueuedEffect.isCleanup,
      EffectAction.isGrowth]
  have hchanged : changedRole (member revision r state work ledger) .route_observer
      (fun entry => entry.enter action number) =
        member revision r state work (ledger.enter action number) := by
    simp [changedRole, member, hrole]
  simp only [planDirtyTransition, planArm, harmable]
  refine (failIf_bind (by simp [generation])).trans ?_
  simp only [effect, current_sample, hresource, hledger]
  refine (failIf_bind ?_).trans ((failIf_bind ?_).trans ((failIf_bind ?_).trans ?_))
  · rintro ⟨hcleanup, hbad⟩
    have hyes : (EffectAction.resource action).isGrowth = true := by
      simpa [QueuedEffect.isCleanup] using hcleanup
    obtain ⟨rfl, rfl⟩ := hgrowth hyes
    have hadmits : admitsGrowthRole (generation .awaiting_first_observer next
        (member revision r .reserved work ledger) [effect number requestedAt action] none)
          (.resource .route_observer) = true := by
      simp [admitsGrowthRole, generation, basis, AuthorityBasis.isFull]
    rcases hbad with hlive | hsink | hending | hrole'
    · cases hlive
    · cases hsink
    · cases hending
    · cases hadmits.symm.trans hrole'
  · by_cases hcreate : action = .create
    · simpa [hcreate] using hidentity
    · simpa [hcreate] using hidentity
  · simp [hcell, ActionReceipt.admitsArm]
  · rw [hchanged]
    simp [replaceMember, generation, entry, effect, enteredEffect, member, snapshot]

/-- A create is armed when the journal crashes. -/
def firstCrash : List Call :=
  [.begin_ identity basis] ++
    [.transition (.register reserved
      { profile := .native_arm64, configurationIdentityDigest := digest 99 } 0)] ++
    [.transition (.checkpoint memberId creating .caller_persisted)] ++
    [.transition (.queue memberId (.resource .route_observer) (.resource .create))] ++
    [.transition (.arm 1 (digest 97) (digest 98))]

/-- The journal is recovered, and a delete is armed when it crashes again. -/
def secondCrash : List Call :=
  firstCrash ++ [.transition .reopen_cleanup] ++
    [.transition (.checkpoint memberId identified .canonical_cleanup)] ++
    [.transition (.queue memberId (.resource .route_observer) (.resource .delete))] ++
    [.transition (.arm 2 (digest 97) (digest 98))]

/-- The generation after the registration. -/
def registered (r : SandboxRecoveryRecord) : DirtyGeneration :=
  generation .awaiting_first_observer 1 (member 0 r .reserved (.all .not_entered) untouched) [] none

/-- The generation at the first crash. -/
def creatingObserver : DirtyGeneration :=
  generation .awaiting_first_observer 2 (member 1 creating .reserved (.all .not_entered) armed) []
    (some (entry 1 4 5 1 creating (js "observer") .create))

/-- The generation that is recovered. -/
def recovered (digest : JsString) : DirtyGeneration :=
  generation (.cleanup_only digest) 2
    (member 1 creating (.cleanup_pending .unknown_outcome) (.all .unavailable_after_recovery)
      (abandoned digest)) [] none

/-- The generation at the second crash. -/
def deletingObserver (digest : JsString) : DirtyGeneration :=
  generation (.cleanup_only digest) 3
    (member 2 identified (.cleanup_pending .unknown_outcome) (.all .unavailable_after_recovery)
      (deleting digest)) [] (some (entry 2 8 9 2 identified (js "id") .delete))

theorem firstCrash_entered (h : createInitialCoordinatorSnapshot authorityId daemonId = .ok start) :
    ∃ previous, (JournalState.after start firstCrash).snapshot =
      snapshot 5 previous creatingObserver := by
  obtain ⟨p1, -, h1⟩ := after_begin h
  obtain ⟨p2, -, h2⟩ := advance h h1 (by omega) (.inl plan_register) fun _ => valid_registered
  have hcheckpoint : planDirtyTransition (snapshot 2 p2 (registered reserved)) (registered reserved)
      (.checkpoint memberId creating .caller_persisted) = _ :=
    plan_checkpoint admitted_record.2.1 (by omega) (by simp) (by simp) rfl digests_differ.1
  obtain ⟨p3, -, h3⟩ := advance h h2 (by omega) (.inl hcheckpoint) fun _ => valid_checkpointed
  obtain ⟨p4, -, h4⟩ := advance h h3 (by omega)
    (.inl (plan_queue rfl (by omega) rfl fun _ => ⟨rfl, rfl, by omega⟩)) fun _ => valid_queued
  obtain ⟨p5, -, h5⟩ := advance h h4 (by omega)
    (.inr ⟨plan_arm rfl rfl rfl rfl fun _ => ⟨rfl, rfl⟩, rfl⟩) fun _ => valid_armed
  exact ⟨p5, h5⟩

theorem firstCrash_recovered
    (h : createInitialCoordinatorSnapshot authorityId daemonId = .ok start) :
    ∃ previous digest, isDigest digest = true ∧
      (JournalState.after start (firstCrash ++ [.transition .reopen_cleanup])).snapshot =
        snapshot 6 previous (recovered digest) := by
  obtain ⟨previous, hstate⟩ := firstCrash_entered h
  have hheld := JournalState.run_held h firstCrash
  have hg : (JournalState.after start firstCrash).snapshot.generation =
      .dirty creatingObserver := by
    rw [hstate]
    rfl
  have hroom : (JournalState.after start firstCrash).snapshot.sequence < MAX_SAFE_INTEGER := by
    rw [hstate]
    show 5 < MAX_SAFE_INTEGER
    decide
  obtain ⟨digest, hdigest, hplan⟩ := planReopenCleanup_accepted hheld.sound.valid hg
    (hheld.sound.history _ hg).slot (hheld.openings _ hg) rfl hroom
  refine ⟨digest, digest, hdigest, ?_⟩
  have hstep : ((JournalState.after start firstCrash).step (.transition .reopen_cleanup)).snapshot =
      (JournalState.after start firstCrash).snapshot.recoveredWith creatingObserver digest := by
    simp only [JournalState.step, hplan]
    rfl
  rw [JournalState.after, Machine.run_append]
  refine hstep.trans ?_
  rw [hstate]
  rfl

theorem secondCrash_entered
    (h : createInitialCoordinatorSnapshot authorityId daemonId = .ok start) :
    ∃ previous digest, (JournalState.after start secondCrash).snapshot =
      snapshot 9 previous (deletingObserver digest) := by
  obtain ⟨p6, digest, hdigest, h6⟩ := firstCrash_recovered h
  have hcheckpoint : planDirtyTransition (snapshot 6 p6 (recovered digest)) (recovered digest)
      (.checkpoint memberId identified .canonical_cleanup) = _ :=
    plan_checkpoint admitted_record.2.2 (by omega) (fun _ => rfl) (fun _ => rfl) rfl
      digests_differ.2
  obtain ⟨p7, -, h7⟩ := advance h h6 (by omega) (.inl hcheckpoint) fun _ => valid_identified hdigest
  obtain ⟨p8, -, h8⟩ := advance h h7 (by omega)
    (.inl (plan_queue rfl (by omega) rfl (by simp [EffectAction.isGrowth]))) fun _ =>
      valid_requeued hdigest
  obtain ⟨p9, -, h9⟩ := advance h h8 (by omega)
    (.inr ⟨plan_arm rfl rfl rfl rfl (by simp [EffectAction.isGrowth]), rfl⟩) fun _ =>
      valid_deleting hdigest
  exact ⟨p9, digest, h9⟩

end Sample

/-- The theorem at a create that was armed when the journal crashed. -/
theorem obligations_survive_create : ∃ start g next g',
    (JournalState.after start Sample.firstCrash).snapshot.generation = .dirty g ∧
      Reopens (JournalState.after start Sample.firstCrash).snapshot g next g' := by
  obtain ⟨start, hstart⟩ := Sample.exists_start
  obtain ⟨previous, hstate⟩ := Sample.firstCrash_entered hstart
  have hg : (JournalState.after start Sample.firstCrash).snapshot.generation =
      .dirty Sample.creatingObserver := by
    rw [hstate]
    rfl
  have hroom : (JournalState.after start Sample.firstCrash).snapshot.sequence <
      MAX_SAFE_INTEGER := by
    rw [hstate]
    show 5 < MAX_SAFE_INTEGER
    decide
  obtain ⟨-, hreopens, -⟩ := obligations_survive hstart Sample.firstCrash hg
  obtain ⟨next, g', hnext⟩ := hreopens hroom
  exact ⟨start, _, next, g', hg, hnext⟩

/-- **A cleanup that is entered stays entered**: recovery of a generation for cleanup
only does not make its action uncertain. -/
theorem entered_cleanup_stays :
    ¬∀ (authorityId daemonId : JsString) (start : CoordinatorSnapshot),
      createInitialCoordinatorSnapshot authorityId daemonId = .ok start →
      ∀ (calls : List Call) (g : DirtyGeneration),
        (JournalState.after start calls).snapshot.generation = .dirty g →
        (JournalState.after start calls).snapshot.sequence < MAX_SAFE_INTEGER →
        ∃ next g', planCoordinatorTransition (JournalState.after start calls).snapshot
            .reopen_cleanup = .ok (.commit next) ∧ next.generation = .dirty g' ∧
          ∀ entered ∈ g.entered, ∃ digest,
            g'.cell? entered.owner = some (.uncertain entered.effectSequence digest) := by
  intro hclaim
  obtain ⟨start, hstart⟩ := Sample.exists_start
  obtain ⟨previous, digest, hstate⟩ := Sample.secondCrash_entered hstart
  have hg : (JournalState.after start Sample.secondCrash).snapshot.generation =
      .dirty (Sample.deletingObserver digest) := by
    rw [hstate]
    rfl
  have hroom : (JournalState.after start Sample.secondCrash).snapshot.sequence <
      MAX_SAFE_INTEGER := by
    rw [hstate]
    show 9 < MAX_SAFE_INTEGER
    decide
  obtain ⟨next, g', hplan, hg', huncertain⟩ :=
    hclaim _ _ start hstart Sample.secondCrash _ hg hroom
  have hsame : next = (JournalState.after start Sample.secondCrash).snapshot := by
    have hrepeated := planReopenCleanup_repeated hg rfl hroom
    rw [hplan] at hrepeated
    cases hrepeated
    rfl
  rw [hsame, hg] at hg'
  cases hg'
  obtain ⟨found, hcell⟩ := huncertain _ rfl
  have hslot := ((JournalState.run_sound hstart Sample.secondCrash).history _ hg).slot
  rw [hslot.entered _ rfl] at hcell
  cases hcell

end AgentSdk.Journal
