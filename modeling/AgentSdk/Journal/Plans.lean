import AgentSdk.Journal.Schema

/-!
# The planners of the coordinator journal

`beginCoordinatorGeneration` and `planCoordinatorTransition`: from a snapshot
and a request, either a refusal or the next snapshot.  Each kind of event has
its own definition, in the order of the source; `planCoordinatorTransition`
chooses among them.

A caller's outcome for an uncertain action excludes `not_dispatched` by its
type, and so does `ResolvedOutcome`.
-/

namespace AgentSdk.Journal

open AgentSdk.Text AgentSdk.Outcome

/-! ## Requests -/

inductive CheckpointMode
  | caller_persisted | canonical_cleanup
  deriving DecidableEq, Repr

/-- What a caller may say about an action that was left uncertain. -/
inductive ResolvedOutcome
  | present | started | control_joined | absent
  deriving DecidableEq, Repr

def ResolvedOutcome.outcome : ResolvedOutcome → ActionOutcome
  | .present => .present
  | .started => .started
  | .control_joined => .control_joined
  | .absent => .absent

structure RegistrationBinding where
  profile : Profile
  configurationIdentityDigest : JsString

/-- How an entered effect ended, in the words of its observer. -/
structure Settlement where
  outcome : ActionOutcome
  receiptDigest : JsString
  presence : Presence
  record : Option SandboxRecoveryRecord
  mode : Option CheckpointMode
  projection : Option MemberProjection

/-- How an uncertain action ended. -/
structure Resolution where
  role : ResourceRole
  action : ResourceAction
  outcome : ResolvedOutcome
  receiptDigest : JsString
  presence : Presence
  record : Option SandboxRecoveryRecord
  projection : Option MemberProjection

inductive CoordinatorEvent
  | close_admission
  | fence (fault : CoordinatorFault)
  | clean_close
  | reopen_cleanup
  | register (record : SandboxRecoveryRecord) (binding : RegistrationBinding) (slot : Nat)
  | checkpoint (memberId : JsString) (record : SandboxRecoveryRecord) (mode : CheckpointMode)
  | caller_sink_failed (memberId : JsString)
  | member_state (memberId : JsString) (state : MemberState)
  | work_enter (memberId : JsString) (scope : ScopeName) (token : JsString)
  | work_join (memberId : JsString) (scope : ScopeName) (token : JsString)
  | settle_recovered_work (memberId : JsString) (proofDigest : JsString)
  | queue (memberId : JsString) (role : EffectRole) (action : EffectAction)
  | cancel_queued (effectSequence : Nat)
  | arm (effectSequence : Nat) (expectedBeforeDigest expectedInputDigest : JsString)
  | returned (effectSequence : Nat) (id : JsString)
  | settle (effectSequence : Nat) (settlement : Settlement)
  | resolve_uncertain (memberId : JsString) (resolution : Resolution)
  | retire (memberId : JsString) (record : SandboxRecoveryRecord) (mode : CheckpointMode)
  | full_basis (basis : FullBasis)
  | quiesce (basis : FullBasis)

inductive CoordinatorPlan
  | commit (snapshot : CoordinatorSnapshot)
  | arm (snapshot : CoordinatorSnapshot) (recipe : EnteredEffect)

def CoordinatorPlan.snapshot : CoordinatorPlan → CoordinatorSnapshot
  | .commit snapshot => snapshot
  | .arm snapshot _ => snapshot

/-! ## Predicates -/

def QueuedEffect.isCleanup (effect : QueuedEffect) : Bool := !effect.action.isGrowth

def DirtyGeneration.liveState (generation : DirtyGeneration) : Bool :=
  !generation.state.isFenced && !generation.state.isCleanupOnly

def DirtyGeneration.admissionOpen (generation : DirtyGeneration) : Bool :=
  generation.liveState && generation.state != .admission_closed

def unenteredShutdown (receipt : ActionReceipt) : Bool :=
  receipt == .not_entered || receipt.settledWith .not_dispatched

def usableObserver (ledger : RoleLedger) : Bool :=
  ledger.role == .route_observer &&
    (match ledger.presence with
      | .present _ _ _ runtime => runtime == .running
      | _ => false) &&
    ledger.start.settledWith .started && unenteredShutdown ledger.controlClose &&
    unenteredShutdown ledger.delete

def hasFullObserverAuthority (generation : DirtyGeneration) : Bool :=
  generation.basis.isFull && generation.members.any fun member => member.roles.any fun ledger =>
    usableObserver ledger && match ledger.start with
      | .settled _ _ _ atSequence => decide (atSequence ≤ generation.basis.atSequence)
      | _ => false

def admitsGrowthRole (generation : DirtyGeneration) (role : EffectRole) : Bool :=
  hasFullObserverAuthority generation ||
    (role == .resource .route_observer &&
      (!generation.basis.isFull || generation.admissionOpen))

def scopesSettled (member : CoordinatorMember) : Bool :=
  member.work.scopes.all fun scope => scope == .not_entered || scope == .joined

/-- `stopping`, `retained` and `cleanup_pending`. -/
def MemberState.isEnding : MemberState → Bool
  | .stopping => true
  | .retained => true
  | .cleanup_pending _ => true
  | _ => false

def MemberState.isCleanupPending : MemberState → Bool
  | .cleanup_pending _ => true
  | _ => false

/-! ## Commits -/

def createInitialCoordinatorSnapshot (authorityId daemonId : JsString) :
    Except Refusal CoordinatorSnapshot := do
  let engineKey ← coordinatorEngineKey daemonId
  parseCoordinatorSnapshot
    { authorityId, engineKey, daemonId, sequence := 0, previousDigest := none
      generation := .clean
        { generationOrdinal := 0, lastGenerationId := none, settledAtSequence := 0 } }

def commit (snapshot : CoordinatorSnapshot) (generation : Generation) :
    Except Refusal CoordinatorSnapshot := do
  failIf (snapshot.sequence = MAX_SAFE_INTEGER)
    (.rejected "Snapshot sequence is exhausted; dirty ownership must remain retained")
  let previousDigest ← snapshotDigest snapshot
  let next := { snapshot with
    sequence := snapshot.sequence + 1, previousDigest := some previousDigest, generation }
  match (do discard (encodeCoordinatorSnapshot next); parseCoordinatorSnapshot next) with
  | .ok parsed => pure parsed
  | .error _ => .error (.rejected "Invalid sandbox input")

/-- A commit of the same generation, changed. -/
def commitDirty (snapshot : CoordinatorSnapshot) (generation : DirtyGeneration) :
    Except Refusal CoordinatorPlan := do
  let parsed ← commit snapshot (.dirty generation)
  pure (.commit parsed)

/-- `commit` with an armed effect. -/
def commitArmed (snapshot : CoordinatorSnapshot) (generation : DirtyGeneration) :
    Except Refusal CoordinatorPlan := do
  let parsed ← commit snapshot (.dirty generation)
  match parsed.generation with
  | .dirty { entered := some entered, .. } => pure (.arm parsed entered)
  | _ => .error (.rejected "An arm must retain its exact entered request")

def beginCoordinatorGeneration (snapshot : CoordinatorSnapshot) (identity : GenerationIdentity)
    (basis : AuthorityBasis) : Except Refusal CoordinatorPlan :=
  match snapshot.generation with
  | .dirty _ => .error (.rejected "An unresolved generation cannot activate")
  | .clean previous => do
      failIf (MAX_SAFE_INTEGER - COORDINATOR_JOURNAL_LIMITS.cleanupEffectReserve ≤
          snapshot.sequence ∨ previous.generationOrdinal = MAX_SAFE_INTEGER)
        (.rejected "Generation sequence capacity is exhausted")
      failIf (identity.ordinal ≠ previous.generationOrdinal + 1 ∨
          some identity.generationId = previous.lastGenerationId ∨ basis.isFull = true ∨
          basis.atSequence ≠ snapshot.sequence + 1)
        (.rejected "Generation identity or initial authority basis is inconsistent")
      commitDirty snapshot
        { identity, state := .awaiting_first_observer, basis, nextMemberSequence := 1
          nextEffectSequence := 1, members := [], queue := [], entered := none, retired := [] }

/-! ## Members and ledgers -/

def replaceMember (generation : DirtyGeneration) (member : CoordinatorMember) : DirtyGeneration :=
  { generation with
    members := generation.members.map fun item =>
      if item.memberId = member.memberId then member else item }

/-- Whether a checkpoint may turn one identity of a resource into another. -/
def SandboxResourceIdentity.continues (identity next : SandboxResourceIdentity)
    (mode : CheckpointMode) (cleanupOnly : Bool) : Bool :=
  match identity with
  | .planned =>
    !next.isIdentified && !(next == .creating && (mode == .canonical_cleanup || cleanupOnly))
  | .creating => next != .planned
  | .identified _ _ => next == identity

def continuation (previous : CoordinatorMember) (record : SandboxRecoveryRecord)
    (mode : CheckpointMode) : Except Refusal CoordinatorMember := do
  let original := previous.checkpoint.record
  let cleanupOnly := previous.checkpoint.callerSink.isFailed
  failIf (mode = .caller_persisted ∧ cleanupOnly = true)
    (.rejected "A failed caller checkpoint sink cannot become healthy")
  failIf (mode = .canonical_cleanup ∧ (record.phase = .starting ∨ record.phase = .running) ∧
      record.phase ≠ original.phase)
    (.rejected "Canonical cleanup cannot grant new execution authority")
  failIf (record.backendId ≠ original.backendId ∨
      record.backendRevision ≠ original.backendRevision ∨
      record.namespace_ ≠ original.namespace_ ∨ record.operationId ≠ original.operationId ∨
      record.sandboxId ≠ original.sandboxId ∨ record.imageDigest ≠ original.imageDigest ∨
      record.policyDigest ≠ original.policyDigest ∨
      record.configurationDigest ≠ original.configurationDigest ∨
      record.resources.length ≠ original.resources.length ∨
      (original.authority ≠ .unverified ∧ record.authority ≠ original.authority))
    (.rejected "Checkpoint changes the original member identity")
  original.resources.forM fun resource =>
    failIf ((match record.resource? resource.role with
        | none => true
        | some next =>
          next.name != resource.name ||
            !resource.identity.continues next.identity mode cleanupOnly) = true)
      (.rejected "Checkpoint replaces an acquired identity or enters an unauthorized create")
  let recordDigest ← recoveryRecordDigest record
  if recordDigest = previous.checkpoint.digest then pure previous
  else do
    failIf (previous.checkpoint.revision = MAX_SAFE_INTEGER)
      (.rejected "Member checkpoint revision is exhausted")
    pure { previous with
      checkpoint := { previous.checkpoint with
        revision := previous.checkpoint.revision + 1, digest := recordDigest, record } }

/-- The continuation with a record, where the event has one. -/
def continuationWith (previous : CoordinatorMember) (record : Option SandboxRecoveryRecord)
    (mode : CheckpointMode) : Except Refusal CoordinatorMember :=
  match record with
  | none => pure previous
  | some record => continuation previous record mode

def changedRole (member : CoordinatorMember) (role : ResourceRole)
    (update : RoleLedger → RoleLedger) : CoordinatorMember :=
  { member with
    roles := member.roles.map fun ledger => if ledger.role = role then update ledger else ledger }

def settleAction (member : CoordinatorMember) (role : ResourceRole) (action : ResourceAction)
    (effectSequence : Nat) (outcome : ActionOutcome) (receiptDigest : JsString)
    (presence : Presence) (atSequence : Nat) : CoordinatorMember :=
  changedRole member role fun ledger =>
    { ledger with presence }.setCell
      (.settled effectSequence outcome receiptDigest atSequence) action

def emptyRole (role : ResourceRole) (atSequence : Nat) : RoleLedger :=
  let receipt (action : ResourceAction) : ActionReceipt :=
    if applicableAction role action then .not_entered else .not_applicable
  { role, presence := .not_entered atSequence, create := receipt .create, start := receipt .start
    controlClose := receipt .control_close, delete := receipt .delete }

def withProjection (member : CoordinatorMember) (projection : Option MemberProjection) :
    CoordinatorMember :=
  match projection with
  | none => member
  | some projection => { member with projection }

/-! ## The schedule -/

/-- The first cleanup of the queue, or else its first entry. -/
def nextScheduled (generation : DirtyGeneration) : Option QueuedEffect :=
  (generation.queue.find? QueuedEffect.isCleanup).or generation.queue.head?

/-- The effect of a number, when it is the one the schedule admits next.  Growth
requested before every queued cleanup can already own the physical slot when a
peer publishes that cleanup. -/
def armable (generation : DirtyGeneration) (effectSequence : Nat) : Option QueuedEffect :=
  let next := (nextScheduled generation).filter fun queued =>
    queued.effectSequence == effectSequence
  match generation.queue.find? fun entry => !entry.isCleanup with
  | some growth =>
    if growth.effectSequence = effectSequence ∧
        (generation.queue.all fun entry => !entry.isCleanup ||
          decide (growth.requestedAtSequence < entry.requestedAtSequence)) = true then
      some growth
    else next
  | none => next

/-! ## Events of the generation -/

def planCloseAdmission (snapshot : CoordinatorSnapshot) (generation : DirtyGeneration) :
    Except Refusal CoordinatorPlan :=
  commitDirty snapshot { generation with
    state := if generation.liveState then .admission_closed else generation.state }

def planFence (snapshot : CoordinatorSnapshot) (generation : DirtyGeneration)
    (fault : CoordinatorFault) : Except Refusal CoordinatorPlan :=
  commitDirty snapshot { generation with
    state := if generation.liveState then .fenced fault (snapshot.sequence + 1)
      else generation.state }

def planCleanClose (snapshot : CoordinatorSnapshot) (generation : DirtyGeneration) :
    Except Refusal CoordinatorPlan := do
  failIf (generation.admissionOpen = true ∨ generation.members.length ≠ 0 ∨
      generation.queue.length ≠ 0 ∨ generation.entered.isSome = true)
    (.rejected "Clean close requires closed admission and every member and effect obligation settled")
  let parsed ← commit snapshot (.clean
    { generationOrdinal := generation.identity.ordinal
      lastGenerationId := some generation.identity.generationId
      settledAtSequence := snapshot.sequence + 1 })
  pure (.commit parsed)

/-- A member after recovery: it waits for cleanup and its scopes are lost. -/
def CoordinatorMember.recovered (member : CoordinatorMember) : CoordinatorMember :=
  { member with
    state := .cleanup_pending .unknown_outcome
    work := .all .unavailable_after_recovery }

/-- The generation with nothing queued or entered, for cleanup only. -/
def DirtyGeneration.reopened (generation : DirtyGeneration) (digest : JsString) :
    DirtyGeneration :=
  { generation with
    state := .cleanup_only digest, queue := [], entered := none
    members := generation.members.map CoordinatorMember.recovered }

/-- The generation after a crash: the action that was entered is uncertain. -/
def recoveredGeneration (generation : DirtyGeneration) (digest : JsString) :
    Except Refusal DirtyGeneration :=
  let recovered := generation.reopened digest
  match generation.entered with
  | some { effectSequence, memberId, role := .resource role, action := .resource action, .. } =>
    match recovered.member? memberId with
    | none => .error (.rejected "Entered effect lost its original member")
    | some member =>
      pure (replaceMember recovered (changedRole member role fun ledger =>
        ledger.setCell (.uncertain effectSequence digest) action))
  | _ => pure recovered

def planReopenCleanup (snapshot : CoordinatorSnapshot) (generation : DirtyGeneration) :
    Except Refusal CoordinatorPlan :=
  if generation.state.isCleanupOnly then pure (.commit snapshot)
  else do
    let digest ← snapshotDigest snapshot
    let recovered ← recoveredGeneration generation digest
    commitDirty snapshot recovered

/-- The member that a registration adds. -/
def registeredMember (snapshot : CoordinatorSnapshot) (generation : DirtyGeneration)
    (record : SandboxRecoveryRecord) (binding : RegistrationBinding) (slot : Nat)
    (recordDigest : JsString) : CoordinatorMember :=
  { memberId := record.operationId
    memberSequence := generation.nextMemberSequence
    binding :=
      { identityDigest := memberIdentityDigest snapshot.authorityId snapshot.engineKey
          generation.identity record generation.nextMemberSequence slot (subnetOf slot)
          (gatewayOf slot) binding.configurationIdentityDigest
        initialRecordDigest := recordDigest
        configurationIdentityDigest := binding.configurationIdentityDigest
        profile := binding.profile }
    checkpoint := { revision := 0, digest := recordDigest, record, callerSink := .healthy }
    state := .reserved
    allocation := .reserved slot (subnetOf slot) (gatewayOf slot)
    roles := (record.resources.map fun resource =>
      emptyRole resource.role (snapshot.sequence + 1)).mergeSort
        fun left right => decide (left.role.rank ≤ right.role.rank)
    projection := .none
    work := .all .not_entered }

def planRegister (snapshot : CoordinatorSnapshot) (generation : DirtyGeneration)
    (record : SandboxRecoveryRecord) (binding : RegistrationBinding) (slot : Nat) :
    Except Refusal CoordinatorPlan := do
  failIf (generation.admissionOpen = false) (.rejected "Member admission is closed")
  failIf (MAX_SAFE_INTEGER - COORDINATOR_JOURNAL_LIMITS.cleanupEffectReserve ≤ snapshot.sequence ∨
      MAX_SAFE_INTEGER - COORDINATOR_JOURNAL_LIMITS.cleanupEffectReserve <
        generation.nextEffectSequence ∨
      generation.nextMemberSequence = MAX_SAFE_INTEGER)
    (.rejected "Normal admission must preserve cleanup sequence capacity")
  failIf (COORDINATOR_JOURNAL_LIMITS.members ≤ generation.members.length ∨
      COORDINATOR_JOURNAL_LIMITS.retirements ≤
        generation.members.length + generation.retired.length)
    (.rejected "Member or reserved retirement capacity is exhausted")
  failIf ((generation.everyone.any fun item => item.1 == record.operationId) = true ∨
      generation.slots.elem slot = true)
    (.rejected "Member identity or subnet allocation is already reserved")
  failIf (record.phase ≠ .reserved ∨ record.authority ≠ .unverified ∨
      (record.resources.any fun resource => resource.identity != .planned) = true)
    (.rejected "Registration requires the exact original inert reservation")
  let recordDigest ← recoveryRecordDigest record
  commitDirty snapshot { generation with
    nextMemberSequence := generation.nextMemberSequence + 1
    members := generation.members ++
      [registeredMember snapshot generation record binding slot recordDigest] }

def planFullBasis (snapshot : CoordinatorSnapshot) (generation : DirtyGeneration)
    (basis : FullBasis) : Except Refusal CoordinatorPlan := do
  failIf (generation.liveState = false ∨ basis.atSequence ≠ snapshot.sequence + 1)
    (.rejected "Full authority requires an unfenced original live generation")
  failIf ((generation.members.any fun member => member.roles.any usableObserver) = false)
    (.rejected "Full authority requires an original settled running observer")
  commitDirty snapshot { generation with
    state := if generation.state = .admission_closed then .admission_closed else .open_
    basis := .full basis }

def planQuiesce (snapshot : CoordinatorSnapshot) (generation : DirtyGeneration)
    (basis : FullBasis) : Except Refusal CoordinatorPlan := do
  failIf (generation.liveState = false ∨ generation.entered.isSome = true ∨
      (generation.queue.any fun entry => !entry.isCleanup) = true ∨
      basis.atSequence ≠ snapshot.sequence + 1 ∨
      (generation.members.any fun member => !scopesSettled member ||
        member.roles.any fun ledger => isProducer ledger.role && !roleSettled ledger) = true)
    (.rejected "Quiescence requires joined producers and exact terminal observations")
  commitDirty snapshot { generation with
    state := if generation.state = .admission_closed then .admission_closed else .quiescent
    basis := .full basis }

/-! ## Events of effects -/

def planCancelQueued (snapshot : CoordinatorSnapshot) (generation : DirtyGeneration)
    (effectSequence : Nat) : Except Refusal CoordinatorPlan := do
  failIf ((generation.queue.any fun entry => entry.effectSequence == effectSequence) = false)
    (.rejected "No matching unentered queue request")
  commitDirty snapshot { generation with
    queue := generation.queue.filter fun entry => entry.effectSequence != effectSequence }

/-- A cell that an arm may enter: untouched, or the earlier end of the same
cleanup. -/
def ActionReceipt.admitsArm (receipt : ActionReceipt) (queued : QueuedEffect) : Bool :=
  receipt == .not_entered || (queued.isCleanup && match receipt with
    | .uncertain effect _ => effect == queued.effectSequence
    | .settled effect _ _ _ => effect == queued.effectSequence
    | _ => false)

/-- A create marks its resource as possibly present. -/
def RoleLedger.enter (ledger : RoleLedger) (action : ResourceAction) (effectSequence : Nat) :
    RoleLedger :=
  let ledger := if action = .create then
      { ledger with presence := .possibly_present effectSequence none } else ledger
  ledger.setCell (.pending effectSequence) action

def enteredEffect (queued : QueuedEffect) (member : CoordinatorMember)
    (resource : SandboxRecoveryResource) (atSequence : Nat)
    (expectedBeforeDigest expectedInputDigest : JsString) : EnteredEffect :=
  { queued with
    armedAtSequence := atSequence
    checkpointRevision := member.checkpoint.revision
    checkpointDigest := member.checkpoint.digest
    reference := resource.identity.id?.getD resource.name
    expectedBeforeDigest, expectedInputDigest
    transitionRecipe := transitionRecipeOf queued.role queued.action
    result := .unobserved }

def planArm (snapshot : CoordinatorSnapshot) (generation : DirtyGeneration)
    (effectSequence : Nat) (expectedBeforeDigest expectedInputDigest : JsString) :
    Except Refusal CoordinatorPlan := do
  failIf (generation.entered.isSome = true)
    (.rejected "The entered physical effect still owns its slot")
  match armable generation effectSequence with
  | some queued@{ role := .resource role, action := .resource action, .. } =>
    match generation.member? queued.memberId with
    | none => .error (.rejected "The original member role is absent")
    | some member =>
    match member.checkpoint.record.resource? role with
    | none => .error (.rejected "The original member role is absent")
    | some resource => do
        failIf (queued.isCleanup = false ∧ (generation.liveState = false ∨
            member.checkpoint.callerSink.isFailed = true ∨ member.state.isEnding = true ∨
            admitsGrowthRole generation queued.role = false))
          (.rejected "Live authority does not admit this growth recipe")
        failIf (if action = .create then resource.identity ≠ .creating
            else resource.identity.isIdentified = false)
          (.rejected "Effect requires its exact checkpointed original resource identity")
        match member.ledger? role with
        | none => .error (.rejected "Original role ledger is absent")
        | some ledger => do
            failIf ((ledger.cell action).admitsArm queued = false)
              (.rejected "This action already entered and cannot be replayed")
            commitArmed snapshot
              { replaceMember generation (changedRole member role fun entry =>
                  entry.enter action queued.effectSequence) with
                queue := generation.queue.filter fun entry => entry != queued
                entered := some (enteredEffect queued member resource (snapshot.sequence + 1)
                  expectedBeforeDigest expectedInputDigest) }
  | _ => .error (.rejected "Only the next scheduled resource request can arm")

/-- The entered resource request of a number, and its member. -/
def originalRequest (generation : DirtyGeneration) (effectSequence : Nat) :
    Except Refusal (EnteredEffect × ResourceRole × ResourceAction × CoordinatorMember) :=
  match generation.entered with
  | some entered =>
    match entered.role, entered.action with
    | .resource role, .resource action => do
        failIf (entered.effectSequence ≠ effectSequence)
          (.rejected "The original entered resource request does not match")
        match generation.member? entered.memberId with
        | some member => pure (entered, role, action, member)
        | none => .error (.rejected "The original entered member is absent")
    | _, _ => .error (.rejected "The original entered resource request does not match")
  | none => .error (.rejected "The original entered resource request does not match")

def planReturned (snapshot : CoordinatorSnapshot) (generation : DirtyGeneration)
    (effectSequence : Nat) (id : JsString) : Except Refusal CoordinatorPlan := do
  let (entered, role, action, member) ← originalRequest generation effectSequence
  failIf (action ≠ .create ∨ (entered.result ≠ .unobserved ∧ entered.result ≠ .returned id))
    (.rejected "Returned identity cannot replace an earlier acquired ID")
  commitDirty snapshot
    { replaceMember generation (changedRole member role fun ledger =>
        { ledger with presence := .possibly_present entered.effectSequence (some id) }) with
      entered := some { entered with result := .returned id } }

/-- The identity that the record of an event gives to a role. -/
def Settlement.identity? (settlement : Settlement) (role : ResourceRole) : Option JsString :=
  settlement.record.bind fun record =>
    (record.resource? role).bind fun resource => resource.identity.id?

/-- A create that is said to be present must show the identity it returned or,
in cleanup, one that was read back. -/
def Settlement.provesPresent (settlement : Settlement) (generation : DirtyGeneration)
    (entered : EnteredEffect) (role : ResourceRole) : Bool :=
  match settlement.presence, entered.result with
  | .present id _ _ _, .returned returned => id == returned
  | .present _ _ _ _, .unobserved =>
    settlement.mode == some .canonical_cleanup && !generation.liveState &&
      (settlement.identity? role).isSome
  | _, _ => false

/-- A create that is said to be absent must name the identity it returned or
acquired. -/
def Settlement.provesAbsent (settlement : Settlement) (generation : DirtyGeneration)
    (entered : EnteredEffect) (role : ResourceRole) : Bool :=
  settlement.mode == some .canonical_cleanup && !generation.liveState &&
    match settlement.presence with
    | .absent reference _ _ _ =>
      (entered.result.returnedId.or (settlement.identity? role)) == some reference
    | _ => false

def planSettle (snapshot : CoordinatorSnapshot) (generation : DirtyGeneration)
    (effectSequence : Nat) (settlement : Settlement) : Except Refusal CoordinatorPlan := do
  let (entered, role, action, member) ← originalRequest generation effectSequence
  let next ← continuationWith member settlement.record
    (settlement.mode.getD .caller_persisted)
  failIf (settlement.outcome = .not_dispatched ∧ entered.result ≠ .unobserved)
    (.rejected "An originally returned create cannot become a non-dispatch")
  failIf (action = .create ∧ settlement.outcome = .present ∧
      settlement.provesPresent generation entered role = false)
    (.rejected "Create settlement requires its original returned identity or exact cleanup readback")
  failIf (action = .create ∧ settlement.outcome = .absent ∧
      settlement.provesAbsent generation entered role = false)
    (.rejected "Absent create cleanup requires its captured original returned ID or acquired identity")
  commitDirty snapshot
    { replaceMember generation (withProjection (settleAction next role action
        entered.effectSequence settlement.outcome settlement.receiptDigest settlement.presence
        (snapshot.sequence + 1)) settlement.projection) with
      entered := none }

/-! ## Events of members -/

def currentMember (generation : DirtyGeneration) (memberId : JsString) :
    Except Refusal CoordinatorMember :=
  match generation.member? memberId with
  | some member => pure member
  | none => .error (.rejected "No current original member matches")

/-- The member whose effect is entered. -/
def DirtyGeneration.hasEntered (generation : DirtyGeneration) (member : CoordinatorMember) : Bool :=
  generation.entered.any fun entered => entered.memberId == member.memberId

def planCheckpoint (snapshot : CoordinatorSnapshot) (generation : DirtyGeneration)
    (memberId : JsString) (record : SandboxRecoveryRecord) (mode : CheckpointMode) :
    Except Refusal CoordinatorPlan := do
  let member ← currentMember generation memberId
  failIf (generation.hasEntered member = true)
    (.rejected "An entered checkpoint must settle together with its original effect")
  let next ← continuation member record mode
  commitDirty snapshot (replaceMember generation next)

def planCallerSinkFailed (snapshot : CoordinatorSnapshot) (generation : DirtyGeneration)
    (memberId : JsString) : Except Refusal CoordinatorPlan := do
  let member ← currentMember generation memberId
  commitDirty snapshot (replaceMember generation { member with
    checkpoint := { member.checkpoint with
      callerSink := if member.checkpoint.callerSink.isFailed then member.checkpoint.callerSink
        else .failed (snapshot.sequence + 1) }
    state := .cleanup_pending .storage })

/-- The table of moves, the identical kind included. -/
def MemberState.allows : MemberState → MemberState → Bool
  | .reserved, .reserved | .reserved, .starting | .reserved, .stopping
  | .reserved, .cleanup_pending _ => true
  | .starting, .starting | .starting, .active | .starting, .stopping
  | .starting, .cleanup_pending _ => true
  | .active, .active | .active, .stopping | .active, .cleanup_pending _ => true
  | .stopping, .stopping | .stopping, .retained | .stopping, .cleanup_pending _ => true
  | .retained, .retained | .retained, .cleanup_pending _ => true
  | .cleanup_pending _, .cleanup_pending _ => true
  | _, _ => false

/-- The state a request leads to.  A member decides to stop or retain from its
last snapshot, so a cleanup demand published meanwhile already subsumes it. -/
def MemberState.subsume (state requested : MemberState) : MemberState :=
  if state.isCleanupPending = true ∧ (requested = .stopping ∨ requested = .retained) then state
  else requested

def planMemberState (snapshot : CoordinatorSnapshot) (generation : DirtyGeneration)
    (memberId : JsString) (requested : MemberState) : Except Refusal CoordinatorPlan := do
  let member ← currentMember generation memberId
  let state := member.state.subsume requested
  failIf (member.state.allows state = false) (.rejected "Member lifecycle cannot move backwards")
  failIf ((state = .starting ∨ state = .active) ∧ (generation.liveState = false ∨
      member.checkpoint.callerSink.isFailed = true ∨
      (state = .active ∧ hasFullObserverAuthority generation = false)))
    (.rejected "Failed authority cannot grant member growth")
  commitDirty snapshot (replaceMember generation { member with state })

def planWorkEnter (snapshot : CoordinatorSnapshot) (generation : DirtyGeneration)
    (memberId : JsString) (scope : ScopeName) (token : JsString) :
    Except Refusal CoordinatorPlan := do
  let member ← currentMember generation memberId
  failIf (generation.liveState = false ∨ member.checkpoint.callerSink.isFailed = true ∨
      member.work.get scope ≠ .not_entered ∨
      ((scope = .primary ∨ scope = .writers) ∧ hasFullObserverAuthority generation = false) ∨
      (if scope = .export_ then member.state ≠ .retained
        else member.state ≠ .starting ∧ member.state ≠ .active))
    (.rejected "Original operation scope is not available")
  commitDirty snapshot
    (replaceMember generation { member with work := member.work.set (.owned token) scope })

/-- Failed publication readback may prove entry never committed, or that the
original join already committed; then nothing changes. -/
def planWorkJoin (snapshot : CoordinatorSnapshot) (generation : DirtyGeneration)
    (memberId : JsString) (scope : ScopeName) (token : JsString) :
    Except Refusal CoordinatorPlan := do
  let member ← currentMember generation memberId
  match member.work.get scope with
  | .not_entered => pure (.commit snapshot)
  | .joined => pure (.commit snapshot)
  | found => do
      failIf (found ≠ .owned token) (.rejected "Only the original entered scope can join")
      commitDirty snapshot
        (replaceMember generation { member with work := member.work.set .joined scope })

def planSettleRecoveredWork (snapshot : CoordinatorSnapshot) (generation : DirtyGeneration)
    (memberId : JsString) (proofDigest : JsString) : Except Refusal CoordinatorPlan := do
  let member ← currentMember generation memberId
  failIf (generation.state.isCleanupOnly = false ∨ isDigest proofDigest = false ∨
      member.roles.all roleSettled = false ∨ generation.hasEntered member = true ∨
      (generation.queue.any fun entry => entry.memberId == member.memberId) = true)
    (.rejected "Recovered producer absence must be established independently before joining lost scopes")
  commitDirty snapshot (replaceMember generation { member with work := .all .joined })

/-- Cells in which not even a cleanup can be queued. -/
def ActionReceipt.refusesCleanup : ActionReceipt → Bool
  | .not_applicable => true
  | .pending _ => true
  | _ => false

/-- The number an action had before, which a repeated cleanup keeps. -/
def ActionReceipt.reused : ActionReceipt → Option Nat
  | .uncertain effect _ => some effect
  | .settled effect _ _ _ => some effect
  | _ => none

/-- The cell of an action on a resource of the member. -/
def CoordinatorMember.cell? (member : CoordinatorMember) : EffectRole → EffectAction →
    Option ActionReceipt
  | .resource role, .resource action => (member.ledger? role).map fun ledger => ledger.cell action
  | _, _ => none

def queuedEffect (snapshot : CoordinatorSnapshot) (generation : DirtyGeneration)
    (member : CoordinatorMember) (role : EffectRole) (action : EffectAction) : QueuedEffect :=
  { effectSequence :=
      ((member.cell? role action).bind ActionReceipt.reused).getD generation.nextEffectSequence
    memberId := member.memberId, role, action
    bindingDigest := member.binding.identityDigest
    requestedAtSequence := snapshot.sequence + 1 }

/-- `queue.sort` after one entry was appended to a sorted queue. -/
def enqueue (queue : List QueuedEffect) (queued : QueuedEffect) : List QueuedEffect :=
  (queue ++ [queued]).mergeSort fun left right =>
    decide (left.effectSequence ≤ right.effectSequence)

def planQueue (snapshot : CoordinatorSnapshot) (generation : DirtyGeneration)
    (memberId : JsString) (role : EffectRole) (action : EffectAction) :
    Except Refusal CoordinatorPlan := do
  let member ← currentMember generation memberId
  failIf ((match role, action with
      | .member, .member_retire => false
      | .resource role, .resource action =>
        (member.ledger? role).isNone || !applicableAction role action
      | _, _ => true) = true) (.rejected "No exact resource/action recipe exists")
  let ordinary := action.isGrowth
  failIf (ordinary = true ∧ (generation.liveState = false ∨
      member.checkpoint.callerSink.isFailed = true ∨ member.state.isEnding = true ∨
      admitsGrowthRole generation role = false ∨
      MAX_SAFE_INTEGER - COORDINATOR_JOURNAL_LIMITS.cleanupEffectReserve ≤ snapshot.sequence ∨
      MAX_SAFE_INTEGER - COORDINATOR_JOURNAL_LIMITS.cleanupEffectReserve <
        generation.nextEffectSequence))
    (.rejected "Normal effects must preserve live authority and cleanup reserve")
  failIf (COORDINATOR_JOURNAL_LIMITS.queue ≤ generation.queue.length ∨
      (ordinary = true ∧ COORDINATOR_JOURNAL_LIMITS.ordinaryQueue ≤
        (generation.queue.filter fun entry => !entry.isCleanup).length))
    (.rejected "Queue capacity is exhausted")
  failIf ((generation.effects.any fun entry => entry.owner == ⟨member.memberId, role, action⟩) = true)
    (.rejected "The action already has an original queue or dispatch owner")
  let cell := member.cell? role action
  failIf (cell.any (fun receipt => receipt != .not_entered &&
      (ordinary || receipt.refusesCleanup)) = true)
    (.rejected "An entered create/start cannot be queued again")
  let reused := cell.bind ActionReceipt.reused
  failIf (reused = none ∧ generation.nextEffectSequence = MAX_SAFE_INTEGER)
    (.rejected "Effect sequence is exhausted")
  commitDirty snapshot { generation with
    nextEffectSequence := generation.nextEffectSequence + (if reused = none then 1 else 0)
    queue := enqueue generation.queue (queuedEffect snapshot generation member role action) }

/-- An id that a create returned stays the one that is observed. -/
def Resolution.keepsReturned (resolution : Resolution) : Presence → Bool
  | .possibly_present _ (some returned) =>
    match resolution.presence with
    | .present id _ _ _ => id == returned
    | .absent reference _ _ _ => resolution.outcome == .absent && reference == returned
    | _ => false
  | _ => true

/-- A create is absent only by the id that was acknowledged for it. -/
def Resolution.provesAbsent (resolution : Resolution) (generation : DirtyGeneration)
    (presence : Presence) : Bool :=
  !generation.liveState && match presence, resolution.presence with
    | .possibly_present _ (some returned), .absent reference _ _ _ => reference == returned
    | _, _ => false

def planResolveUncertain (snapshot : CoordinatorSnapshot) (generation : DirtyGeneration)
    (memberId : JsString) (resolution : Resolution) : Except Refusal CoordinatorPlan := do
  let member ← currentMember generation memberId
  match member.ledger? resolution.role with
  | none => .error (.rejected "No matching retained original uncertainty can settle")
  | some ledger =>
  match ledger.cell resolution.action with
  | .uncertain effect _ => do
      failIf (generation.hasEntered member = true)
        (.rejected "No matching retained original uncertainty can settle")
      failIf (resolution.action = .create ∧ resolution.keepsReturned ledger.presence = false)
        (.rejected "Observed identity cannot replace the originally returned create ID")
      failIf (resolution.action = .create ∧ resolution.outcome = .absent ∧
          resolution.provesAbsent generation ledger.presence = false)
        (.rejected "An absent creating name without an acknowledged original ID remains uncertain")
      let continued ← continuationWith member resolution.record .canonical_cleanup
      commitDirty snapshot (replaceMember generation (withProjection
        (settleAction continued resolution.role resolution.action effect
          resolution.outcome.outcome resolution.receiptDigest resolution.presence
          (snapshot.sequence + 1)) resolution.projection))
  | _ => .error (.rejected "No matching retained original uncertainty can settle")

def tombstoneOf (member : CoordinatorMember) (checkpointDigest : JsString) (atSequence : Nat) :
    MemberTombstone :=
  { memberId := member.memberId
    memberSequence := member.memberSequence
    bindingDigest := member.binding.identityDigest
    checkpointDigest
    retiredAtSequence := atSequence }

def planRetire (snapshot : CoordinatorSnapshot) (generation : DirtyGeneration)
    (memberId : JsString) (record : SandboxRecoveryRecord) (mode : CheckpointMode) :
    Except Refusal CoordinatorPlan := do
  let member ← currentMember generation memberId
  failIf (scopesSettled member = false ∨ member.roles.all roleSettled = false ∨
      generation.hasEntered member = true ∨
      (generation.queue.any fun entry =>
        entry.memberId == member.memberId && entry.action != .member_retire) = true)
    (.rejected "Retirement requires every original producer, callback and resource obligation settled")
  let next ← continuation member record mode
  failIf (next.checkpoint.record.phase ≠ .destroyed)
    (.rejected "Retirement requires the exact terminal original continuation")
  commitDirty snapshot { generation with
    members := generation.members.filter fun item => item.memberId != member.memberId
    queue := generation.queue.filter fun entry => entry.memberId != member.memberId
    retired := (generation.retired ++
      [tombstoneOf member next.checkpoint.digest (snapshot.sequence + 1)]).mergeSort
        fun left right => decide (left.memberSequence ≤ right.memberSequence) }

/-! ## Transitions -/

def planDirtyTransition (snapshot : CoordinatorSnapshot) (generation : DirtyGeneration) :
    CoordinatorEvent → Except Refusal CoordinatorPlan
  | .close_admission => planCloseAdmission snapshot generation
  | .fence fault => planFence snapshot generation fault
  | .clean_close => planCleanClose snapshot generation
  | .reopen_cleanup => planReopenCleanup snapshot generation
  | .register record binding slot => planRegister snapshot generation record binding slot
  | .full_basis basis => planFullBasis snapshot generation basis
  | .quiesce basis => planQuiesce snapshot generation basis
  | .cancel_queued effectSequence => planCancelQueued snapshot generation effectSequence
  | .arm effectSequence expectedBeforeDigest expectedInputDigest =>
    planArm snapshot generation effectSequence expectedBeforeDigest expectedInputDigest
  | .returned effectSequence id => planReturned snapshot generation effectSequence id
  | .settle effectSequence settlement => planSettle snapshot generation effectSequence settlement
  | .checkpoint memberId record mode => planCheckpoint snapshot generation memberId record mode
  | .caller_sink_failed memberId => planCallerSinkFailed snapshot generation memberId
  | .member_state memberId state => planMemberState snapshot generation memberId state
  | .work_enter memberId scope token => planWorkEnter snapshot generation memberId scope token
  | .work_join memberId scope token => planWorkJoin snapshot generation memberId scope token
  | .settle_recovered_work memberId proofDigest =>
    planSettleRecoveredWork snapshot generation memberId proofDigest
  | .queue memberId role action => planQueue snapshot generation memberId role action
  | .resolve_uncertain memberId resolution =>
    planResolveUncertain snapshot generation memberId resolution
  | .retire memberId record mode => planRetire snapshot generation memberId record mode

def planCoordinatorTransition (snapshot : CoordinatorSnapshot) (event : CoordinatorEvent) :
    Except Refusal CoordinatorPlan :=
  match snapshot.generation with
  | .clean _ => .error (.rejected "This transition requires the original dirty generation")
  | .dirty generation => do
      failIf (MAX_SAFE_INTEGER < snapshot.sequence + 1)
        (.rejected "Snapshot sequence is exhausted; dirty ownership must remain retained")
      planDirtyTransition snapshot generation event

end AgentSdk.Journal
