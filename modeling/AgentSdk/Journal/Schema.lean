import AgentSdk.Journal.Wire

/-!
# Validation of snapshots

The digests that bind a snapshot together and the check that every committed
snapshot passes.  The loop over the members carries the owners of effect
numbers, the pending effects, the names, the acquired identities and the scope
tokens met so far.
-/

namespace AgentSdk.Journal

open AgentSdk.Text AgentSdk.Outcome

/-! ## Digests -/

/-- A digest of a domain and a text.  The texts are JSON or a checked identity,
hence valid Unicode. -/
def coordinatorDigest (domain : String) (text : JsString) : JsString :=
  js "sha256:" ++ Sha256.hexDigest (js domain ++ 0 :: text)

def engineKeyOf (daemonId : JsString) : JsString :=
  coordinatorDigest "agenai.desktop-coordinator.engine.v1" daemonId

def coordinatorEngineKey (daemonId : JsString) : Except Refusal JsString := do
  failIf (isId daemonId = false) (.invalid "Invalid coordinator daemon ID")
  pure (engineKeyOf daemonId)

def recoveryRecordDigest (record : SandboxRecoveryRecord) : Except Refusal JsString := do
  let record ← parseSandboxRecoveryRecord record
  failIf (COORDINATOR_JOURNAL_LIMITS.recordBytes < bytes record.json)
    (.invalid "Coordinator record exceeds its byte bound")
  pure (coordinatorDigest "agenai.desktop-coordinator.recovery-record.v1"
    (Json.stringify record.json))

/-- The record as it was reserved: nothing entered, no daemon verified. -/
def SandboxRecoveryRecord.initial (record : SandboxRecoveryRecord) : SandboxRecoveryRecord :=
  { record with
    phase := .reserved
    authority := .unverified
    resources := record.resources.map fun resource => { resource with identity := .planned } }

def initialRecoveryDigest (record : SandboxRecoveryRecord) : Except Refusal JsString :=
  recoveryRecordDigest record.initial

def memberIdentityDigest (authorityId engineKey : JsString) (identity : GenerationIdentity)
    (record : SandboxRecoveryRecord) (memberSequence slot : Nat) (subnet gateway : JsString)
    (configurationIdentityDigest : JsString) : JsString :=
  coordinatorDigest "agenai.desktop-coordinator.member.v1" <| Json.stringify <| .obj
    [field "authorityId" (.str authorityId), field "engineKey" (.str engineKey),
      field "generationId" (.str identity.generationId),
      field "generationOrdinal" (count identity.ordinal),
      field "coordinationPolicyDigest" (.str identity.coordinationPolicyDigest),
      field "configurationIdentityDigest" (.str configurationIdentityDigest),
      field "memberId" (.str record.operationId), field "memberSequence" (count memberSequence),
      field "allocation" (.obj [field "slot" (count slot), field "subnet" (.str subnet),
        field "gateway" (.str gateway)]),
      field "record" (.obj [field "format" (word "agenai.sandbox-recovery.v3"),
        field "backendId" (.str record.backendId),
        field "backendRevision" (.str record.backendRevision),
        field "namespace" (.str record.namespace_),
        field "operationId" (.str record.operationId),
        field "sandboxId" (.str record.sandboxId),
        field "imageDigest" (.str record.imageDigest),
        field "policyDigest" (.str record.policyDigest),
        field "configurationDigest" (.str record.configurationDigest),
        field "resources" (.arr (record.resources.map fun resource =>
          .obj [field "role" (word resource.role.word), field "name" (.str resource.name)]))])]

def projectionDigest (phase : ProjectionPhase) (facts : ProjectionFacts) :
    Except Refusal JsString := do
  failIf (facts.shape = false) (.invalid "Invalid bounded member projection facts")
  pure (coordinatorDigest "agenai.desktop-coordinator.projection.v1" <| Json.stringify <| .obj
    [field "recipe" (word "desktop-member-projection-v1"), field "phase" (word phase.word),
      field "facts" facts.json])

/-! ## Members -/

/-- Each key is smaller than the next one. -/
def sortedUnique (keys : List Nat) : Bool :=
  (keys.zip keys.tail).all fun pair => decide (pair.1 < pair.2)

/-- What the loop over the members has met. -/
structure Seen where
  effectOwners : List (Nat × EffectOwner) := []
  pending : List Nat := []
  resourceNames : List JsString := []
  resourceIds : List JsString := []
  workTokens : List JsString := []

/-- `effectOwners.get`. -/
def Seen.owner? (seen : Seen) (effect : Nat) : Option EffectOwner :=
  (seen.effectOwners.find? fun entry => entry.1 == effect).map Prod.snd

def validateResource (seen : Seen) (resource : SandboxRecoveryResource) :
    Except Refusal Seen := do
  failIf (seen.resourceNames.contains resource.name = true ∨
      resource.identity.id?.any seen.resourceIds.contains = true)
    (.invalid "Members cannot share original resource names or acquired IDs")
  pure { seen with
    resourceNames := resource.name :: seen.resourceNames
    resourceIds := resource.identity.id?.toList ++ seen.resourceIds }

def validateCheckpoint (snapshot : CoordinatorSnapshot) (item : CoordinatorMember) :
    Except Refusal Unit := do
  let record := item.checkpoint.record
  let recordDigest ← recoveryRecordDigest record
  let initialDigest ← initialRecoveryDigest record
  failIf (record.operationId ≠ item.memberId ∨ record.backendId ≠ js "agenai-docker" ∨
      record.backendRevision ≠ item.binding.profile.backendRevision ∨
      record.configurationDigest ≠ item.binding.configurationIdentityDigest ∨
      record.sandboxId ≠ js "docker-" ++ item.memberId ∨
      (record.authority ≠ .unverified ∧ record.authority ≠ .verified snapshot.daemonId) ∨
      item.checkpoint.digest ≠ recordDigest ∨ item.binding.initialRecordDigest ≠ initialDigest ∨
      snapshot.sequence < item.checkpoint.revision ∨
      (item.checkpoint.revision = 0 ∧
        (item.binding.initialRecordDigest ≠ item.checkpoint.digest ∨ record.phase ≠ .reserved ∨
          record.authority ≠ .unverified ∨
          ∃ resource ∈ record.resources, resource.identity ≠ .planned)) ∨
      (match item.checkpoint.callerSink with
        | .failed atSequence => decide (snapshot.sequence < atSequence)
        | .healthy => false) = true)
    (.invalid "Member checkpoint does not match its original binding")

def validateRoles (item : CoordinatorMember) : Except Refusal Unit :=
  failIf (sortedUnique (item.roles.map fun ledger => ledger.role.rank) = false ∨
      item.roles.length ≠ item.checkpoint.record.resources.length ∨
      ∃ ledger ∈ item.roles, (item.checkpoint.record.resource? ledger.role).isNone = true)
    (.invalid "Role ledger must exactly match the original record")

/-- `pending` or `uncertain`. -/
def ActionReceipt.isUnresolved : ActionReceipt → Bool
  | .pending _ => true
  | .uncertain _ _ => true
  | _ => false

def Presence.isSettled : Presence → Bool
  | .absent _ _ _ _ => true
  | .not_entered _ => true
  | _ => false

/-- `roleSettled`: nothing of the role is present and no receipt is open. -/
def roleSettled (ledger : RoleLedger) : Bool :=
  ledger.presence.isSettled && ledger.cells.all fun receipt => !receipt.isUnresolved

def validateAllocation (snapshot : CoordinatorSnapshot) (identity : GenerationIdentity)
    (item : CoordinatorMember) : Except Refusal Unit :=
  let digestFor (slot : Nat) (subnet gateway : JsString) :=
    memberIdentityDigest snapshot.authorityId snapshot.engineKey identity item.checkpoint.record
      item.memberSequence slot subnet gateway item.binding.configurationIdentityDigest
  match item.allocation with
  | .reserved slot subnet gateway =>
    failIf (subnet ≠ subnetOf slot ∨ gateway ≠ gatewayOf slot ∨
        item.binding.identityDigest ≠ digestFor slot subnet gateway)
      (.invalid "Member subnet or identity binding is inconsistent")
  | .released previousSlot releaseSequence =>
    failIf (snapshot.sequence < releaseSequence ∨
        item.binding.identityDigest ≠
          digestFor previousSlot (subnetOf previousSlot) (gatewayOf previousSlot) ∨
        item.roles.all roleSettled = false)
      (.invalid "Invalid allocation release settlement")

/-- The resources that projection facts name, each with its role. -/
def ProjectionFacts.resources (facts : ProjectionFacts) : List (ResourceRole × Option JsString) :=
  [(.network, facts.network.map NetworkFacts.id), (.route_observer, facts.observerId),
    (.compute, facts.computeNoneId), (.filesystem, facts.filesystemNoneId),
    (.egress_broker, facts.broker.map BrokerFacts.id)]

/-- The resource is identified in the record and present in its ledger. -/
def CoordinatorMember.owns (item : CoordinatorMember) (role : ResourceRole) (id : JsString) : Bool :=
  (item.checkpoint.record.resources.any fun resource =>
      resource.role == role && resource.identity.id? == some id) &&
    item.roles.any fun ledger => ledger.role == role &&
      match ledger.presence with
      | .present present _ _ _ => present == id
      | _ => false

/-- `Number(address.split('.')[3])` lies inside the /28 of the slot. -/
def brokerAddressWithin (address : JsString) (allocation : MemberAllocation) : Bool :=
  match allocation, ((address.splitOn 46)[3]?).bind octet? with
  | .reserved slot _ _, some value => decide (slot * 16 + 1 < value ∧ value < slot * 16 + 15)
  | _, _ => false

def ProjectionFacts.contradicts (facts : ProjectionFacts) : ProjectionPhase → Bool
  | .observer_only =>
    facts.network.isSome || facts.broker.isSome || facts.computeNoneId.isSome ||
      facts.filesystemNoneId.isSome
  | .bridge_empty => facts.network.isNone || facts.broker.isSome
  | .broker_created => facts.network.isNone || facts.broker.isNone
  | .broker_active => facts.network.isNone || facts.broker.isNone
  | .retained_empty =>
    facts.observerId.isSome || facts.computeNoneId.isSome || facts.filesystemNoneId.isSome ||
      facts.broker.isSome
  | _ => false

def validateProjection (item : CoordinatorMember) : Except Refusal Unit :=
  match item.projection with
  | .none => pure ()
  | .registered phase facts digest => do
      let expected ← projectionDigest phase facts
      failIf (digest ≠ expected ∨ sortedUnique (facts.vmLinks.map VmLink.index) = false ∨
          ¬(facts.vmLinks.map VmLink.name).Nodup) (.invalid "Invalid projection descriptor")
      failIf (facts.network.any (fun network => match item.allocation with
          | .reserved _ subnet gateway => network.subnet != subnet || network.gateway != gateway
          | .released _ _ => true) = true)
        (.invalid "Projection network differs from reserved allocation")
      failIf ((facts.resources.all fun entry => entry.2.all (item.owns entry.1)) = false)
        (.invalid "Projection contains an unowned or absent resource")
      failIf (facts.network.any (fun network =>
          (item.checkpoint.record.resource? .network).map SandboxRecoveryResource.name !=
            some network.name) = true)
        (.invalid "Projection network name differs from its original role")
      failIf (facts.broker.any (fun broker =>
          facts.network.map NetworkFacts.gateway != some broker.gateway ||
            !(js "10.240.0.").isPrefixOf broker.address ||
            !brokerAddressWithin broker.address item.allocation) = true)
        (.invalid "Broker projection requires an address within its reserved network")
      failIf (facts.contradicts phase = true)
        (.invalid "Projection phase contradicts its finite facts")

/-- The tokens of the scopes a member owns. -/
def WorkOwnership.tokens (work : WorkOwnership) : List JsString :=
  work.scopes.filterMap fun scope => match scope with
    | .owned token => some token
    | _ => none

def validateWork (generation : DirtyGeneration) (item : CoordinatorMember) (seen : Seen) :
    Except Refusal Seen := do
  let tokens := item.work.tokens
  failIf (tokens.any seen.workTokens.contains = true ∨ ¬tokens.Nodup)
    (.invalid "Original operation scope tokens cannot be shared")
  failIf (generation.state.isCleanupOnly = true ∧ tokens ≠ [])
    (.invalid "Invalid operation scope ownership")
  pure { seen with workTokens := tokens ++ seen.workTokens }

/-! ## Role ledgers -/

def ActionReceipt.settledWith (outcome : ActionOutcome) : ActionReceipt → Bool
  | .settled _ found _ _ => found == outcome
  | _ => false

/-- Whether a presence contradicts the identity of its resource. -/
def Presence.contradicts (presence : Presence) (snapshot : CoordinatorSnapshot)
    (nextEffectSequence : Nat) (resource : SandboxRecoveryResource) (create : ActionReceipt) :
    Bool :=
  match presence with
  | .not_entered provedAtSequence =>
    decide (snapshot.sequence < provedAtSequence) || resource.identity.isIdentified
  | .possibly_present createEffect returnedId =>
    resource.identity == .planned || decide (nextEffectSequence ≤ createEffect) ||
      match resource.identity, returnedId with
      | .identified id _, some returned => returned != id
      | _, _ => false
  | .present id fingerprint _ _ => resource.identity != .identified id fingerprint
  | .absent reference fingerprint inspectedAtSequence noLateProducerAfter =>
    decide (snapshot.sequence < inspectedAtSequence) ||
      decide (snapshot.sequence < noLateProducerAfter) ||
      decide (inspectedAtSequence < noLateProducerAfter) ||
      match resource.identity with
      | .identified id known => reference != id || fingerprint != some known
      | identity =>
        if create.settledWith .absent then identity != .creating || fingerprint.isSome
        else reference != resource.name || fingerprint.isSome

def Presence.runtimeContradicts (presence : Presence) (role : ResourceRole) : Bool :=
  match presence with
  | .present _ _ _ runtime =>
    [ResourceRole.storage, .network, .egress_socket].elem role != (runtime == .not_applicable)
  | _ => false

/-- The outcome an action settles with when it was carried out. -/
def ResourceAction.outcome : ResourceAction → ActionOutcome
  | .create => .present
  | .start => .started
  | .control_close => .control_joined
  | .delete => .absent

def ActionOutcome.fits (outcome : ActionOutcome) (action : ResourceAction) : Bool :=
  outcome == .not_dispatched || outcome == action.outcome ||
    ((action == .start || action == .create) && outcome == .absent)

/-- The effect number of a receipt that has one. -/
def ActionReceipt.effect? : ActionReceipt → Option Nat
  | .not_applicable => none
  | .not_entered => none
  | .pending effect => some effect
  | .uncertain effect _ => some effect
  | .settled effect _ _ _ => some effect

def validateCell (snapshot : CoordinatorSnapshot) (generation : DirtyGeneration)
    (item : CoordinatorMember) (ledger : RoleLedger) (seen : Seen) (action : ResourceAction) :
    Except Refusal Seen := do
  let receipt := ledger.cell action
  failIf (applicableAction ledger.role action = decide (receipt = .not_applicable))
    (.invalid "Invalid applicable action cell")
  match receipt.effect? with
  | none => pure seen
  | some effect =>
    failIf (effect = 0 ∨ generation.nextEffectSequence ≤ effect ∨
        (match receipt with
          | .settled _ _ _ atSequence => decide (snapshot.sequence < atSequence)
          | _ => false) = true)
      (.invalid "Action receipt refers to a future sequence")
    let owner : EffectOwner := ⟨item.memberId, .resource ledger.role, .resource action⟩
    failIf ((seen.owner? effect).any (fun known => known != owner) = true)
      (.invalid "Effect sequence is owned by multiple actions")
    failIf ((match receipt with
        | .settled _ outcome _ _ => !outcome.fits action
        | _ => false) = true) (.invalid "Action receipt has the wrong outcome")
    pure { seen with
      effectOwners := (effect, owner) :: seen.effectOwners
      pending := match receipt with
        | .pending _ => seen.pending ++ [effect]
        | _ => seen.pending }

/-- The checks of a ledger that follow those of its cells. -/
def validatePresence (resource : SandboxRecoveryResource) (ledger : RoleLedger) :
    Except Refusal Unit := do
  let identified := resource.identity.isIdentified
  let absent := match ledger.presence with
    | .absent _ _ _ _ => true
    | _ => false
  let present := match ledger.presence with
    | .present _ _ _ _ => true
    | _ => false
  failIf ((match ledger.presence with
      | .possibly_present createEffect _ =>
        !ledger.create.isUnresolved || ledger.create.effect? != some createEffect
      | _ => false) = true)
    (.invalid "Possible presence must retain its original create obligation")
  failIf ((absent && !identified && ledger.create != .not_entered &&
      !ledger.create.settledWith .not_dispatched && !ledger.create.settledWith .absent) = true)
    (.invalid "Unresolved create cannot be declared absent by name")
  failIf (((present || absent && identified) && !ledger.create.settledWith .present &&
      !(absent && ledger.create.settledWith .absent)) = true)
    (.invalid "Acquired presence requires its settled original create")
  failIf ((ledger.create.settledWith .present && !identified ||
      ledger.create.settledWith .absent && !absent ||
      ledger.delete.settledWith .absent && !absent ||
      ledger.start.settledWith .absent && !absent) = true)
    (.invalid "Settled action contradicts its original resource presence")

def validateLedger (snapshot : CoordinatorSnapshot) (generation : DirtyGeneration)
    (item : CoordinatorMember) (seen : Seen) (ledger : RoleLedger) : Except Refusal Seen :=
  match item.checkpoint.record.resource? ledger.role with
  | none => .error (.invalid "Missing original role")
  | some resource => do
      have returnedId := match ledger.presence with
        | .possibly_present _ (some id) => if resource.identity.isIdentified then none else some id
        | _ => none
      failIf (returnedId.any seen.resourceIds.contains = true)
        (.invalid "Returned create IDs cannot refer to another original resource")
      let seen := { seen with resourceIds := returnedId.toList ++ seen.resourceIds }
      failIf (ledger.presence.contradicts snapshot generation.nextEffectSequence resource
          ledger.create = true) (.invalid "Role presence contradicts the original checkpoint")
      failIf (ledger.presence.runtimeContradicts ledger.role = true)
        (.invalid "Runtime state does not apply to this role")
      let seen ← ResourceAction.all.foldlM (validateCell snapshot generation item ledger) seen
      validatePresence resource ledger
      pure seen

/-- Roles whose resource runs on behalf of a member. -/
def isProducer (role : ResourceRole) : Bool :=
  [ResourceRole.compute, .filesystem, .route_observer, .egress_broker, .egress_relay].elem role

def WorkScope.isOwned : WorkScope → Bool
  | .owned _ => true
  | _ => false

def validateRetained (item : CoordinatorMember) : Except Refusal Unit :=
  failIf (item.state = .retained ∧
      (([item.work.initialization, item.work.primary, item.work.writers].any WorkScope.isOwned ||
        item.roles.any fun ledger => isProducer ledger.role && !roleSettled ledger) = true))
    (.invalid "Retained member still has a live producer obligation")

def validateMember (snapshot : CoordinatorSnapshot) (generation : DirtyGeneration) (seen : Seen)
    (item : CoordinatorMember) : Except Refusal Seen := do
  let seen ← item.checkpoint.record.resources.foldlM validateResource seen
  validateCheckpoint snapshot item
  validateRoles item
  validateAllocation snapshot generation.identity item
  validateProjection item
  failIf (COORDINATOR_JOURNAL_LIMITS.memberMetadataBytes < bytes item.metadata)
    (.invalid "Member metadata exceeds its byte capacity")
  let seen ← validateWork generation item seen
  let seen ← item.roles.foldlM (validateLedger snapshot generation item) seen
  validateRetained item
  pure seen

/-! ## Effects -/

/-- The checks of an effect that is queued or entered; `queued` tells which. -/
def validateEffect (snapshot : CoordinatorSnapshot) (generation : DirtyGeneration) (seen : Seen)
    (queued : Bool) (effect : QueuedEffect) (size : Nat) : Except Refusal Unit := do
  failIf ((match generation.member? effect.memberId with
      | none => true
      | some owner =>
        owner.binding.identityDigest != effect.bindingDigest ||
          (match effect.role with
            | .member => false
            | .resource role => (owner.ledger? role).isNone)) = true ∨
      effect.effectSequence = 0 ∨ generation.nextEffectSequence ≤ effect.effectSequence ∨
      snapshot.sequence < effect.requestedAtSequence ∨
      COORDINATOR_JOURNAL_LIMITS.effectBytes < size ∨
      (match effect.role, effect.action with
        | .member, .member_retire => false
        | .resource role, .resource action => !applicableAction role action
        | _, _ => true) = true ∨
      (generation.state.isCleanupOnly = true ∧ effect.action.isGrowth = true))
    (.invalid "Effect does not bind a current member action")
  failIf (queued = true ∧ ((seen.owner? effect.effectSequence).any fun owner =>
      effect.action.isGrowth || owner != effect.owner) = true)
    (.invalid "Queued effect reuses another action identity")

def validateEntered (snapshot : CoordinatorSnapshot) (generation : DirtyGeneration) (seen : Seen)
    (entered : EnteredEffect) : Except Refusal Unit :=
  match generation.member? entered.memberId, entered.role, entered.action with
  | some owner, .resource role, .resource action =>
    match owner.checkpoint.record.resource? role with
    | none => .error (.invalid "Invalid armed effect binding")
    | some resource => do
        failIf (entered.checkpointRevision ≠ owner.checkpoint.revision ∨
            entered.checkpointDigest ≠ owner.checkpoint.digest ∨
            snapshot.sequence < entered.armedAtSequence ∨
            entered.armedAtSequence < entered.requestedAtSequence ∨
            entered.reference ≠ resource.identity.id?.getD resource.name ∨
            (if action = .create then resource.identity ≠ .creating
              else resource.identity.isIdentified = false) ∨
            entered.transitionRecipe ≠ transitionRecipeOf entered.role entered.action ∨
            (entered.result ≠ .unobserved ∧ action ≠ .create))
          (.invalid "Invalid armed effect binding")
        failIf (action = .create ∧ (match (owner.ledger? role).map RoleLedger.presence with
            | some (.possibly_present _ returnedId) => returnedId != entered.result.returnedId
            | _ => true) = true)
          (.invalid "Armed create must preserve its exact returned ID")
        failIf (seen.pending ≠ [entered.effectSequence])
          (.invalid "Entered effect must own the sole pending action cell")
  | _, _, _ => .error (.invalid "Invalid armed effect binding")

/-- The entered effect and the pending cells account for each other. -/
def validateSlot (snapshot : CoordinatorSnapshot) (generation : DirtyGeneration) (seen : Seen) :
    Except Refusal Unit :=
  match generation.entered with
  | some entered => validateEntered snapshot generation seen entered
  | none => failIf (seen.pending ≠ []) (.invalid "Pending action cell has no entered owner")

/-! ## Generations -/

def DirtyGeneration.effects (generation : DirtyGeneration) : List QueuedEffect :=
  generation.queue ++ generation.entered.toList.map EnteredEffect.toQueuedEffect

/-- The identities and sequences of the current and the retired members. -/
def DirtyGeneration.everyone (generation : DirtyGeneration) : List (JsString × Nat) :=
  generation.members.map (fun item => (item.memberId, item.memberSequence)) ++
    generation.retired.map fun item => (item.memberId, item.memberSequence)

def DirtyGeneration.slots (generation : DirtyGeneration) : List Nat :=
  generation.members.filterMap fun item => match item.allocation with
    | .reserved slot _ _ => some slot
    | .released _ _ => none

def validateCounters (snapshot : CoordinatorSnapshot) (generation : DirtyGeneration) :
    Except Refusal Unit := do
  failIf (snapshot.sequence = 0 ∨ generation.identity.ordinal = 0 ∨
      generation.nextMemberSequence = 0 ∨ generation.nextEffectSequence = 0 ∨
      generation.identity.generationId = snapshot.authorityId ∨
      snapshot.sequence < generation.basis.atSequence ∨
      (match generation.state with
        | .fenced _ atSequence => decide (snapshot.sequence < atSequence)
        | _ => false) = true)
    (.invalid "Invalid dirty generation counters")
  failIf ((generation.state = .awaiting_first_observer ∧ generation.basis.isFull = true) ∨
      ((generation.state = .open_ ∨ generation.state = .quiescent) ∧
        generation.basis.isFull = false))
    (.invalid "Generation state has an incompatible authority basis")
  failIf (COORDINATOR_JOURNAL_LIMITS.retirements <
      generation.members.length + generation.retired.length)
    (.invalid "Generation retirement reservations exhausted")
  failIf (sortedUnique (generation.members.map CoordinatorMember.memberSequence) = false ∨
      sortedUnique (generation.retired.map MemberTombstone.memberSequence) = false ∨
      sortedUnique (generation.queue.map QueuedEffect.effectSequence) = false)
    (.invalid "Coordinator arrays must be sorted and unique")
  failIf (¬(generation.everyone.map Prod.fst).Nodup ∨ ¬(generation.everyone.map Prod.snd).Nodup ∨
      ∃ item ∈ generation.everyone, item.2 = 0 ∨ generation.nextMemberSequence ≤ item.2 ∨
        item.1 = snapshot.authorityId ∨ item.1 = generation.identity.generationId)
    (.invalid "Member identity or sequence was reused")
  failIf (¬generation.slots.Nodup) (.invalid "Reserved subnet slots must be unique")

def validateTombstone (snapshot : CoordinatorSnapshot) (retired : MemberTombstone) :
    Except Refusal Unit :=
  failIf (snapshot.sequence < retired.retiredAtSequence ∨
      COORDINATOR_JOURNAL_LIMITS.tombstoneBytes < bytes retired.json)
    (.invalid "Invalid retirement tombstone")

def validateDirty (snapshot : CoordinatorSnapshot) (generation : DirtyGeneration) :
    Except Refusal Unit := do
  validateCounters snapshot generation
  let seen ← generation.members.foldlM (validateMember snapshot generation) {}
  failIf (¬(generation.effects.map QueuedEffect.effectSequence).Nodup ∨
      ¬(generation.effects.map QueuedEffect.owner).Nodup)
    (.invalid "Queued and entered effects must have distinct original owners")
  failIf (COORDINATOR_JOURNAL_LIMITS.ordinaryQueue <
      (generation.queue.filter fun entry => entry.action.isGrowth).length)
    (.invalid "Ordinary queue consumed cleanup reserve")
  generation.queue.forM fun effect =>
    validateEffect snapshot generation seen true effect (bytes effect.json)
  generation.entered.toList.forM fun effect =>
    validateEffect snapshot generation seen false effect.toQueuedEffect (bytes effect.json)
  validateSlot snapshot generation seen
  generation.retired.forM (validateTombstone snapshot)
  failIf (COORDINATOR_JOURNAL_LIMITS.envelopeBytes <
      bytes (snapshot.jsonWith (.obj generation.envelopeFields)))
    (.invalid "Coordinator envelope exceeds its byte capacity")

def validateClean (snapshot : CoordinatorSnapshot) (generation : CleanGeneration) :
    Except Refusal Unit :=
  failIf (generation.settledAtSequence ≠ snapshot.sequence ∨
      (decide (generation.generationOrdinal = 0) ≠ generation.lastGenerationId.isNone) ∨
      (decide (snapshot.sequence = 0) ≠ decide (generation.generationOrdinal = 0)))
    (.invalid "Invalid clean generation settlement")

def validateSnapshot (snapshot : CoordinatorSnapshot) : Except Refusal Unit := do
  let engineKey ← coordinatorEngineKey snapshot.daemonId
  failIf (snapshot.engineKey ≠ engineKey) (.invalid "Engine key does not bind the daemon ID")
  failIf (decide (snapshot.sequence = 0) ≠ snapshot.previousDigest.isNone)
    (.invalid "Initial sequence alone has no previous digest")
  match snapshot.generation with
  | .clean generation => validateClean snapshot generation
  | .dirty generation => validateDirty snapshot generation

/-! ## Reading and writing -/

def parseCoordinatorSnapshot (snapshot : CoordinatorSnapshot) :
    Except Refusal CoordinatorSnapshot := do
  failIf (COORDINATOR_JOURNAL_LIMITS.framedBytes <
      bytes snapshot.json + COORDINATOR_JOURNAL_LIMITS.nativeHeaderBytes)
    (.invalid "Coordinator snapshot exceeds its framed byte capacity")
  failIf (snapshot.shape = false)
    (.invalid "Coordinator snapshot does not match the closed v1 schema")
  validateSnapshot snapshot
  pure snapshot

/-- `encodeCoordinatorSnapshot`.  The schema is checked on the same values, so
the bytes counted after it are those counted before it. -/
def encodeCoordinatorSnapshot (snapshot : CoordinatorSnapshot) : Except Refusal JsString := do
  let parsed ← parseCoordinatorSnapshot snapshot
  failIf (COORDINATOR_JOURNAL_LIMITS.framedBytes <
      bytes parsed.json + COORDINATOR_JOURNAL_LIMITS.nativeHeaderBytes)
    (.invalid "Coordinator snapshot exceeds its framed byte capacity")
  pure (Json.stringify parsed.json)

def snapshotDigest (snapshot : CoordinatorSnapshot) : Except Refusal JsString := do
  let text ← encodeCoordinatorSnapshot snapshot
  pure (coordinatorDigest "agenai.desktop-coordinator.snapshot.v1" text)

end AgentSdk.Journal
