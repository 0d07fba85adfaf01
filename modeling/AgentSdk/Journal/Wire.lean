import AgentSdk.Journal.Records

/-!
# The text and the schema of a snapshot

The JSON form of every record and what the closed schema checks about its
values.  A snapshot that the schema accepts is read back unchanged from its
text, so the two passes through the text in `parseCoordinatorSnapshot` and
`encodeCoordinatorSnapshot` are checks of a typed snapshot.
-/

namespace AgentSdk.Journal

open AgentSdk.Text

/-! ## JSON -/

def count (n : Nat) : Json := .num n

/-- A value or `null`. -/
def nullable {α : Type} (value : Option α) (json : α → Json) : Json :=
  value.elim .null json

def GenerationIdentity.json (identity : GenerationIdentity) : Json :=
  .obj [field "generationId" (.str identity.generationId),
    field "ordinal" (count identity.ordinal),
    field "coordinationRevision" (word "desktop-coordination-v1"),
    field "coordinationPolicyDigest" (.str identity.coordinationPolicyDigest),
    field "engineBindingDigest" (.str identity.engineBindingDigest),
    field "endpointBindingDigest" (.str identity.endpointBindingDigest),
    field "hostPreparationDigest" (.str identity.hostPreparationDigest),
    field "nativeAssetDigest" (.str identity.nativeAssetDigest)]

def GenerationState.json : GenerationState → Json
  | .awaiting_first_observer => kindJson "awaiting_first_observer" []
  | .open_ => kindJson "open" []
  | .quiescent => kindJson "quiescent" []
  | .admission_closed => kindJson "admission_closed" []
  | .fenced fault atSequence =>
    kindJson "fenced" [field "fault" (word fault.word), field "atSequence" (count atSequence)]
  | .cleanup_only originalStateDigest =>
    kindJson "cleanup_only" [field "originalStateDigest" (.str originalStateDigest)]

def AuthorityBasis.json : AuthorityBasis → Json
  | .host_engine_only basis =>
    kindJson "host_engine_only" [field "hostDigest" (.str basis.hostDigest),
      field "engineDigest" (.str basis.engineDigest),
      field "exclusionDigest" (.str basis.exclusionDigest),
      field "atSequence" (count basis.atSequence)]
  | .full basis =>
    kindJson "full" [field "hostDigest" (.str basis.hostDigest),
      field "engineDigest" (.str basis.engineDigest),
      field "vmDigest" (.str basis.vmDigest),
      field "externalEngineDigest" (.str basis.externalEngineDigest),
      field "externalVmDigest" (.str basis.externalVmDigest),
      field "exclusionDigest" (.str basis.exclusionDigest),
      field "projectionDigest" (.str basis.projectionDigest),
      field "atSequence" (count basis.atSequence)]

def MemberBinding.json (binding : MemberBinding) : Json :=
  .obj [field "identityDigest" (.str binding.identityDigest),
    field "initialRecordDigest" (.str binding.initialRecordDigest),
    field "configurationIdentityDigest" (.str binding.configurationIdentityDigest),
    field "profile" (word binding.profile.word),
    field "backendRevision" (.str binding.profile.backendRevision)]

def CallerSink.json : CallerSink → Json
  | .healthy => kindJson "healthy" []
  | .failed atSequence => kindJson "failed" [field "atSequence" (count atSequence)]

def MemberState.json : MemberState → Json
  | .reserved => kindJson "reserved" []
  | .starting => kindJson "starting" []
  | .active => kindJson "active" []
  | .stopping => kindJson "stopping" []
  | .retained => kindJson "retained" []
  | .cleanup_pending fault => kindJson "cleanup_pending" [field "fault" (word fault.word)]

def MemberAllocation.json : MemberAllocation → Json
  | .reserved slot subnet gateway =>
    kindJson "reserved" [field "slot" (count slot), field "subnet" (.str subnet),
      field "gateway" (.str gateway)]
  | .released previousSlot releaseSequence =>
    kindJson "released" [field "previousSlot" (count previousSlot),
      field "releaseSequence" (count releaseSequence)]

def Presence.json : Presence → Json
  | .not_entered provedAtSequence =>
    kindJson "not_entered" [field "provedAtSequence" (count provedAtSequence)]
  | .possibly_present createEffect returnedId =>
    kindJson "possibly_present" [field "createEffect" (count createEffect),
      field "returnedId" (nullable returnedId .str)]
  | .present id fingerprint inspectionDigest runtime =>
    kindJson "present" [field "id" (.str id), field "fingerprint" (.str fingerprint),
      field "inspectionDigest" (.str inspectionDigest), field "runtime" (word runtime.word)]
  | .absent reference fingerprint inspectedAtSequence noLateProducerAfter =>
    kindJson "absent" [field "reference" (.str reference),
      field "fingerprint" (nullable fingerprint .str),
      field "inspectedAtSequence" (count inspectedAtSequence),
      field "noLateProducerAfter" (count noLateProducerAfter)]

def ActionReceipt.json : ActionReceipt → Json
  | .not_applicable => kindJson "not_applicable" []
  | .not_entered => kindJson "not_entered" []
  | .pending effect => kindJson "pending" [field "effect" (count effect)]
  | .uncertain effect intentDigest =>
    kindJson "uncertain" [field "effect" (count effect), field "intentDigest" (.str intentDigest)]
  | .settled effect outcome receiptDigest atSequence =>
    kindJson "settled" [field "effect" (count effect), field "outcome" (word outcome.word),
      field "receiptDigest" (.str receiptDigest), field "atSequence" (count atSequence)]

def RoleLedger.json (ledger : RoleLedger) : Json :=
  .obj [field "role" (word ledger.role.word), field "presence" ledger.presence.json,
    field "create" ledger.create.json, field "start" ledger.start.json,
    field "controlClose" ledger.controlClose.json, field "delete" ledger.delete.json]

def NetworkFacts.json (network : NetworkFacts) : Json :=
  .obj [field "id" (.str network.id), field "name" (.str network.name),
    field "bridgeName" (.str network.bridgeName), field "subnet" (.str network.subnet),
    field "gateway" (.str network.gateway), field "identityDigest" (.str network.identityDigest)]

def BrokerFacts.json (broker : BrokerFacts) : Json :=
  .obj [field "id" (.str broker.id), field "endpointId" (.str broker.endpointId),
    field "mac" (.str broker.mac), field "address" (.str broker.address),
    field "prefixLength" (count 28), field "gateway" (.str broker.gateway)]

def VmLink.json (link : VmLink) : Json :=
  .obj [field "index" (count link.index), field "name" (.str link.name),
    field "mac" (.str link.mac), field "identityDigest" (.str link.identityDigest),
    field "stateDigest" (.str link.stateDigest)]

def ProjectionFacts.json (facts : ProjectionFacts) : Json :=
  .obj [field "network" (nullable facts.network NetworkFacts.json),
    field "observerId" (nullable facts.observerId .str),
    field "computeNoneId" (nullable facts.computeNoneId .str),
    field "filesystemNoneId" (nullable facts.filesystemNoneId .str),
    field "broker" (nullable facts.broker BrokerFacts.json),
    field "vmLinks" (.arr (facts.vmLinks.map VmLink.json)),
    field "engineDigest" (.str facts.engineDigest), field "vmDigest" (.str facts.vmDigest)]

def MemberProjection.json : MemberProjection → Json
  | .none => kindJson "none" []
  | .registered phase facts digest =>
    kindJson "registered" [field "recipe" (word "desktop-member-projection-v1"),
      field "phase" (word phase.word), field "facts" facts.json, field "digest" (.str digest)]

def WorkScope.json : WorkScope → Json
  | .not_entered => kindJson "not_entered" []
  | .owned token => kindJson "owned" [field "token" (.str token)]
  | .joined => kindJson "joined" []
  | .unavailable_after_recovery => kindJson "unavailable_after_recovery" []

def WorkOwnership.json (work : WorkOwnership) : Json :=
  .obj [field "initialization" work.initialization.json, field "primary" work.primary.json,
    field "writers" work.writers.json, field "export" work.export_.json]

/-- A member with or without the record of its checkpoint. -/
def CoordinatorMember.jsonWith (member : CoordinatorMember) (record : List (JsString × Json)) :
    Json :=
  .obj [field "memberId" (.str member.memberId),
    field "memberSequence" (count member.memberSequence), field "binding" member.binding.json,
    field "checkpoint" (.obj ([field "revision" (count member.checkpoint.revision),
      field "digest" (.str member.checkpoint.digest)] ++ record ++
      [field "callerSink" member.checkpoint.callerSink.json])),
    field "state" member.state.json, field "allocation" member.allocation.json,
    field "roles" (.arr (member.roles.map RoleLedger.json)),
    field "projection" member.projection.json, field "work" member.work.json]

def CoordinatorMember.json (member : CoordinatorMember) : Json :=
  member.jsonWith [field "record" member.checkpoint.record.json]

/-- A member apart from its record. -/
def CoordinatorMember.metadata (member : CoordinatorMember) : Json := member.jsonWith []

def QueuedEffect.fields (effect : QueuedEffect) : List (JsString × Json) :=
  [field "effectSequence" (count effect.effectSequence), field "memberId" (.str effect.memberId),
    field "role" (word effect.role.word), field "action" (word effect.action.word),
    field "bindingDigest" (.str effect.bindingDigest),
    field "requestedAtSequence" (count effect.requestedAtSequence)]

def QueuedEffect.json (effect : QueuedEffect) : Json := .obj effect.fields

def EffectResult.json : EffectResult → Json
  | .unobserved => kindJson "unobserved" []
  | .returned id => kindJson "returned" [field "id" (.str id)]

def EnteredEffect.json (effect : EnteredEffect) : Json :=
  .obj (effect.toQueuedEffect.fields ++
    [field "armedAtSequence" (count effect.armedAtSequence),
      field "checkpointRevision" (count effect.checkpointRevision),
      field "checkpointDigest" (.str effect.checkpointDigest),
      field "reference" (.str effect.reference),
      field "expectedBeforeDigest" (.str effect.expectedBeforeDigest),
      field "transitionRecipe" (.str effect.transitionRecipe),
      field "expectedInputDigest" (.str effect.expectedInputDigest),
      field "result" effect.result.json])

/-- `tombstoneWire`. -/
def MemberTombstone.json (tombstone : MemberTombstone) : Json :=
  .arr [.str tombstone.memberId, count tombstone.memberSequence, .str tombstone.bindingDigest,
    .str tombstone.checkpointDigest, count tombstone.retiredAtSequence]

/-- A dirty generation apart from its members, its effects and its tombstones. -/
def DirtyGeneration.envelopeFields (generation : DirtyGeneration) : List (JsString × Json) :=
  [field "kind" (word "dirty"), field "identity" generation.identity.json,
    field "state" generation.state.json, field "basis" generation.basis.json,
    field "nextMemberSequence" (count generation.nextMemberSequence),
    field "nextEffectSequence" (count generation.nextEffectSequence)]

def DirtyGeneration.json (generation : DirtyGeneration) : Json :=
  .obj (generation.envelopeFields ++
    [field "members" (.arr (generation.members.map CoordinatorMember.json)),
      field "queue" (.arr (generation.queue.map QueuedEffect.json)),
      field "entered" (nullable generation.entered EnteredEffect.json),
      field "retired" (.arr (generation.retired.map MemberTombstone.json))])

def CleanGeneration.json (generation : CleanGeneration) : Json :=
  kindJson "clean" [field "generationOrdinal" (count generation.generationOrdinal),
    field "lastGenerationId" (nullable generation.lastGenerationId .str),
    field "settledAtSequence" (count generation.settledAtSequence)]

def Generation.json : Generation → Json
  | .clean generation => generation.json
  | .dirty generation => generation.json

def CoordinatorSnapshot.jsonWith (snapshot : CoordinatorSnapshot) (generation : Json) : Json :=
  .obj [field "format" (word "agenai.docker-desktop-coordinator.v1"),
    field "authorityId" (.str snapshot.authorityId), field "engineKey" (.str snapshot.engineKey),
    field "daemonId" (.str snapshot.daemonId), field "sequence" (count snapshot.sequence),
    field "previousDigest" (nullable snapshot.previousDigest .str), field "generation" generation]

/-- `wireSnapshot`. -/
def CoordinatorSnapshot.json (snapshot : CoordinatorSnapshot) : Json :=
  snapshot.jsonWith snapshot.generation.json

/-- `bytes`. -/
def bytes (value : Json) : Nat := Json.jsonBytes value

/-! ## The schema -/

def GenerationIdentity.shape (identity : GenerationIdentity) : Bool :=
  isUuid identity.generationId && isSequence identity.ordinal &&
    isDigest identity.coordinationPolicyDigest && isDigest identity.engineBindingDigest &&
    isDigest identity.endpointBindingDigest && isDigest identity.hostPreparationDigest &&
    isDigest identity.nativeAssetDigest

def GenerationState.shape : GenerationState → Bool
  | .fenced _ atSequence => isSequence atSequence
  | .cleanup_only originalStateDigest => isDigest originalStateDigest
  | _ => true

def AuthorityBasis.shape : AuthorityBasis → Bool
  | .host_engine_only basis =>
    isDigest basis.hostDigest && isDigest basis.engineDigest &&
      isDigest basis.exclusionDigest && isSequence basis.atSequence
  | .full basis =>
    isDigest basis.hostDigest && isDigest basis.engineDigest && isDigest basis.vmDigest &&
      isDigest basis.externalEngineDigest && isDigest basis.externalVmDigest &&
      isDigest basis.exclusionDigest && isDigest basis.projectionDigest &&
      isSequence basis.atSequence

def MemberBinding.shape (binding : MemberBinding) : Bool :=
  isDigest binding.identityDigest && isDigest binding.initialRecordDigest &&
    isDigest binding.configurationIdentityDigest

def CallerSink.shape : CallerSink → Bool
  | .healthy => true
  | .failed atSequence => isSequence atSequence

/-- The record passes `parseSandboxRecoveryRecord`. -/
def Checkpoint.shape (checkpoint : Checkpoint) : Bool :=
  isSequence checkpoint.revision && isDigest checkpoint.digest &&
    (parseSandboxRecoveryRecord checkpoint.record).isOk && checkpoint.callerSink.shape

def MemberAllocation.shape : MemberAllocation → Bool
  | .reserved slot subnet gateway =>
    decide (slot ≤ COORDINATOR_JOURNAL_LIMITS.subnetSlots - 1) && isSubnet subnet && isIpv4 gateway
  | .released previousSlot releaseSequence =>
    decide (previousSlot ≤ COORDINATOR_JOURNAL_LIMITS.subnetSlots - 1) &&
      isSequence releaseSequence

def Presence.shape : Presence → Bool
  | .not_entered provedAtSequence => isSequence provedAtSequence
  | .possibly_present createEffect returnedId => isSequence createEffect && returnedId.all isId
  | .present id fingerprint inspectionDigest _ =>
    isId id && isDigest fingerprint && isDigest inspectionDigest
  | .absent reference fingerprint inspectedAtSequence noLateProducerAfter =>
    isId reference && fingerprint.all isDigest && isSequence inspectedAtSequence &&
      isSequence noLateProducerAfter

def ActionReceipt.shape : ActionReceipt → Bool
  | .not_applicable => true
  | .not_entered => true
  | .pending effect => isSequence effect
  | .uncertain effect intentDigest => isSequence effect && isDigest intentDigest
  | .settled effect _ receiptDigest atSequence =>
    isSequence effect && isDigest receiptDigest && isSequence atSequence

def RoleLedger.shape (ledger : RoleLedger) : Bool :=
  ledger.presence.shape && ledger.cells.all ActionReceipt.shape

def NetworkFacts.shape (network : NetworkFacts) : Bool :=
  isId network.id && isId network.name && isId network.bridgeName && isSubnet network.subnet &&
    isIpv4 network.gateway && isDigest network.identityDigest

def BrokerFacts.shape (broker : BrokerFacts) : Bool :=
  isId broker.id && isId broker.endpointId && isMac broker.mac && isIpv4 broker.address &&
    isIpv4 broker.gateway

def VmLink.shape (link : VmLink) : Bool :=
  decide (1 ≤ link.index) && isSequence link.index && isId link.name && isMac link.mac &&
    isDigest link.identityDigest && isDigest link.stateDigest

def ProjectionFacts.shape (facts : ProjectionFacts) : Bool :=
  facts.network.all NetworkFacts.shape && facts.observerId.all isId &&
    facts.computeNoneId.all isId && facts.filesystemNoneId.all isId &&
    facts.broker.all BrokerFacts.shape &&
    decide (facts.vmLinks.length ≤ COORDINATOR_JOURNAL_LIMITS.vmLinks) &&
    facts.vmLinks.all VmLink.shape && isDigest facts.engineDigest && isDigest facts.vmDigest

def MemberProjection.shape : MemberProjection → Bool
  | .none => true
  | .registered _ facts digest => facts.shape && isDigest digest

def WorkScope.shape : WorkScope → Bool
  | .owned token => isUuid token
  | _ => true

def CoordinatorMember.shape (member : CoordinatorMember) : Bool :=
  isUuid member.memberId && isSequence member.memberSequence && member.binding.shape &&
    member.checkpoint.shape && member.allocation.shape &&
    decide (1 ≤ member.roles.length ∧
      member.roles.length ≤ COORDINATOR_JOURNAL_LIMITS.resourceRoles) &&
    member.roles.all RoleLedger.shape && member.projection.shape &&
    member.work.scopes.all WorkScope.shape

def QueuedEffect.shape (effect : QueuedEffect) : Bool :=
  isSequence effect.effectSequence && isUuid effect.memberId && isDigest effect.bindingDigest &&
    isSequence effect.requestedAtSequence

def EffectResult.shape : EffectResult → Bool
  | .unobserved => true
  | .returned id => isId id

/-- The recipe names a resource role and an action that applies to it. -/
def isTransitionRecipe (value : JsString) : Bool :=
  ResourceRole.all.any fun role => ResourceAction.all.any fun action =>
    applicableAction role action && value == transitionRecipeOf (.resource role) (.resource action)

def EnteredEffect.shape (effect : EnteredEffect) : Bool :=
  effect.toQueuedEffect.shape && isSequence effect.armedAtSequence &&
    isSequence effect.checkpointRevision && isDigest effect.checkpointDigest &&
    isId effect.reference && isDigest effect.expectedBeforeDigest &&
    isTransitionRecipe effect.transitionRecipe && isDigest effect.expectedInputDigest &&
    effect.result.shape

def MemberTombstone.shape (tombstone : MemberTombstone) : Bool :=
  isUuid tombstone.memberId && isSequence tombstone.memberSequence &&
    isDigest tombstone.bindingDigest && isDigest tombstone.checkpointDigest &&
    isSequence tombstone.retiredAtSequence

def DirtyGeneration.shape (generation : DirtyGeneration) : Bool :=
  generation.identity.shape && generation.state.shape && generation.basis.shape &&
    isSequence generation.nextMemberSequence && isSequence generation.nextEffectSequence &&
    decide (generation.members.length ≤ COORDINATOR_JOURNAL_LIMITS.members) &&
    generation.members.all CoordinatorMember.shape &&
    decide (generation.queue.length ≤ COORDINATOR_JOURNAL_LIMITS.queue) &&
    generation.queue.all QueuedEffect.shape && generation.entered.all EnteredEffect.shape &&
    decide (generation.retired.length ≤ COORDINATOR_JOURNAL_LIMITS.retirements) &&
    generation.retired.all MemberTombstone.shape

def Generation.shape : Generation → Bool
  | .clean generation =>
    isSequence generation.generationOrdinal && generation.lastGenerationId.all isUuid &&
      isSequence generation.settledAtSequence
  | .dirty generation => generation.shape

/-- `snapshotSchema`. -/
def CoordinatorSnapshot.shape (snapshot : CoordinatorSnapshot) : Bool :=
  isUuid snapshot.authorityId && isDigest snapshot.engineKey && isId snapshot.daemonId &&
    isSequence snapshot.sequence && snapshot.previousDigest.all isDigest &&
    snapshot.generation.shape

end AgentSdk.Journal
