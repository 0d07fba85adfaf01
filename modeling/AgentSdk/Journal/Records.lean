import AgentSdk.Journal.Recovery

/-!
# The records of the coordinator journal

A snapshot of the journal: the generation of desktop members, their role ledgers,
the queue of effects and the effect that owns the physical slot.  Literal fields
(the format, the coordination revision, a recipe name) are fixed by the types;
numbers are natural, and the schema checks that they are safe integers.

Each record has its JSON form, with the members in the order of the schema.  The
text of a snapshot is what its digest and every byte bound are about.
-/

namespace AgentSdk.Journal

open AgentSdk.Text

namespace COORDINATOR_JOURNAL_LIMITS

def framedBytes : Nat := 1048576
def nativeHeaderBytes : Nat := 148
def envelopeBytes : Nat := 16384
def recordBytes : Nat := 65536
def memberMetadataBytes : Nat := 32768
def effectBytes : Nat := 4096
def tombstoneBytes : Nat := 256
def members : Nat := 4
def retirements : Nat := 256
def queue : Nat := 16
def ordinaryQueue : Nat := 12
def cleanupEffectReserve : Nat := 64
def idBytes : Nat := 256
def resourceRoles : Nat := 9
def vmLinks : Nat := 3
def subnetSlots : Nat := 16

end COORDINATOR_JOURNAL_LIMITS

/-! ## Scalars -/

def isSequence (n : Nat) : Bool := decide (n ≤ MAX_SAFE_INTEGER)

/-- Version 4, in lower case. -/
def isUuid (value : JsString) : Bool :=
  matchesClasses
    (List.replicate 8 isLowerHex ++ [(· == 45)] ++ List.replicate 4 isLowerHex ++
      [(· == 45), (· == 52)] ++ List.replicate 3 isLowerHex ++
      [(· == 45), fun u => u == 56 || u == 57 || u == 97 || u == 98] ++
      List.replicate 3 isLowerHex ++ [(· == 45)] ++ List.replicate 12 isLowerHex) value

def isId (value : JsString) : Bool :=
  decide (1 ≤ value.length) && utf8Within value COORDINATOR_JOURNAL_LIMITS.idBytes

/-- The value of a decimal without leading zeros of at most three digits. -/
def octet? (part : JsString) : Option Nat :=
  if decide (1 ≤ part.length ∧ part.length ≤ 3) && part.all isDigit &&
      (part.length == 1 || part.head? != some 48) then
    some (part.foldl (fun value u => value * 10 + (u.toNat - 48)) 0)
  else none

def isIpv4 (value : JsString) : Bool :=
  let parts := value.splitOn 46
  parts.length == 4 && parts.all fun part => (octet? part).any fun n => decide (n ≤ 255)

def isMac (value : JsString) : Bool :=
  let parts := value.splitOn 58
  parts.length == 6 && parts.all (matchesClasses [isLowerHex, isLowerHex])

/-- `10.240.0.` and a number, the addresses of one allocation. -/
def subnetOf (slot : Nat) : JsString := js "10.240.0." ++ natDecimal (slot * 16) ++ js "/28"

def gatewayOf (slot : Nat) : JsString := js "10.240.0." ++ natDecimal (slot * 16 + 1)

def isSubnet (value : JsString) : Bool :=
  (List.range COORDINATOR_JOURNAL_LIMITS.subnetSlots).any fun slot => value == subnetOf slot

/-! ## Actions -/

inductive ResourceAction
  | create | start | control_close | delete
  deriving DecidableEq, Repr

def ResourceAction.all : List ResourceAction := [.create, .start, .control_close, .delete]

def ResourceAction.word : ResourceAction → String
  | .create => "create"
  | .start => "start"
  | .control_close => "control_close"
  | .delete => "delete"

/-- The role of an effect: a resource role or the member itself. -/
inductive EffectRole
  | resource (role : ResourceRole)
  | member
  deriving DecidableEq, Repr

def EffectRole.word : EffectRole → String
  | .resource role => role.word
  | .member => "member"

inductive EffectAction
  | resource (action : ResourceAction)
  | member_retire
  deriving DecidableEq, Repr

def EffectAction.word : EffectAction → String
  | .resource action => action.word
  | .member_retire => "member_retire"

/-- `create` and `start`. -/
def EffectAction.isGrowth : EffectAction → Bool
  | .resource .create => true
  | .resource .start => true
  | _ => false

def applicableAction (role : ResourceRole) : ResourceAction → Bool
  | .create => true
  | .delete => true
  | .start =>
    [ResourceRole.compute, .filesystem, .route_observer, .egress_broker, .egress_relay].elem role
  | .control_close =>
    [ResourceRole.filesystem, .route_observer, .egress_broker, .egress_relay].elem role

inductive ActionOutcome
  | not_dispatched | present | started | control_joined | absent
  deriving DecidableEq, Repr

def ActionOutcome.word : ActionOutcome → String
  | .not_dispatched => "not_dispatched"
  | .present => "present"
  | .started => "started"
  | .control_joined => "control_joined"
  | .absent => "absent"

inductive ActionReceipt
  | not_applicable
  | not_entered
  | pending (effect : Nat)
  | uncertain (effect : Nat) (intentDigest : JsString)
  | settled (effect : Nat) (outcome : ActionOutcome) (receiptDigest : JsString) (atSequence : Nat)
  deriving DecidableEq, Repr

inductive Runtime
  | not_applicable | created | running | exited
  deriving DecidableEq, Repr

def Runtime.word : Runtime → String
  | .not_applicable => "not_applicable"
  | .created => "created"
  | .running => "running"
  | .exited => "exited"

inductive Presence
  | not_entered (provedAtSequence : Nat)
  | possibly_present (createEffect : Nat) (returnedId : Option JsString)
  | present (id fingerprint inspectionDigest : JsString) (runtime : Runtime)
  | absent (reference : JsString) (fingerprint : Option JsString)
      (inspectedAtSequence noLateProducerAfter : Nat)
  deriving DecidableEq, Repr

structure RoleLedger where
  role : ResourceRole
  presence : Presence
  create : ActionReceipt
  start : ActionReceipt
  controlClose : ActionReceipt
  delete : ActionReceipt
  deriving DecidableEq, Repr

/-- `ledger[actionCell(action)]`. -/
def RoleLedger.cell (ledger : RoleLedger) : ResourceAction → ActionReceipt
  | .create => ledger.create
  | .start => ledger.start
  | .control_close => ledger.controlClose
  | .delete => ledger.delete

/-- The ledger with one of its cells replaced. -/
def RoleLedger.setCell (ledger : RoleLedger) (receipt : ActionReceipt) :
    ResourceAction → RoleLedger
  | .create => { ledger with create := receipt }
  | .start => { ledger with start := receipt }
  | .control_close => { ledger with controlClose := receipt }
  | .delete => { ledger with delete := receipt }

def RoleLedger.cells (ledger : RoleLedger) : List ActionReceipt :=
  [ledger.create, ledger.start, ledger.controlClose, ledger.delete]

/-! ## Members -/

inductive CoordinatorFault
  | storage | exclusion | endpoint | engine | host | vm | proxy | observation_timeout
  | effect_timeout | unexpected_topology | no_observer | sequence_exhausted | capacity
  | member_binding | unknown_outcome
  deriving DecidableEq, Repr

def CoordinatorFault.word : CoordinatorFault → String
  | .storage => "storage"
  | .exclusion => "exclusion"
  | .endpoint => "endpoint"
  | .engine => "engine"
  | .host => "host"
  | .vm => "vm"
  | .proxy => "proxy"
  | .observation_timeout => "observation_timeout"
  | .effect_timeout => "effect_timeout"
  | .unexpected_topology => "unexpected_topology"
  | .no_observer => "no_observer"
  | .sequence_exhausted => "sequence_exhausted"
  | .capacity => "capacity"
  | .member_binding => "member_binding"
  | .unknown_outcome => "unknown_outcome"

inductive Profile
  | native_arm64 | rosetta_amd64
  deriving DecidableEq, Repr

def Profile.word : Profile → String
  | .native_arm64 => "desktop-apple-virtualization-native-arm64"
  | .rosetta_amd64 => "desktop-apple-virtualization-rosetta-amd64"

/-- The backend revision that the schema ties to a profile. -/
def Profile.backendRevision : Profile → JsString
  | .native_arm64 => js "engine-1.52-v7-desktop-apple-virtualization-native-arm64"
  | .rosetta_amd64 => js "engine-1.52-v7-desktop-apple-virtualization-rosetta-amd64"

structure MemberBinding where
  identityDigest : JsString
  initialRecordDigest : JsString
  configurationIdentityDigest : JsString
  profile : Profile
  deriving DecidableEq, Repr

inductive CallerSink
  | healthy
  | failed (atSequence : Nat)
  deriving DecidableEq, Repr

def CallerSink.isFailed : CallerSink → Bool
  | .failed _ => true
  | .healthy => false

structure Checkpoint where
  revision : Nat
  digest : JsString
  record : SandboxRecoveryRecord
  callerSink : CallerSink
  deriving DecidableEq, Repr

inductive MemberState
  | reserved | starting | active | stopping | retained
  | cleanup_pending (fault : CoordinatorFault)
  deriving DecidableEq, Repr

/-- Member states in the order of a life: the index grows with every move. -/
def MemberState.stage : MemberState → Nat
  | .reserved => 0
  | .starting => 1
  | .active => 2
  | .stopping => 3
  | .retained => 4
  | .cleanup_pending _ => 5

inductive MemberAllocation
  | reserved (slot : Nat) (subnet gateway : JsString)
  | released (previousSlot releaseSequence : Nat)
  deriving DecidableEq, Repr

structure NetworkFacts where
  id : JsString
  name : JsString
  bridgeName : JsString
  subnet : JsString
  gateway : JsString
  identityDigest : JsString
  deriving DecidableEq, Repr

structure BrokerFacts where
  id : JsString
  endpointId : JsString
  mac : JsString
  address : JsString
  gateway : JsString
  deriving DecidableEq, Repr

structure VmLink where
  index : Nat
  name : JsString
  mac : JsString
  identityDigest : JsString
  stateDigest : JsString
  deriving DecidableEq, Repr

structure ProjectionFacts where
  network : Option NetworkFacts
  observerId : Option JsString
  computeNoneId : Option JsString
  filesystemNoneId : Option JsString
  broker : Option BrokerFacts
  vmLinks : List VmLink
  engineDigest : JsString
  vmDigest : JsString
  deriving DecidableEq, Repr

inductive ProjectionPhase
  | observer_only | bridge_empty | broker_created | broker_active | started | retiring
  | retained_empty
  deriving DecidableEq, Repr

def ProjectionPhase.word : ProjectionPhase → String
  | .observer_only => "observer_only"
  | .bridge_empty => "bridge_empty"
  | .broker_created => "broker_created"
  | .broker_active => "broker_active"
  | .started => "started"
  | .retiring => "retiring"
  | .retained_empty => "retained_empty"

inductive MemberProjection
  | none
  | registered (phase : ProjectionPhase) (facts : ProjectionFacts) (digest : JsString)
  deriving DecidableEq, Repr

inductive WorkScope
  | not_entered
  | owned (token : JsString)
  | joined
  | unavailable_after_recovery
  deriving DecidableEq, Repr

inductive ScopeName
  | initialization | primary | writers | export_
  deriving DecidableEq, Repr

structure WorkOwnership where
  initialization : WorkScope
  primary : WorkScope
  writers : WorkScope
  export_ : WorkScope
  deriving DecidableEq, Repr

namespace WorkOwnership

def get (work : WorkOwnership) : ScopeName → WorkScope
  | .initialization => work.initialization
  | .primary => work.primary
  | .writers => work.writers
  | .export_ => work.export_

def set (work : WorkOwnership) (scope : WorkScope) : ScopeName → WorkOwnership
  | .initialization => { work with initialization := scope }
  | .primary => { work with primary := scope }
  | .writers => { work with writers := scope }
  | .export_ => { work with export_ := scope }

/-- `Object.values(work)`. -/
def scopes (work : WorkOwnership) : List WorkScope :=
  [work.initialization, work.primary, work.writers, work.export_]

def all (scope : WorkScope) : WorkOwnership := ⟨scope, scope, scope, scope⟩

end WorkOwnership

structure CoordinatorMember where
  memberId : JsString
  memberSequence : Nat
  binding : MemberBinding
  checkpoint : Checkpoint
  state : MemberState
  allocation : MemberAllocation
  roles : List RoleLedger
  projection : MemberProjection
  work : WorkOwnership
  deriving DecidableEq, Repr

/-- `member.roles.find`. -/
def CoordinatorMember.ledger? (member : CoordinatorMember) (role : ResourceRole) :
    Option RoleLedger :=
  member.roles.find? fun ledger => decide (ledger.role = role)

/-! ## Effects -/

structure QueuedEffect where
  effectSequence : Nat
  memberId : JsString
  role : EffectRole
  action : EffectAction
  bindingDigest : JsString
  requestedAtSequence : Nat
  deriving DecidableEq, Repr

/-- The member, role and action that an effect is about. -/
structure EffectOwner where
  memberId : JsString
  role : EffectRole
  action : EffectAction
  deriving DecidableEq, Repr

def QueuedEffect.owner (effect : QueuedEffect) : EffectOwner :=
  ⟨effect.memberId, effect.role, effect.action⟩

inductive EffectResult
  | unobserved
  | returned (id : JsString)
  deriving DecidableEq, Repr

def EffectResult.returnedId : EffectResult → Option JsString
  | .unobserved => none
  | .returned id => some id

structure EnteredEffect extends QueuedEffect where
  armedAtSequence : Nat
  checkpointRevision : Nat
  checkpointDigest : JsString
  reference : JsString
  expectedBeforeDigest : JsString
  transitionRecipe : JsString
  expectedInputDigest : JsString
  result : EffectResult
  deriving DecidableEq, Repr

def transitionRecipeOf (role : EffectRole) (action : EffectAction) : JsString :=
  js "desktop-member-projection-v1/" ++ js role.word ++ js "/" ++ js action.word

/-! ## Generations -/

structure GenerationIdentity where
  generationId : JsString
  ordinal : Nat
  coordinationPolicyDigest : JsString
  engineBindingDigest : JsString
  endpointBindingDigest : JsString
  hostPreparationDigest : JsString
  nativeAssetDigest : JsString
  deriving DecidableEq, Repr

inductive GenerationState
  | awaiting_first_observer | open_ | quiescent | admission_closed
  | fenced (fault : CoordinatorFault) (atSequence : Nat)
  | cleanup_only (originalStateDigest : JsString)
  deriving DecidableEq, Repr

def GenerationState.isFenced : GenerationState → Bool
  | .fenced _ _ => true
  | _ => false

def GenerationState.isCleanupOnly : GenerationState → Bool
  | .cleanup_only _ => true
  | _ => false

/-- What a basis of either kind records. -/
structure HostBasis where
  hostDigest : JsString
  engineDigest : JsString
  exclusionDigest : JsString
  atSequence : Nat
  deriving DecidableEq, Repr

structure FullBasis where
  hostDigest : JsString
  engineDigest : JsString
  vmDigest : JsString
  externalEngineDigest : JsString
  externalVmDigest : JsString
  exclusionDigest : JsString
  projectionDigest : JsString
  atSequence : Nat
  deriving DecidableEq, Repr

inductive AuthorityBasis
  | host_engine_only (basis : HostBasis)
  | full (basis : FullBasis)
  deriving DecidableEq, Repr

def AuthorityBasis.atSequence : AuthorityBasis → Nat
  | .host_engine_only basis => basis.atSequence
  | .full basis => basis.atSequence

def AuthorityBasis.isFull : AuthorityBasis → Bool
  | .full _ => true
  | .host_engine_only _ => false

structure MemberTombstone where
  memberId : JsString
  memberSequence : Nat
  bindingDigest : JsString
  checkpointDigest : JsString
  retiredAtSequence : Nat
  deriving DecidableEq, Repr

structure DirtyGeneration where
  identity : GenerationIdentity
  state : GenerationState
  basis : AuthorityBasis
  nextMemberSequence : Nat
  nextEffectSequence : Nat
  members : List CoordinatorMember
  queue : List QueuedEffect
  entered : Option EnteredEffect
  retired : List MemberTombstone
  deriving DecidableEq, Repr

structure CleanGeneration where
  generationOrdinal : Nat
  lastGenerationId : Option JsString
  settledAtSequence : Nat
  deriving DecidableEq, Repr

inductive Generation
  | clean (generation : CleanGeneration)
  | dirty (generation : DirtyGeneration)
  deriving DecidableEq, Repr

structure CoordinatorSnapshot where
  authorityId : JsString
  engineKey : JsString
  daemonId : JsString
  sequence : Nat
  previousDigest : Option JsString
  generation : Generation
  deriving DecidableEq, Repr

/-- `generation.members.find`. -/
def DirtyGeneration.member? (generation : DirtyGeneration) (memberId : JsString) :
    Option CoordinatorMember :=
  generation.members.find? fun member => decide (member.memberId = memberId)

end AgentSdk.Journal
