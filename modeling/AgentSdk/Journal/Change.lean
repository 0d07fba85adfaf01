import AgentSdk.Journal.Plans
import AgentSdk.Journal.Valid

/-!
# What one accepted transition changes

A plan that was accepted changes the generation in one of ten ways.  `Change`
lists them with the guards that were passed; it is read off the planners once,
and every invariant of the journal is proved from it.  A list of acts names what
the transition did to the outside: a member that was registered or retired, an
effect that was numbered or armed, an identity that was returned, a recovery.

## Main results

* `planDirtyTransition_change` — every accepted transition is a `Change`, closes
  the generation or leaves the snapshot as it is.
-/

namespace AgentSdk.Journal

open AgentSdk.Text AgentSdk.Outcome

/-! ## Commits -/

/-- The snapshot that a commit of a generation leads to. -/
structure Committed (snapshot : CoordinatorSnapshot) (generation : Generation)
    (next : CoordinatorSnapshot) : Prop where
  generation : next.generation = generation
  sequence : next.sequence = snapshot.sequence + 1
  authorityId : next.authorityId = snapshot.authorityId
  daemonId : next.daemonId = snapshot.daemonId
  valid : next.Valid

theorem commit_ok {snapshot next : CoordinatorSnapshot} {generation : Generation}
    (h : commit snapshot generation = .ok next) : Committed snapshot generation next := by
  unfold commit at h
  obtain ⟨-, h⟩ := failIf_bind_eq_ok.1 h
  obtain ⟨digest, -, h⟩ := bind_eq_ok.1 h
  simp only at h
  split at h
  · rename_i parsed hparsed
    cases h
    obtain ⟨text, -, hparsed⟩ := bind_eq_ok.1 hparsed
    obtain ⟨rfl, hvalid⟩ := parseCoordinatorSnapshot_ok hparsed
    exact ⟨rfl, rfl, rfl, rfl, hvalid⟩
  · cases h

theorem commitDirty_ok {snapshot : CoordinatorSnapshot} {generation : DirtyGeneration}
    {plan : CoordinatorPlan} (h : commitDirty snapshot generation = .ok plan) :
    ∃ next, plan = .commit next ∧ Committed snapshot (.dirty generation) next := by
  unfold commitDirty at h
  obtain ⟨next, hcommit, h⟩ := bind_eq_ok.1 h
  cases h
  exact ⟨next, rfl, commit_ok hcommit⟩

theorem commitArmed_ok {snapshot : CoordinatorSnapshot} {generation : DirtyGeneration}
    {entered : EnteredEffect} (hentered : generation.entered = some entered)
    {plan : CoordinatorPlan} (h : commitArmed snapshot generation = .ok plan) :
    ∃ next, plan = .arm next entered ∧ Committed snapshot (.dirty generation) next := by
  unfold commitArmed at h
  obtain ⟨next, hcommit, h⟩ := bind_eq_ok.1 h
  have hnext := commit_ok hcommit
  rw [hnext.generation] at h
  obtain ⟨identity, state, basis, nextMember, nextEffect, members, queue, slot, retired⟩ := generation
  subst hentered
  cases h
  exact ⟨next, rfl, hnext⟩

/-! ## Lookups -/

theorem member?_spec {generation : DirtyGeneration} {memberId : JsString}
    {member : CoordinatorMember} (h : generation.member? memberId = some member) :
    member ∈ generation.members ∧ member.memberId = memberId :=
  ⟨List.mem_of_find?_eq_some h, by simpa using List.find?_some h⟩

theorem ledger?_spec {member : CoordinatorMember} {role : ResourceRole} {ledger : RoleLedger}
    (h : member.ledger? role = some ledger) : ledger ∈ member.roles ∧ ledger.role = role :=
  ⟨List.mem_of_find?_eq_some h, by simpa using List.find?_some h⟩

theorem member?_replaceMember (generation : DirtyGeneration) (member : CoordinatorMember)
    (memberId : JsString) :
    (replaceMember generation member).member? memberId =
      if memberId = member.memberId then (generation.member? memberId).map fun _ => member
      else generation.member? memberId := by
  simp only [DirtyGeneration.member?, replaceMember]
  induction generation.members with
  | nil => simp
  | cons item items ih =>
    by_cases hitem : item.memberId = member.memberId
    · by_cases hid : memberId = member.memberId
      · simp [hitem, hid]
      · have hne : ¬member.memberId = memberId := fun h => hid h.symm
        rw [if_neg hid] at ih ⊢
        simp [hitem, hne, ih]
    · by_cases hid : memberId = member.memberId
      · have hne : ¬item.memberId = memberId := fun h => hitem (h.trans hid)
        rw [if_pos hid] at ih ⊢
        simp [hitem, hne, ih]
      · rw [if_neg hid] at ih ⊢
        simp only [List.map_cons, hitem, if_false, List.find?_cons]
        split
        · rfl
        · exact ih

theorem ledger?_changedRole (member : CoordinatorMember) (role : ResourceRole)
    {update : RoleLedger → RoleLedger} (hupdate : ∀ ledger, (update ledger).role = ledger.role)
    (other : ResourceRole) :
    (changedRole member role update).ledger? other =
      if other = role then (member.ledger? role).map update else member.ledger? other := by
  simp only [CoordinatorMember.ledger?, changedRole]
  induction member.roles with
  | nil => simp
  | cons ledger ledgers ih =>
    by_cases hledger : ledger.role = role
    · by_cases hother : other = role
      · simp [hledger, hother, hupdate]
      · have hne : ¬role = other := fun h => hother h.symm
        rw [if_neg hother] at ih ⊢
        simp [hledger, hne, ih, hupdate]
    · by_cases hother : other = role
      · subst hother
        rw [if_pos rfl] at ih ⊢
        simp [hledger, ih]
      · rw [if_neg hother] at ih ⊢
        simp only [List.map_cons, hledger, if_false, List.find?_cons]
        split
        · rfl
        · exact ih

@[simp] theorem setCell_role (ledger : RoleLedger) (receipt : ActionReceipt)
    (action : ResourceAction) : (ledger.setCell receipt action).role = ledger.role := by
  cases action <;> rfl

@[simp] theorem setCell_presence (ledger : RoleLedger) (receipt : ActionReceipt)
    (action : ResourceAction) : (ledger.setCell receipt action).presence = ledger.presence := by
  cases action <;> rfl

@[simp] theorem cell_setCell (ledger : RoleLedger) (receipt : ActionReceipt)
    (action other : ResourceAction) :
    (ledger.setCell receipt action).cell other =
      if other = action then receipt else ledger.cell other := by
  cases action <;> cases other <;> rfl

@[simp] theorem cell_withPresence (ledger : RoleLedger) (presence : Presence)
    (action : ResourceAction) : ({ ledger with presence } : RoleLedger).cell action =
      ledger.cell action := by
  cases action <;> rfl

/-! ## Continuations -/

/-- A member whose checkpoint moved on: what it is bound to stays, and every
resource keeps its name and an identity it has acquired. -/
structure Continued (previous next : CoordinatorMember) (mode : CheckpointMode) : Prop where
  rest : next = { previous with checkpoint :=
    { next.checkpoint with callerSink := previous.checkpoint.callerSink } }
  resource : ∀ role resource, previous.checkpoint.record.resource? role = some resource →
    ∃ later, next.checkpoint.record.resource? role = some later ∧ later.name = resource.name ∧
      resource.identity.continues later.identity mode previous.checkpoint.callerSink.isFailed = true
  authority : ∀ identity, previous.checkpoint.record.authority = .verified identity →
    next.checkpoint.record.authority = .verified identity
  operation : next.checkpoint.record.operationId = previous.checkpoint.record.operationId

theorem SandboxResourceIdentity.continues_self (identity : SandboxResourceIdentity)
    (mode : CheckpointMode) (cleanupOnly : Bool) :
    identity.continues identity mode cleanupOnly = true := by
  cases identity <;> simp [SandboxResourceIdentity.continues, SandboxResourceIdentity.isIdentified]

theorem Continued.refl (member : CoordinatorMember) (mode : CheckpointMode) :
    Continued member member mode :=
  ⟨rfl, fun _ resource h => ⟨resource, h, rfl, SandboxResourceIdentity.continues_self ..⟩,
    fun _ h => h, rfl⟩

theorem continuation_ok {previous next : CoordinatorMember} {record : SandboxRecoveryRecord}
    {mode : CheckpointMode} (h : continuation previous record mode = .ok next) :
    Continued previous next mode := by
  unfold continuation at h
  obtain ⟨-, h⟩ := failIf_bind_eq_ok.1 h
  obtain ⟨-, h⟩ := failIf_bind_eq_ok.1 h
  obtain ⟨hsame, h⟩ := failIf_bind_eq_ok.1 h
  obtain ⟨⟨⟩, hresources, h⟩ := bind_eq_ok.1 h
  obtain ⟨digest, -, h⟩ := bind_eq_ok.1 h
  split at h
  · cases h
    exact .refl previous mode
  · obtain ⟨-, h⟩ := failIf_bind_eq_ok.1 h
    cases h
    simp only [not_or, not_and, not_not] at hsame
    refine ⟨rfl, fun role resource hresource => ?_, fun identity hauthority => ?_, hsame.2.2.2.1⟩
    · obtain ⟨hmem, hrole⟩ := SandboxRecoveryRecord.resource?_spec hresource
      have hcheck := failIf_eq_ok.1 (forM_eq_ok.1 hresources resource hmem)
      rw [hrole] at hcheck
      cases hlater : record.resource? role with
      | none => simp [hlater] at hcheck
      | some later =>
        simp only [hlater, Bool.or_eq_true, bne_iff_ne, Bool.not_eq_true', not_or, not_not,
          Bool.not_eq_false] at hcheck
        exact ⟨later, rfl, hcheck.1, hcheck.2⟩
    · rw [← hauthority]
      exact hsame.2.2.2.2.2.2.2.2.2 (by simp [hauthority])

theorem continuationWith_ok {previous next : CoordinatorMember}
    {record : Option SandboxRecoveryRecord} {mode : CheckpointMode}
    (h : continuationWith previous record mode = .ok next) : Continued previous next mode := by
  cases record with
  | none =>
    cases h
    exact .refl _ mode
  | some record => exact continuation_ok h

/-! ## What a member carries on -/

/-- How the identity of a resource may move: an acquired one stays, and a create
that was announced is not taken back. -/
structure SandboxResourceIdentity.Moves (identity later : SandboxResourceIdentity) : Prop where
  identified : identity.isIdentified = true → later = identity
  creating : identity = .creating → later ≠ .planned

theorem SandboxResourceIdentity.Moves.refl (identity : SandboxResourceIdentity) :
    identity.Moves identity := ⟨fun _ => rfl, fun h => by simp [h]⟩

theorem SandboxResourceIdentity.Moves.trans {a b c : SandboxResourceIdentity} (hab : a.Moves b)
    (hbc : b.Moves c) : a.Moves c := by
  refine ⟨fun h => ?_, fun h => ?_⟩
  · have hb := hab.identified h
    rw [hbc.identified (by rw [hb]; exact h), hb]
  · cases hb : b with
    | planned => exact absurd hb (hab.creating h)
    | creating => exact hbc.creating hb
    | identified id fingerprint =>
      rw [hbc.identified (by simp [hb]), hb]
      simp

theorem SandboxResourceIdentity.Moves.of_continues {identity later : SandboxResourceIdentity}
    {mode : CheckpointMode} {cleanupOnly : Bool}
    (h : identity.continues later mode cleanupOnly = true) : identity.Moves later := by
  cases identity with
  | planned => exact ⟨by simp [isIdentified], by simp⟩
  | creating =>
    exact ⟨by simp [isIdentified], fun _ => by simpa [SandboxResourceIdentity.continues] using h⟩
  | identified id fingerprint =>
    exact ⟨fun _ => by simpa [SandboxResourceIdentity.continues] using h, by simp⟩

/-- What every change leaves to a member that stays. -/
structure Carried (member next : CoordinatorMember) : Prop where
  memberId : next.memberId = member.memberId
  memberSequence : next.memberSequence = member.memberSequence
  binding : next.binding = member.binding
  allocation : next.allocation = member.allocation
  resource : ∀ role resource, member.checkpoint.record.resource? role = some resource →
    ∃ later, next.checkpoint.record.resource? role = some later ∧ later.name = resource.name ∧
      resource.identity.Moves later.identity
  authority : ∀ identity, member.checkpoint.record.authority = .verified identity →
    next.checkpoint.record.authority = .verified identity
  sink : member.checkpoint.callerSink.isFailed = true →
    next.checkpoint.callerSink = member.checkpoint.callerSink
  stage : member.state.stage ≤ next.state.stage

theorem Carried.refl (member : CoordinatorMember) : Carried member member :=
  ⟨rfl, rfl, rfl, rfl, fun _ resource h => ⟨resource, h, rfl, .refl _⟩, fun _ h => h, fun _ => rfl,
    Nat.le_refl _⟩

theorem Carried.trans {a b c : CoordinatorMember} (hab : Carried a b) (hbc : Carried b c) :
    Carried a c := by
  refine ⟨hbc.memberId.trans hab.memberId, hbc.memberSequence.trans hab.memberSequence,
    hbc.binding.trans hab.binding, hbc.allocation.trans hab.allocation, fun role resource hr => ?_,
    fun identity h => hbc.authority _ (hab.authority _ h), fun h => ?_, hab.stage.trans hbc.stage⟩
  · obtain ⟨middle, hmiddle, hname, hmove⟩ := hab.resource role resource hr
    obtain ⟨later, hlater, hname', hmove'⟩ := hbc.resource role middle hmiddle
    exact ⟨later, hlater, hname'.trans hname, hmove.trans hmove'⟩
  · rw [hbc.sink (by rw [hab.sink h]; exact h), hab.sink h]

theorem Continued.carried {previous next : CoordinatorMember} {mode : CheckpointMode}
    (h : Continued previous next mode) : Carried previous next := by
  have hrest := h.rest
  refine ⟨by rw [hrest], by rw [hrest], by rw [hrest], by rw [hrest], fun role resource hr => ?_,
    h.authority, fun _ => by rw [hrest], by rw [hrest]⟩
  obtain ⟨later, hlater, hname, hidentity⟩ := h.resource role resource hr
  exact ⟨later, hlater, hname, .of_continues hidentity⟩

theorem Continued.roles {previous next : CoordinatorMember} {mode : CheckpointMode}
    (h : Continued previous next mode) : next.roles = previous.roles := by rw [h.rest]

/-- A change of ledgers alone. -/
theorem Carried.changedRole {member next : CoordinatorMember} (h : Carried member next)
    (role : ResourceRole) (update : RoleLedger → RoleLedger) :
    Carried member (changedRole next role update) :=
  { h with }

theorem Carried.withProjection {member next : CoordinatorMember} (h : Carried member next)
    (projection : Option MemberProjection) : Carried member (withProjection next projection) := by
  cases projection with
  | none => exact h
  | some projection =>
    exact { h with }

theorem MemberState.allows_stage {state next : MemberState} (h : state.allows next = true) :
    state.stage ≤ next.stage := by
  cases state <;> cases next <;> simp [MemberState.allows, MemberState.stage] at h ⊢

/-! ## Acts and changes -/

/-- What a transition does to the outside. -/
inductive Act
  | registered (memberId : JsString) (memberSequence : Nat)
  | numbered (effect : QueuedEffect)
  | armed (recipe : EnteredEffect)
  | returned (owner : EffectOwner) (id : JsString)
  | identified (owner : EffectOwner) (id : JsString)
  | retired (member : CoordinatorMember)
  | recovered
  deriving DecidableEq

/-- The identity that a settlement reads back for the entered effect. -/
def Settlement.readback (settlement : Settlement) (entered : EnteredEffect) : Option JsString :=
  match entered.role with
  | .resource role => settlement.identity? role
  | .member => none

/-- The acts of an accepted event. -/
def actsOf (snapshot : CoordinatorSnapshot) (generation : DirtyGeneration)
    (plan : CoordinatorPlan) : CoordinatorEvent → List Act
  | .register record _ _ => [.registered record.operationId generation.nextMemberSequence]
  | .queue memberId role action => (generation.member? memberId).toList.map fun member =>
    .numbered (queuedEffect snapshot generation member role action)
  | .arm _ _ _ => match plan with
      | .arm _ recipe => [.armed recipe]
      | .commit _ => []
  | .returned _ id => generation.entered.toList.map fun entered => .returned entered.owner id
  | .settle _ settlement => generation.entered.toList.flatMap fun entered =>
    (settlement.readback entered).toList.map fun id => .identified entered.owner id
  | .retire memberId _ _ => (generation.member? memberId).toList.map .retired
  | .reopen_cleanup => if generation.state.isCleanupOnly then [] else [.recovered]
  | _ => []

/-- What growth of a member requires of its generation. -/
structure GrowthAdmitted (generation : DirtyGeneration) (member : CoordinatorMember)
    (role : EffectRole) : Prop where
  live : generation.liveState = true
  sink : member.checkpoint.callerSink.isFailed = false
  state : member.state.isEnding = false
  role : admitsGrowthRole generation role = true

/-- The generation after a member was settled and left the physical slot. -/
def settledGeneration (generation : DirtyGeneration) (member : CoordinatorMember)
    (role : ResourceRole) (action : ResourceAction) (effect : Nat) (outcome : ActionOutcome)
    (receiptDigest : JsString) (presence : Presence) (atSequence : Nat)
    (projection : Option MemberProjection) : DirtyGeneration :=
  replaceMember generation (withProjection
    (settleAction member role action effect outcome receiptDigest presence atSequence) projection)

/-- The ways in which a transition changes a dirty generation. -/
inductive Change (snapshot : CoordinatorSnapshot) (g : DirtyGeneration) :
    DirtyGeneration → List Act → Prop
  | steady {state : GenerationState} {basis : AuthorityBasis}
      (authority : state = g.state ∧ basis = g.basis ∨
        g.liveState = true ∧ state.isCleanupOnly = false) :
      Change snapshot g { g with state, basis } []
  | cancels (keep : QueuedEffect → Bool) :
      Change snapshot g { g with queue := g.queue.filter keep } []
  | updates {member next : CoordinatorMember} (found : g.member? member.memberId = some member)
      (carried : Carried member next) (roles : next.roles = member.roles) :
      Change snapshot g (replaceMember g next) []
  | registers {record : SandboxRecoveryRecord} {binding : RegistrationBinding} {slot : Nat}
      {digest : JsString} (admission : g.admissionOpen = true)
      (fresh : ∀ item ∈ g.everyone, item.1 ≠ record.operationId)
      (planned : ∀ resource ∈ record.resources, resource.identity = .planned) :
      Change snapshot g
        { g with
          nextMemberSequence := g.nextMemberSequence + 1
          members := g.members ++ [registeredMember snapshot g record binding slot digest] }
        [.registered record.operationId g.nextMemberSequence]
  | queues {member : CoordinatorMember} {role : EffectRole} {action : EffectAction}
      (found : g.member? member.memberId = some member)
      (unowned : ∀ effect ∈ g.effects, effect.owner ≠ ⟨member.memberId, role, action⟩)
      (growth : action.isGrowth = true → GrowthAdmitted g member role)
      (cell : ∀ receipt ∈ member.cell? role action, receipt ≠ .not_entered →
        action.isGrowth = false ∧ receipt.refusesCleanup = false) :
      Change snapshot g
        { g with
          nextEffectSequence := g.nextEffectSequence +
            (if (member.cell? role action).bind ActionReceipt.reused = none then 1 else 0)
          queue := enqueue g.queue (queuedEffect snapshot g member role action) }
        [.numbered (queuedEffect snapshot g member role action)]
  | arms {queued : QueuedEffect} {member : CoordinatorMember} {resource : SandboxRecoveryResource}
      {ledger : RoleLedger} {role : ResourceRole} {action : ResourceAction} {before input : JsString}
      (free : g.entered = none) (next : armable g queued.effectSequence = some queued)
      (ofRole : queued.role = .resource role) (ofAction : queued.action = .resource action)
      (found : g.member? queued.memberId = some member)
      (original : member.checkpoint.record.resource? role = some resource)
      (current : member.ledger? role = some ledger)
      (growth : queued.isCleanup = false → GrowthAdmitted g member queued.role)
      (identity : if action = .create then resource.identity = .creating
        else resource.identity.isIdentified = true)
      (admits : (ledger.cell action).admitsArm queued = true) :
      Change snapshot g
        { replaceMember g (changedRole member role fun entry =>
            entry.enter action queued.effectSequence) with
          queue := g.queue.filter fun entry => entry != queued
          entered := some (enteredEffect queued member resource (snapshot.sequence + 1) before
            input) }
        [.armed (enteredEffect queued member resource (snapshot.sequence + 1) before input)]
  | returns {entered : EnteredEffect} {member : CoordinatorMember} {role : ResourceRole}
      {id : JsString} (isEntered : g.entered = some entered) (ofRole : entered.role = .resource role)
      (ofAction : entered.action = .resource .create)
      (found : g.member? entered.memberId = some member)
      (same : entered.result ≠ .unobserved → entered.result = .returned id) :
      Change snapshot g
        { replaceMember g (changedRole member role fun ledger =>
            { ledger with presence := .possibly_present entered.effectSequence (some id) }) with
          entered := some { entered with result := .returned id } }
        [.returned entered.owner id]
  | settles {entered : EnteredEffect} {member continued : CoordinatorMember} {role : ResourceRole}
      {action : ResourceAction} {settlement : Settlement} {mode : CheckpointMode}
      (isEntered : g.entered = some entered) (ofRole : entered.role = .resource role)
      (ofAction : entered.action = .resource action)
      (found : g.member? entered.memberId = some member)
      (continuation : Continued member continued mode)
      (dispatched : settlement.outcome = .not_dispatched → entered.result = .unobserved)
      (present : action = .create → settlement.outcome = .present →
        settlement.provesPresent g entered role = true)
      (absent : action = .create → settlement.outcome = .absent →
        settlement.provesAbsent g entered role = true) :
      Change snapshot g
        { settledGeneration g continued role action entered.effectSequence settlement.outcome
            settlement.receiptDigest settlement.presence (snapshot.sequence + 1)
            settlement.projection with
          entered := none }
        ((settlement.readback entered).toList.map fun id => .identified entered.owner id)
  | resolves {member continued : CoordinatorMember} {ledger : RoleLedger} {resolution : Resolution}
      {effect : Nat} {intent : JsString} (found : g.member? member.memberId = some member)
      (current : member.ledger? resolution.role = some ledger)
      (uncertain : ledger.cell resolution.action = .uncertain effect intent)
      (continuation : Continued member continued .canonical_cleanup)
      (keeps : resolution.action = .create → resolution.keepsReturned ledger.presence = true)
      (absent : resolution.action = .create → resolution.outcome = .absent →
        resolution.provesAbsent g ledger.presence = true) :
      Change snapshot g
        (settledGeneration g continued resolution.role resolution.action effect
          resolution.outcome.outcome resolution.receiptDigest resolution.presence
          (snapshot.sequence + 1) resolution.projection) []
  | recovers {digest : JsString} {next : DirtyGeneration}
      (active : g.state.isCleanupOnly = false) (recovered : recoveredGeneration g digest = .ok next) :
      Change snapshot g next [.recovered]
  | retires {member : CoordinatorMember} {tombstone : MemberTombstone}
      (found : g.member? member.memberId = some member) (scopes : scopesSettled member = true)
      (settled : member.roles.all roleSettled = true)
      (unqueued : ∀ entry ∈ g.queue, entry.memberId = member.memberId →
        entry.action = .member_retire)
      (unentered : ∀ entered ∈ g.entered, entered.memberId ≠ member.memberId)
      (named : tombstone.memberId = member.memberId)
      (counted : tombstone.memberSequence = member.memberSequence) :
      Change snapshot g
        { g with
          members := g.members.filter fun item => item.memberId != member.memberId
          queue := g.queue.filter fun entry => entry.memberId != member.memberId
          retired := (g.retired ++ [tombstone]).mergeSort
            fun left right => decide (left.memberSequence ≤ right.memberSequence) }
        [.retired member]

end AgentSdk.Journal
