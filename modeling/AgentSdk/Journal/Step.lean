import AgentSdk.Journal.Cells

/-!
# Members and ledgers over a transition

A transition carries every member on, retires it, or registers a new one; of a
member that stays it rewrites at most one ledger, in one of five ways.

## Main results

* `Change.member` — what a change does to a current member and its ledgers.
* `Change.newcomer` — a member that was not current before was registered.
-/

namespace AgentSdk.Journal

open AgentSdk.Text AgentSdk.Outcome

/-- The owner of an effect that an act entered or identified. -/
def Act.owner? : Act → Option EffectOwner
  | .armed recipe => some recipe.owner
  | .returned owner _ => some owner
  | .identified owner _ => some owner
  | _ => none

/-- No act is about the role of a member. -/
def Quiet (acts : List Act) (member : CoordinatorMember) (role : ResourceRole) : Prop :=
  ∀ act ∈ acts, ∀ owner ∈ act.owner?, owner.memberId = member.memberId → owner.role ≠ .resource role

/-- How a transition rewrites the ledger of a role. -/
inductive LedgerStep (snapshot : CoordinatorSnapshot) (g : DirtyGeneration) (acts : List Act)
    (member next : CoordinatorMember) (role : ResourceRole) (ledger : RoleLedger) :
    RoleLedger → Prop
  | same (quiet : Quiet acts member role) : LedgerStep snapshot g acts member next role ledger ledger
  | armed {recipe : EnteredEffect} {action : ResourceAction} {resource : SandboxRecoveryResource}
      (act : acts = [.armed recipe]) (owner : recipe.owner = ownerOf member role action)
      (original : member.checkpoint.record.resource? role = some resource)
      (identity : if action = .create then resource.identity = .creating
        else resource.identity.isIdentified = true)
      (admits : (ledger.cell action).admitsArm recipe.toQueuedEffect = true) :
      LedgerStep snapshot g acts member next role ledger (ledger.enter action recipe.effectSequence)
  | returned {entered : EnteredEffect} {id : JsString} (act : acts = [.returned entered.owner id])
      (isEntered : g.entered = some entered) (owner : entered.owner = ownerOf member role .create)
      (same : entered.result ≠ .unobserved → entered.result = .returned id) :
      LedgerStep snapshot g acts member next role ledger
        { ledger with presence := .possibly_present entered.effectSequence (some id) }
  | settled {entered : EnteredEffect} {action : ResourceAction} {settlement : Settlement}
      (act : acts = (settlement.readback entered).toList.map fun id =>
        .identified entered.owner id)
      (isEntered : g.entered = some entered) (owner : entered.owner = ownerOf member role action)
      (cell : ledger.cell action = .pending entered.effectSequence)
      (dispatched : settlement.outcome = .not_dispatched → entered.result = .unobserved)
      (present : action = .create → settlement.outcome = .present →
        settlement.provesPresent g entered role = true)
      (absent : action = .create → settlement.outcome = .absent →
        settlement.provesAbsent g entered role = true) :
      LedgerStep snapshot g acts member next role ledger
        ({ ledger with presence := settlement.presence }.setCell (.settled entered.effectSequence
          settlement.outcome settlement.receiptDigest (snapshot.sequence + 1)) action)
  | resolved {resolution : Resolution} {effect : Nat} {intent : JsString} (act : acts = [])
      (ofRole : resolution.role = role)
      (cell : ledger.cell resolution.action = .uncertain effect intent)
      (keeps : resolution.action = .create → resolution.keepsReturned ledger.presence = true)
      (absent : resolution.action = .create → resolution.outcome = .absent →
        resolution.provesAbsent g ledger.presence = true) :
      LedgerStep snapshot g acts member next role ledger
        ({ ledger with presence := resolution.presence }.setCell (.settled effect
          resolution.outcome.outcome resolution.receiptDigest (snapshot.sequence + 1))
          resolution.action)
  | recovered {entered : EnteredEffect} {action : ResourceAction} {digest : JsString}
      (act : acts = [.recovered]) (isEntered : g.entered = some entered) (owner : entered.owner = ownerOf member role action)
      (cell : ledger.cell action = .pending entered.effectSequence) :
      LedgerStep snapshot g acts member next role ledger
        (ledger.setCell (.uncertain entered.effectSequence digest) action)

/-- A member that stays: what it carries on, and each of its ledgers. -/
structure MemberStep (snapshot : CoordinatorSnapshot) (g : DirtyGeneration) (acts : List Act)
    (member next : CoordinatorMember) : Prop where
  carried : Carried member next
  ledgers : ∀ role, (next.ledger? role).isSome = (member.ledger? role).isSome
  ledger : ∀ role ledger ledger', member.ledger? role = some ledger →
    next.ledger? role = some ledger' → LedgerStep snapshot g acts member next role ledger ledger'

section Steps

variable {snapshot : CoordinatorSnapshot} {g g' : DirtyGeneration} {acts : List Act}

theorem Quiet.of_silent (h : ∀ act ∈ acts, act.owner? = none) (member : CoordinatorMember)
    (role : ResourceRole) : Quiet acts member role := by
  intro act hact owner howner
  rw [h act hact] at howner
  cases howner

/-- A member none of whose ledgers is rewritten. -/
theorem MemberStep.of_roles {member next : CoordinatorMember} (carried : Carried member next)
    (hroles : next.roles = member.roles) (quiet : ∀ role, Quiet acts member role) :
    MemberStep snapshot g acts member next := by
  have hledger : ∀ role, next.ledger? role = member.ledger? role := by
    intro role
    simp only [CoordinatorMember.ledger?, hroles]
  refine ⟨carried, fun role => by rw [hledger], fun role ledger ledger' h h' => ?_⟩
  rw [hledger, h] at h'
  cases h'
  exact .same (quiet role)

theorem MemberStep.refl (member : CoordinatorMember) (quiet : ∀ role, Quiet acts member role) :
    MemberStep snapshot g acts member member :=
  .of_roles (.refl member) rfl quiet

/-- A member one of whose ledgers is rewritten. -/
theorem MemberStep.of_changed {member next continued : CoordinatorMember} {role : ResourceRole}
    {update : RoleLedger → RoleLedger} (carried : Carried member next)
    (hnext : ∀ other, next.ledger? other = (changedRole continued role update).ledger? other)
    (hroles : continued.roles = member.roles)
    (hupdate : ∀ ledger, (update ledger).role = ledger.role)
    (hacts : ∀ act ∈ acts, ∀ owner ∈ act.owner?, owner.role = .resource role)
    (hstep : ∀ ledger, member.ledger? role = some ledger →
      LedgerStep snapshot g acts member next role ledger (update ledger)) :
    MemberStep snapshot g acts member next := by
  have hledger : ∀ other, next.ledger? other =
      if other = role then (member.ledger? role).map update else member.ledger? other := by
    intro other
    rw [hnext, ledger?_changedRole continued role hupdate]
    simp only [CoordinatorMember.ledger?, hroles]
  refine ⟨carried, fun other => ?_, fun other ledger ledger' h h' => ?_⟩
  · rw [hledger]
    split
    · rename_i hother
      rw [hother, Option.isSome_map]
    · rfl
  · rw [hledger] at h'
    split at h'
    · rename_i hother
      subst hother
      rw [h] at h'
      cases h'
      exact hstep ledger h
    · rename_i hother
      rw [h] at h'
      cases h'
      refine .same fun act hact owner howner _ hrole => hother ?_
      simpa using hrole.symm.trans (hacts act hact owner howner)

theorem Carried.of_recovered (member : CoordinatorMember) (roles : List RoleLedger) :
    Carried member { member.recovered with roles } := by
  refine ⟨rfl, rfl, rfl, rfl, fun role resource h => ⟨resource, h, rfl, .refl _⟩, fun _ h => h,
    fun _ => rfl, ?_⟩
  cases hstate : member.state <;> simp [CoordinatorMember.recovered, MemberState.stage]

/-- The member after a settlement of one of its actions. -/
theorem MemberStep.of_settled {member continued : CoordinatorMember} {mode : CheckpointMode}
    (continuation : Continued member continued mode) {role : ResourceRole}
    {action : ResourceAction} {effect : Nat} {outcome : ActionOutcome} {digest : JsString}
    {presence : Presence} {atSequence : Nat} {projection : Option MemberProjection}
    (hacts : ∀ act ∈ acts, ∀ owner ∈ act.owner?, owner.role = .resource role)
    (hstep : ∀ next ledger, member.ledger? role = some ledger →
      LedgerStep snapshot g acts member next role ledger
        ({ ledger with presence }.setCell (.settled effect outcome digest atSequence) action)) :
    MemberStep snapshot g acts member (withProjection
      (settleAction continued role action effect outcome digest presence atSequence) projection) := by
  have hcarried := (continuation.carried.changedRole role fun ledger =>
    { ledger with presence }.setCell (.settled effect outcome digest atSequence) action).withProjection
      projection
  refine .of_changed hcarried (fun other => ?_) continuation.roles
    (writes_settle presence _ action).role hacts (fun ledger h => hstep _ ledger h)
  cases projection with
  | none | some => rfl

theorem Change.member (h : Change snapshot g g' acts) (slot : Slot g) {memberId : JsString}
    {member : CoordinatorMember} (hmember : g.member? memberId = some member) :
    (∃ next, g'.member? memberId = some next ∧ MemberStep snapshot g acts member next) ∨
      acts = [.retired member] ∧ g'.member? memberId = none := by
  have hreplaced : ∀ next : CoordinatorMember, ∀ changed : CoordinatorMember,
      g.member? changed.memberId = some changed → next.memberId = changed.memberId →
      (∀ act ∈ acts, ∀ owner ∈ act.owner?, owner.memberId = changed.memberId) →
      MemberStep snapshot g acts changed next →
      ∃ later, (replaceMember g next).member? memberId = some later ∧
        MemberStep snapshot g acts member later := by
    intro next changed hchanged hid hacts hstep
    rw [member?_replaceMember, hid]
    by_cases hsame : memberId = changed.memberId
    · rw [hsame, hchanged] at hmember
      cases hmember
      exact ⟨next, by simp [hsame, hchanged], hstep⟩
    · refine ⟨member, by simp [hsame, hmember], .refl member fun role act hact owner howner hown => ?_⟩
      rw [hacts act hact owner howner, (member?_spec hmember).2] at hown
      exact absurd hown.symm hsame
  have hsilent : (∀ act ∈ acts, act.owner? = none) → ∀ role, Quiet acts member role :=
    fun hacts role => .of_silent hacts member role
  cases h with
  | steady authority
  | cancels keep => exact .inl ⟨member, hmember, .refl member (hsilent (by simp))⟩
  | queues found unowned growth cell =>
    exact .inl ⟨member, hmember, .refl member (hsilent (by simp [Act.owner?]))⟩
  | updates found carried roles =>
    exact .inl (hreplaced _ _ found carried.memberId (by simp)
      (.of_roles carried roles fun role => .of_silent (by simp) _ role))
  | registers admission fresh planned =>
    refine .inl ⟨member, ?_, .refl member (hsilent (by simp [Act.owner?]))⟩
    rw [member?_appended, hmember, Option.some_or]
  | @arms queued changed resource ledger role action before input free next ofRole ofAction found
      original current growth identity admits =>
      have hid := (member?_spec found).2
      have hfound : g.member? changed.memberId = some changed := by rw [hid]; exact found
      have howner : queued.owner = ownerOf changed role action := owner_eq hid.symm ofRole ofAction
      have hacts : ∀ act ∈ [Act.armed (enteredEffect queued changed resource (snapshot.sequence + 1)
          before input)], ∀ owner ∈ act.owner?, owner = ownerOf changed role action := by
        intro act hact owner hmem
        cases List.mem_singleton.1 hact
        cases hmem
        exact howner
      refine .inl (hreplaced _ changed hfound rfl
        (fun act hact owner hmem => by rw [hacts act hact owner hmem]; rfl) (.of_changed
        ((Carried.refl changed).changedRole role _) (fun _ => rfl) rfl
        (writes_enter action queued.effectSequence).role
        (fun act hact owner hmem => by rw [hacts act hact owner hmem]; rfl) fun entry hentry => ?_))
      rw [current] at hentry
      cases hentry
      exact .armed rfl howner original identity admits
  | @returns entered changed role id isEntered ofRole ofAction found same =>
    have hid := (member?_spec found).2
    have hfound : g.member? changed.memberId = some changed := by rw [hid]; exact found
    have howner : entered.owner = ownerOf changed role .create :=
      owner_eq hid.symm ofRole ofAction
    have hacts : ∀ act ∈ [Act.returned entered.owner id], ∀ owner ∈ act.owner?,
        owner = ownerOf changed role .create := by
      intro act hact owner hmem
      cases List.mem_singleton.1 hact
      cases hmem
      exact howner
    refine .inl (hreplaced _ changed hfound rfl
      (fun act hact owner hmem => by rw [hacts act hact owner hmem]; rfl) (.of_changed
      ((Carried.refl changed).changedRole role _) (fun _ => rfl) rfl (fun _ => rfl)
      (fun act hact owner hmem => by rw [hacts act hact owner hmem]; rfl)
      fun entry _ => ?_))
    exact .returned rfl isEntered howner same
  | @settles entered changed continued role action settlement mode isEntered ofRole ofAction found
      continuation dispatched present absent =>
      obtain ⟨ledger, horiginal⟩ := slot.original isEntered found ofRole ofAction
      have hacts : ∀ act ∈ (settlement.readback entered).toList.map fun id =>
          Act.identified entered.owner id, ∀ owner ∈ act.owner?, owner = ownerOf changed role action := by
        intro act hact owner hmem
        obtain ⟨id, -, rfl⟩ := List.mem_map.1 hact
        cases hmem
        exact horiginal.owner
      refine .inl (hreplaced _ changed horiginal.found ?_
        (fun act hact owner hmem => by rw [hacts act hact owner hmem]; rfl)
        (.of_settled continuation (fun act hact owner hmem => by rw [hacts act hact owner hmem]; rfl)
          fun next entry hentry => ?_))
      · rw [withProjection_memberId]
        exact continuation.carried.memberId
      · rw [horiginal.current] at hentry
        cases hentry
        exact .settled rfl isEntered horiginal.owner horiginal.cell dispatched present absent
  | @resolves changed continued ledger resolution effect intent found current uncertain continuation
      keeps absent =>
      refine .inl (hreplaced _ changed found ?_ (by simp) (.of_settled continuation (by simp)
        fun next entry hentry => ?_))
      · rw [withProjection_memberId]
        exact continuation.carried.memberId
      · rw [current] at hentry
        cases hentry
        exact .resolved rfl rfl uncertain keeps absent
  | @recovers digest next active recovered =>
    have hkept : ∀ other : CoordinatorMember,
        MemberStep snapshot g [.recovered] other other.recovered := fun other =>
      .of_roles (.of_recovered other other.roles) rfl fun role =>
        .of_silent (by simp [Act.owner?]) other role
    refine .inl ?_
    rcases recoveredGeneration_ok slot recovered with hidle | hactive
    · obtain ⟨-, rfl⟩ := hidle
      refine ⟨member.recovered, ?_, hkept member⟩
      rw [member?_reopened, hmember, Option.map_some]
    · obtain ⟨entered, changed, role, action, ledger, hentered, horiginal, rfl⟩ := hactive
      have hlookup := member?_replaceMember (g.reopened digest)
        (changedRole changed.recovered role fun ledger =>
          ledger.setCell (.uncertain entered.effectSequence digest) action) memberId
      have hid : (changedRole changed.recovered role fun ledger =>
          ledger.setCell (.uncertain entered.effectSequence digest) action).memberId =
            changed.memberId := rfl
      rw [member?_reopened, hmember, Option.map_some, hid] at hlookup
      by_cases hsame : memberId = changed.memberId
      · rw [if_pos hsame] at hlookup
        refine ⟨_, hlookup, ?_⟩
        rw [hsame, horiginal.found] at hmember
        cases hmember
        refine .of_changed (.of_recovered member _) (fun _ => rfl) rfl
          (writes_setCell _ action).role (by simp [Act.owner?]) fun entry hentry => ?_
        rw [horiginal.current] at hentry
        cases hentry
        exact .recovered rfl hentered horiginal.owner horiginal.cell
      · rw [if_neg hsame] at hlookup
        exact ⟨member.recovered, hlookup, hkept member⟩
  | @retires changed tombstone found scopes settled unqueued unentered named counted =>
    have hlookup := find?_filter_ne g.members changed.memberId memberId
    by_cases hsame : memberId = changed.memberId
    · refine .inr ⟨?_, hlookup.trans (by rw [if_pos hsame])⟩
      rw [hsame, found] at hmember
      cases hmember
      rfl
    · exact .inl ⟨member, hlookup.trans (by rw [if_neg hsame]; exact hmember),
        .refl member (hsilent (by simp [Act.owner?]))⟩

/-- A member that was not current before was registered. -/
theorem Change.newcomer (h : Change snapshot g g' acts) (slot : Slot g) {memberId : JsString}
    {next : CoordinatorMember} (hnext : g'.member? memberId = some next)
    (hmember : g.member? memberId = none) :
    ∃ record binding slot digest, next = registeredMember snapshot g record binding slot digest ∧
      acts = [.registered memberId g.nextMemberSequence] ∧ (∀ item ∈ g.everyone, item.1 ≠ memberId) ∧
      ∀ resource ∈ record.resources, resource.identity = .planned := by
  have hreplaced : ∀ changed, (replaceMember g changed).member? memberId = none := by
    intro changed
    rw [member?_replaceMember, hmember]
    split
    · rfl
    · rfl
  cases h with
  | steady authority | cancels keep
  | queues found unowned growth cell => exact nomatch hmember.symm.trans hnext
  | updates found carried roles
  | returns isEntered ofRole ofAction found same => exact nomatch (hreplaced _).symm.trans hnext
  | @registers record binding slot digest admission fresh planned =>
    rw [member?_appended, hmember, Option.none_or] at hnext
    split at hnext
    · rename_i hid
      cases hnext
      have hid' : record.operationId = memberId := hid
      subst hid'
      exact ⟨record, binding, slot, digest, rfl, rfl, fresh, planned⟩
    · cases hnext
  | arms | settles | resolves =>
    exact nomatch (hreplaced _).symm.trans hnext
  | @recovers digest next active recovered =>
    have hreopened : (g.reopened digest).member? memberId = none := by
      rw [member?_reopened, hmember, Option.map_none]
    rcases recoveredGeneration_ok slot recovered with hidle | hactive
    · obtain ⟨-, rfl⟩ := hidle
      exact nomatch hreopened.symm.trans hnext
    · obtain ⟨entered, changed, role, action, ledger, -, -, rfl⟩ := hactive
      rw [member?_replaceMember, hreopened] at hnext
      split at hnext
      · cases hnext
      · cases hnext
  | @retires changed tombstone found scopes settled unqueued unentered named counted =>
    have hlookup := find?_filter_ne g.members changed.memberId memberId
    have hnone : (g.members.filter fun item => item.memberId != changed.memberId).find?
        (fun member => decide (member.memberId = memberId)) = none := by
      rw [hlookup]
      split
      · rfl
      · exact hmember
    exact nomatch hnone.symm.trans hnext

end Steps

end AgentSdk.Journal
