import AgentSdk.Journal.Inversion

/-!
# Action cells over a transition

`DirtyGeneration.cell?` looks up the receipt of an action by its owner.  A
transition writes at most one cell of a member that stays: an arm makes it
pending, a settlement or a recovery ends the pending one, a resolution ends an
uncertain one.

## Main results

* `Slot.change` — the entered effect owns the only pending cell, after every
  change.
* `Change.cell_cases` — what a change does to the cell of one owner.
-/

namespace AgentSdk.Journal

open AgentSdk.Text AgentSdk.Outcome

/-! ## Looking up a cell -/

/-- The receipt of an action of a current member. -/
def DirtyGeneration.cell? (g : DirtyGeneration) (owner : EffectOwner) : Option ActionReceipt :=
  (g.member? owner.memberId).bind fun member => member.cell? owner.role owner.action

variable {member : CoordinatorMember} {role : ResourceRole} {action : ResourceAction}
  {receipt : ActionReceipt} {g : DirtyGeneration} {entered : EnteredEffect} {digest : JsString}
  {snapshot : CoordinatorSnapshot}

theorem cell?_of_roles {next : CoordinatorMember} (h : next.roles = member.roles)
    (role : EffectRole) (action : EffectAction) :
    next.cell? role action = member.cell? role action := by
  cases role <;> cases action <;>
    simp [CoordinatorMember.cell?, CoordinatorMember.ledger?, h]

/-- An update of ledgers that writes one cell. -/
structure Writes (update : RoleLedger → RoleLedger) (action : ResourceAction)
    (receipt : ActionReceipt) : Prop where
  role : ∀ ledger, (update ledger).role = ledger.role
  cell : ∀ ledger other, (update ledger).cell other =
    if other = action then receipt else ledger.cell other

theorem writes_setCell (receipt : ActionReceipt) (action : ResourceAction) :
    Writes (fun ledger => ledger.setCell receipt action) action receipt :=
  ⟨fun ledger => setCell_role ledger receipt action, fun ledger => cell_setCell ledger receipt action⟩

theorem writes_settle (presence : Presence) (receipt : ActionReceipt) (action : ResourceAction) :
    Writes (fun ledger => { ledger with presence }.setCell receipt action) action receipt := by
  refine ⟨fun ledger => setCell_role _ receipt action, fun ledger other => ?_⟩
  rw [cell_setCell, cell_withPresence]

theorem writes_enter (action : ResourceAction) (effect : Nat) :
    Writes (fun ledger => ledger.enter action effect) action (.pending effect) := by
  refine ⟨fun ledger => ?_, fun ledger other => ?_⟩
  · unfold RoleLedger.enter
    rw [setCell_role]
    split
    · rfl
    · rfl
  · unfold RoleLedger.enter
    rw [cell_setCell]
    split
    · rfl
    · split
      · rw [cell_withPresence]
      · rfl

theorem cell?_changedRole {update : RoleLedger → RoleLedger} (h : Writes update action receipt)
    (hrole : (member.ledger? role).isSome = true) (other : EffectRole) (act : EffectAction) :
    (changedRole member role update).cell? other act =
      if other = .resource role ∧ act = .resource action then some receipt
      else member.cell? other act := by
  cases other with
  | member => simp [CoordinatorMember.cell?]
  | resource found =>
    cases act with
    | member_retire => simp [CoordinatorMember.cell?]
    | resource act =>
      simp only [CoordinatorMember.cell?, ledger?_changedRole member role h.role,
        EffectRole.resource.injEq, EffectAction.resource.injEq]
      by_cases hfound : found = role
      · subst hfound
        obtain ⟨ledger, hledger⟩ := Option.isSome_iff_exists.1 hrole
        simp only [if_true, hledger, Option.map_some, h.cell, true_and]
        split
        · rfl
        · rfl
      · simp [hfound]

theorem cell?_replaceMember {next : CoordinatorMember}
    (found : g.member? member.memberId = some member) (hid : next.memberId = member.memberId)
    (owner : EffectOwner) :
    (replaceMember g next).cell? owner =
      if owner.memberId = member.memberId then next.cell? owner.role owner.action
      else g.cell? owner := by
  simp only [DirtyGeneration.cell?, member?_replaceMember, hid]
  by_cases howner : owner.memberId = member.memberId
  · simp [howner, found]
  · simp [howner]

/-- The owner of an action on a resource of a member. -/
def ownerOf (member : CoordinatorMember) (role : ResourceRole) (action : ResourceAction) :
    EffectOwner := ⟨member.memberId, .resource role, .resource action⟩

/-- Writing a cell of one member writes that cell of the generation. -/
theorem cell?_written {next : CoordinatorMember} (found : g.member? member.memberId = some member)
    (hcell : ∀ other act, next.cell? other act =
      if other = .resource role ∧ act = .resource action then some receipt
      else member.cell? other act) (hid : next.memberId = member.memberId) (owner : EffectOwner) :
    (replaceMember g next).cell? owner =
      if owner = ownerOf member role action then some receipt else g.cell? owner := by
  rw [cell?_replaceMember found hid]
  obtain ⟨memberId, ownerRole, ownerAction⟩ := owner
  by_cases howner : memberId = member.memberId
  · subst howner
    simp [hcell, ownerOf, DirtyGeneration.cell?, found]
  · simp [howner, ownerOf]

theorem withProjection_cell? (member : CoordinatorMember) (projection : Option MemberProjection)
    (role : EffectRole) (action : EffectAction) :
    (withProjection member projection).cell? role action = member.cell? role action := by
  cases projection with
  | none => rfl
  | some projection => exact cell?_of_roles rfl role action

theorem withProjection_memberId (member : CoordinatorMember)
    (projection : Option MemberProjection) :
    (withProjection member projection).memberId = member.memberId := by
  cases projection <;> rfl

/-- An update of ledgers that writes no cell leaves every cell. -/
theorem cell?_kept {update : RoleLedger → RoleLedger}
    (found : g.member? member.memberId = some member)
    (hrole : ∀ ledger, (update ledger).role = ledger.role)
    (hcell : ∀ ledger action, (update ledger).cell action = ledger.cell action)
    (owner : EffectOwner) :
    (replaceMember g (changedRole member role update)).cell? owner = g.cell? owner := by
  have hmember : ∀ other act, (changedRole member role update).cell? other act =
      member.cell? other act := by
    intro other act
    cases other with
    | member => rfl
    | resource other =>
      cases act with
      | member_retire => rfl
      | resource act =>
        simp only [CoordinatorMember.cell?, ledger?_changedRole member role hrole]
        split
        · rename_i hother
          subst hother
          cases member.ledger? other with
          | none => rfl
          | some ledger => exact congrArg some (hcell ledger act)
        · rfl
  have hid : (changedRole member role update).memberId = member.memberId := rfl
  rw [cell?_replaceMember found hid, hmember]
  split
  · rename_i howner
    simp [DirtyGeneration.cell?, howner, found]
  · rfl

/-- The cells after a settlement. -/
theorem cell?_settled {continued : CoordinatorMember} {mode : CheckpointMode}
    (found : g.member? member.memberId = some member)
    (continuation : Continued member continued mode) (hrole : (member.ledger? role).isSome = true)
    (action : ResourceAction) (effect : Nat) (outcome : ActionOutcome) (digest : JsString)
    (presence : Presence) (atSequence : Nat) (projection : Option MemberProjection)
    (owner : EffectOwner) :
    (settledGeneration g continued role action effect outcome digest presence atSequence
        projection).cell? owner =
      if owner = ownerOf member role action then some (.settled effect outcome digest atSequence)
      else g.cell? owner := by
  have hid : continued.memberId = member.memberId := continuation.carried.memberId
  have hroles := continuation.roles
  unfold settledGeneration
  refine cell?_written found (fun other act => ?_) ?_ owner
  · rw [withProjection_cell?, settleAction,
      cell?_changedRole (writes_settle presence _ action) (by
        rw [CoordinatorMember.ledger?, hroles]; exact hrole),
      cell?_of_roles hroles]
  · rw [withProjection_memberId]
    exact hid

theorem ledger_of_cell? (h : member.cell? (.resource role) (.resource action) = some receipt) :
    ∃ ledger, member.ledger? role = some ledger ∧ ledger.cell action = receipt := by
  simpa [CoordinatorMember.cell?] using h

/-! ## The physical slot -/

/-- The entered effect owns the only pending cell. -/
structure Slot (g : DirtyGeneration) : Prop where
  entered : ∀ entered ∈ g.entered, g.cell? entered.owner = some (.pending entered.effectSequence)
  pending : ∀ owner effect, g.cell? owner = some (.pending effect) →
    ∃ entered ∈ g.entered, entered.owner = owner ∧ entered.effectSequence = effect

/-- The entered effect has a current member with a ledger for its role. -/
structure Original (g : DirtyGeneration) (entered : EnteredEffect) (member : CoordinatorMember)
    (role : ResourceRole) (action : ResourceAction) (ledger : RoleLedger) : Prop where
  owner : entered.owner = ownerOf member role action
  found : g.member? member.memberId = some member
  current : member.ledger? role = some ledger
  cell : ledger.cell action = .pending entered.effectSequence

theorem owner_eq {effect : QueuedEffect} (hid : effect.memberId = member.memberId)
    (hrole : effect.role = .resource role) (haction : effect.action = .resource action) :
    effect.owner = ownerOf member role action := by
  simp [QueuedEffect.owner, ownerOf, hid, hrole, haction]

theorem cell?_ownerOf (found : g.member? member.memberId = some member) :
    g.cell? (ownerOf member role action) = member.cell? (.resource role) (.resource action) := by
  simp [DirtyGeneration.cell?, ownerOf, found]

theorem Slot.original (h : Slot g) (isEntered : g.entered = some entered)
    (found : g.member? entered.memberId = some member) (ofRole : entered.role = .resource role)
    (ofAction : entered.action = .resource action) :
    ∃ ledger, Original g entered member role action ledger := by
  have hid : entered.memberId = member.memberId := (member?_spec found).2.symm
  have howner := owner_eq hid ofRole ofAction
  have hfound : g.member? member.memberId = some member := by rw [← hid]; exact found
  have hcell := h.entered entered isEntered
  rw [howner, cell?_ownerOf hfound] at hcell
  obtain ⟨ledger, hledger, hpending⟩ := ledger_of_cell? hcell
  exact ⟨ledger, howner, hfound, hledger, hpending⟩

theorem Slot.enteredOriginal (h : Slot g) (isEntered : g.entered = some entered) :
    ∃ member role action ledger,
      entered.role = .resource role ∧ entered.action = .resource action ∧
        Original g entered member role action ledger := by
  have hcell := h.entered entered isEntered
  unfold DirtyGeneration.cell? at hcell
  obtain ⟨member, hmember, hreceipt⟩ := Option.bind_eq_some_iff.1 hcell
  cases hrole : entered.role with
  | member => simp [QueuedEffect.owner, CoordinatorMember.cell?, hrole] at hreceipt
  | resource role =>
    cases haction : entered.action with
    | member_retire =>
      simp [QueuedEffect.owner, CoordinatorMember.cell?, haction, hrole] at hreceipt
    | resource action =>
      obtain ⟨ledger, horiginal⟩ := h.original isEntered hmember hrole haction
      exact ⟨member, role, action, ledger, rfl, rfl, horiginal⟩

/-! ## Recovery -/

theorem member?_reopened (g : DirtyGeneration) (digest : JsString) (memberId : JsString) :
    (g.reopened digest).member? memberId =
      (g.member? memberId).map CoordinatorMember.recovered := by
  simp only [DirtyGeneration.member?, DirtyGeneration.reopened, List.find?_map]
  rfl

theorem cell?_reopened (g : DirtyGeneration) (digest : JsString) (owner : EffectOwner) :
    (g.reopened digest).cell? owner = g.cell? owner := by
  simp only [DirtyGeneration.cell?, member?_reopened, Option.bind_map]
  rfl

/-- Recovery empties the slot and leaves the entered action uncertain. -/
theorem recoveredGeneration_ok {next : DirtyGeneration} (slot : Slot g)
    (h : recoveredGeneration g digest = .ok next) :
    g.entered = none ∧ next = g.reopened digest ∨
      ∃ entered member role action ledger, g.entered = some entered ∧
        Original g entered member role action ledger ∧
        next = replaceMember (g.reopened digest) (changedRole member.recovered role fun ledger =>
          ledger.setCell (.uncertain entered.effectSequence digest) action) := by
  cases hentered : g.entered with
  | none =>
    simp only [recoveredGeneration, hentered] at h
    cases h
    exact .inl ⟨rfl, rfl⟩
  | some entered =>
    obtain ⟨member, role, action, ledger, hrole, haction, horiginal⟩ :=
      slot.enteredOriginal hentered
    have hid : entered.memberId = member.memberId := congrArg EffectOwner.memberId horiginal.owner
    refine .inr ⟨entered, member, role, action, ledger, rfl, horiginal, ?_⟩
    obtain ⟨⟨number, memberId, role', action', binding, requested⟩, armedAt, revision, checkpoint,
      reference, before, recipe, input, result⟩ := entered
    subst hrole haction hid
    simp only [recoveredGeneration, hentered, member?_reopened, horiginal.found,
      Option.map_some] at h
    cases h
    rfl

theorem cell?_recovered {ledger : RoleLedger}
    (original : Original g entered member role action ledger) (owner : EffectOwner) :
    (replaceMember (g.reopened digest) (changedRole member.recovered role fun ledger =>
        ledger.setCell (.uncertain entered.effectSequence digest) action)).cell? owner =
      if owner = entered.owner then some (.uncertain entered.effectSequence digest)
      else g.cell? owner := by
  have hfound : (g.reopened digest).member? member.recovered.memberId = some member.recovered := by
    rw [member?_reopened]
    exact congrArg (Option.map CoordinatorMember.recovered) original.found
  have hledger : (member.recovered.ledger? role).isSome = true :=
    Option.isSome_iff_exists.2 ⟨ledger, original.current⟩
  rw [cell?_written hfound (cell?_changedRole (writes_setCell _ action) hledger) rfl,
    cell?_reopened, original.owner]
  rfl

/-! ## Members that come and go -/

theorem member?_appended (g : DirtyGeneration) (member : CoordinatorMember) (next : Nat)
    (memberId : JsString) :
    ({ g with nextMemberSequence := next, members := g.members ++ [member] } :
        DirtyGeneration).member? memberId =
      (g.member? memberId).or (if member.memberId = memberId then some member else none) := by
  simp only [DirtyGeneration.member?, List.find?_append, List.find?_singleton, decide_eq_true_eq]

theorem find?_filter_ne (members : List CoordinatorMember) (gone memberId : JsString) :
    (members.filter fun item => item.memberId != gone).find?
        (fun member => decide (member.memberId = memberId)) =
      if memberId = gone then none
      else members.find? fun member => decide (member.memberId = memberId) := by
  induction members with
  | nil => simp
  | cons item items ih =>
    by_cases hitem : item.memberId = gone
    · rw [List.filter_cons_of_neg (by simp [hitem]), ih]
      by_cases hid : memberId = gone
      · simp [hid]
      · have hne : ¬item.memberId = memberId := fun h => hid (h.symm.trans hitem)
        simp [hid, hne]
    · rw [List.filter_cons_of_pos (by simp [hitem]), List.find?_cons, ih]
      by_cases hid : memberId = gone
      · simp [hid, hitem]
      · simp [hid, List.find?_cons]

theorem emptyRole_effect? (role : ResourceRole) (atSequence : Nat) (action : ResourceAction) :
    ((emptyRole role atSequence).cell action).effect? = none := by
  have hreceipt : (emptyRole role atSequence).cell action =
      if applicableAction role action then .not_entered else .not_applicable := by
    cases action <;> rfl
  rw [hreceipt]
  split
  · rfl
  · rfl

/-- The ledgers of a new member are untouched. -/
theorem registered_ledger {record : SandboxRecoveryRecord} {binding : RegistrationBinding}
    {slot : Nat} {ledger : RoleLedger}
    (h : (registeredMember snapshot g record binding slot digest).ledger? role = some ledger) :
    ledger = emptyRole role (snapshot.sequence + 1) := by
  obtain ⟨hmem, hrole⟩ := ledger?_spec h
  have hsorted : ledger ∈ record.resources.map fun resource =>
      emptyRole resource.role (snapshot.sequence + 1) := List.mem_mergeSort.1 hmem
  obtain ⟨resource, -, rfl⟩ := List.mem_map.1 hsorted
  rw [← hrole]
  rfl

theorem registered_cell? {record : SandboxRecoveryRecord} {binding : RegistrationBinding}
    {slot : Nat} {role : EffectRole} {action : EffectAction}
    (h : (registeredMember snapshot g record binding slot digest).cell? role action = some
      receipt) : receipt.effect? = none := by
  cases role with
  | member => simp [CoordinatorMember.cell?] at h
  | resource role =>
    cases action with
    | member_retire => simp [CoordinatorMember.cell?] at h
    | resource action =>
      obtain ⟨ledger, hledger, rfl⟩ := ledger_of_cell? h
      rw [registered_ledger hledger]
      exact emptyRole_effect? role _ action

/-- Registration leaves every cell that had a number. -/
theorem cell?_registered {snapshot : CoordinatorSnapshot} {record : SandboxRecoveryRecord}
    {binding : RegistrationBinding} {slot next : Nat} {digest : JsString} (owner : EffectOwner)
    {receipt : ActionReceipt} :
    ({ g with
        nextMemberSequence := next
        members := g.members ++ [registeredMember snapshot g record binding slot digest] } :
          DirtyGeneration).cell? owner = some receipt →
      g.cell? owner = some receipt ∨ g.member? owner.memberId = none ∧ receipt.effect? = none := by
  intro h
  unfold DirtyGeneration.cell? at h ⊢
  rw [member?_appended] at h
  cases hmember : g.member? owner.memberId with
  | some member =>
    rw [hmember, Option.some_or] at h
    exact .inl h
  | none =>
    rw [hmember, Option.none_or] at h
    split at h
    · exact .inr ⟨rfl, registered_cell? h⟩
    · cases h

theorem cell?_registered_of_some {snapshot : CoordinatorSnapshot} {record : SandboxRecoveryRecord}
    {binding : RegistrationBinding} {slot next : Nat} {digest : JsString} {owner : EffectOwner}
    (h : g.cell? owner = some receipt) :
    ({ g with
        nextMemberSequence := next
        members := g.members ++ [registeredMember snapshot g record binding slot digest] } :
          DirtyGeneration).cell? owner = some receipt := by
  unfold DirtyGeneration.cell? at h ⊢
  rw [member?_appended]
  cases hmember : g.member? owner.memberId with
  | some member =>
    rw [hmember] at h
    rw [Option.some_or]
    exact h
  | none => simp [hmember] at h

theorem cell?_retired (g : DirtyGeneration) (gone : JsString) (queue : List QueuedEffect)
    (retired : List MemberTombstone) (owner : EffectOwner) :
    ({ g with
        members := g.members.filter fun item => item.memberId != gone
        queue, retired } : DirtyGeneration).cell? owner =
      if owner.memberId = gone then none else g.cell? owner := by
  unfold DirtyGeneration.cell? DirtyGeneration.member?
  rw [find?_filter_ne]
  split
  · rfl
  · rfl

/-! ## The slot over a change -/

theorem Slot.change {g' : DirtyGeneration} {acts : List Act} (slot : Slot g)
    (h : Change snapshot g g' acts) : Slot g' := by
  cases h with
  | steady authority | cancels keep
  | queues found unowned growth cell => exact ⟨slot.entered, slot.pending⟩
  | @updates member next found carried roles =>
    have hcells : ∀ owner, (replaceMember g next).cell? owner = g.cell? owner := by
      intro owner
      rw [cell?_replaceMember found carried.memberId, cell?_of_roles roles]
      split
      · rename_i howner
        simp [DirtyGeneration.cell?, howner, found]
      · rfl
    exact ⟨fun entered he => by rw [hcells]; exact slot.entered entered he,
      fun owner effect hp => slot.pending owner effect (by rw [← hcells]; exact hp)⟩
  | registers admission fresh planned =>
    refine ⟨fun entered he => cell?_registered_of_some (slot.entered entered he),
      fun owner effect hp => ?_⟩
    rcases cell?_registered owner hp with hold | hnew
    · exact slot.pending owner effect hold
    · simp [ActionReceipt.effect?] at hnew
  | @arms queued member resource ledger role action before input free next ofRole ofAction found
      original current growth identity admits =>
      have hid := (member?_spec found).2
      have hfound : g.member? member.memberId = some member := by rw [hid]; exact found
      have hwritten := cell?_written hfound (cell?_changedRole (writes_enter action
        queued.effectSequence) (Option.isSome_iff_exists.2 ⟨ledger, current⟩)) rfl
      have howner : queued.owner = ownerOf member role action := owner_eq hid.symm ofRole ofAction
      refine ⟨fun entered he => ?_, fun owner effect hp => ?_⟩
      · cases he
        exact (hwritten queued.owner).trans (by rw [if_pos howner]; rfl)
      · have hcell := (hwritten owner).symm.trans hp
        split at hcell
        · rename_i htarget
          cases hcell
          exact ⟨_, rfl, howner.trans htarget.symm, rfl⟩
        · obtain ⟨entered, he, -⟩ := slot.pending owner effect hcell
          rw [free] at he
          cases he
  | @returns entered member role id isEntered ofRole ofAction found same =>
    have hid := (member?_spec found).2
    have hfound : g.member? member.memberId = some member := by rw [hid]; exact found
    have hcells : ∀ owner, (replaceMember g (changedRole member role fun ledger =>
        { ledger with presence := .possibly_present entered.effectSequence (some id) })).cell?
          owner = g.cell? owner :=
      cell?_kept hfound (fun ledger => rfl) fun ledger action => cell_withPresence ledger _ action
    refine ⟨fun later he => ?_, fun owner effect hp => ?_⟩
    · cases he
      exact (hcells _).trans (slot.entered entered isEntered)
    · obtain ⟨found, he, howner, hnumber⟩ := slot.pending owner effect ((hcells owner).symm.trans hp)
      rw [isEntered] at he
      cases he
      exact ⟨_, rfl, howner, hnumber⟩
  | @settles entered member continued role action settlement mode isEntered ofRole ofAction found
      continuation dispatched present absent =>
      obtain ⟨ledger, horiginal⟩ := slot.original isEntered found ofRole ofAction
      have hcells := cell?_settled horiginal.found continuation
        (Option.isSome_iff_exists.2 ⟨ledger, horiginal.current⟩) action entered.effectSequence
        settlement.outcome settlement.receiptDigest settlement.presence (snapshot.sequence + 1)
        settlement.projection
      refine ⟨fun later he => (by cases he), fun owner effect hp => ?_⟩
      have hcell := (hcells owner).symm.trans hp
      split at hcell
      · cases hcell
      · rename_i htarget
        obtain ⟨other, he, howner, -⟩ := slot.pending owner effect hcell
        rw [isEntered] at he
        cases he
        exact absurd (howner.symm.trans horiginal.owner) htarget
  | @resolves member continued ledger resolution effect intent found current uncertain continuation
      keeps absent =>
      have hcells := cell?_settled found continuation
        (Option.isSome_iff_exists.2 ⟨ledger, current⟩) resolution.action effect
        resolution.outcome.outcome resolution.receiptDigest resolution.presence
        (snapshot.sequence + 1) resolution.projection
      have hbefore : g.cell? (ownerOf member resolution.role resolution.action) =
          some (.uncertain effect intent) := by
        rw [cell?_ownerOf found]
        simp [CoordinatorMember.cell?, current, uncertain]
      refine ⟨fun entered he => ?_, fun owner effect' hp => ?_⟩
      · have hcell := slot.entered entered he
        refine (hcells _).trans ?_
        rw [if_neg, hcell]
        intro htarget
        rw [htarget, hbefore] at hcell
        cases hcell
      · have hcell := (hcells owner).symm.trans hp
        split at hcell
        · cases hcell
        · exact slot.pending owner effect' hcell
  | recovers active recovered =>
    rcases recoveredGeneration_ok slot recovered with hidle | hactive
    · obtain ⟨hentered, rfl⟩ := hidle
      refine ⟨fun entered he => (by cases he), fun owner effect hp => ?_⟩
      rw [cell?_reopened] at hp
      obtain ⟨entered, he, -⟩ := slot.pending owner effect hp
      rw [hentered] at he
      cases he
    · obtain ⟨entered, member, role, action, ledger, hentered, horiginal, rfl⟩ := hactive
      refine ⟨fun later he => (by cases he), fun owner effect hp => ?_⟩
      rw [cell?_recovered horiginal] at hp
      split at hp
      · cases hp
      · rename_i htarget
        obtain ⟨other, he, howner, -⟩ := slot.pending owner effect hp
        rw [hentered] at he
        cases he
        exact absurd howner.symm htarget
  | retires found scopes settled unqueued unentered named counted =>
    refine ⟨fun entered he => ?_, fun owner effect hp => ?_⟩
    · have hother : ¬entered.owner.memberId = _ := unentered entered he
      rw [cell?_retired, if_neg hother]
      exact slot.entered entered he
    · rw [cell?_retired] at hp
      split at hp
      · cases hp
      · exact slot.pending owner effect hp

end AgentSdk.Journal
