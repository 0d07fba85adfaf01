import AgentSdk.Journal.Runs

/-!
# Obligations of members

A member is retired only when each of its creates is accounted for: it was never
dispatched, or its resource was seen absent under the identity it was known by.

## Main results

* `History.discharged` — what retirement guarantees about a member.
* `Obligations.change` — everyone of a generation is current or was discharged.
-/

namespace AgentSdk.Journal

open AgentSdk.Text AgentSdk.Outcome

/-- A create that was armed is accounted for. -/
inductive CreateDischarged (acts : List Act) (member : CoordinatorMember) (role : ResourceRole)
    (ledger : RoleLedger) : Prop
  | not_dispatched (settled : ledger.create.settledWith .not_dispatched = true)
      (unreturned : ∀ id, .returned (ownerOf member role .create) id ∉ acts)
  | absent {reference : JsString} {fingerprint : Option JsString} {inspected late : Nat}
      (presence : ledger.presence = .absent reference fingerprint inspected late)
      (original : (∃ resource known, member.checkpoint.record.resource? role = some resource ∧
          resource.identity = .identified reference known) ∨
        .returned (ownerOf member role .create) reference ∈ acts ∨
        .identified (ownerOf member role .create) reference ∈ acts)
      (returned : ∀ id, .returned (ownerOf member role .create) id ∈ acts → id = reference)

/-- Nothing is left to do for a member. -/
structure Discharged (acts : List Act) (member : CoordinatorMember) : Prop where
  scopes : ∀ scope ∈ member.work.scopes, scope = .not_entered ∨ scope = .joined
  receipts : ∀ ledger ∈ member.roles, ∀ receipt ∈ ledger.cells, receipt.isUnresolved = false
  creates : ∀ role recipe, .armed recipe ∈ acts → recipe.owner = ownerOf member role .create →
    ∃ ledger, member.ledger? role = some ledger ∧ CreateDischarged acts member role ledger

section Changes

variable {snapshot later : CoordinatorSnapshot} {g g' : DirtyGeneration} {acts : List Act}

variable {member : CoordinatorMember} {new : List Act}

/-- A settled ledger whose create was armed accounts for it. -/
theorem History.created (history : History g acts) (sound : GenerationSound snapshot g)
    {role : ResourceRole} {ledger : RoleLedger} (found : g.member? member.memberId = some member)
    (current : member.ledger? role = some ledger) (settled : roleSettled ledger = true)
    {recipe : EnteredEffect} (armed : .armed recipe ∈ acts)
    (owner : recipe.owner = ownerOf member role .create) :
    CreateDischarged acts member role ledger := by
  obtain ⟨resource, original, hsound⟩ := sound.ledger found current
  have hhistory := history.identities.role member role ledger resource found current original
  simp only [roleSettled, Bool.and_eq_true, RoleLedger.cells, List.all_cons, List.all_nil,
    Bool.not_eq_true'] at settled
  obtain ⟨hpresence, hcreate, -⟩ := settled
  have hgrowth : recipe.action.isGrowth = true := by
    have haction : recipe.action = .resource .create := congrArg EffectOwner.action owner
    rw [haction]
    rfl
  have hentered : ledger.create ≠ .not_entered := by
    refine history.arms.entered recipe.owner (mem_growthArms.2 ⟨recipe, armed, hgrowth, rfl⟩) _ ?_
    rw [owner, cell?_ownerOf found]
    simp [CoordinatorMember.cell?, current]
  -- The receipt of the create is settled, with one of three outcomes.
  cases hreceipt : ledger.create with
  | not_entered => exact absurd hreceipt hentered
  | pending | uncertain => simp [hreceipt, ActionReceipt.isUnresolved] at hcreate
  | not_applicable =>
    have happlicable := hsound.applicable .create hreceipt
    simp [applicableAction] at happlicable
  | settled effect outcome digest atSequence =>
    have hsettled : ledger.create.settledWith outcome = true := by
      simp [hreceipt, ActionReceipt.settledWith]
    have hnamed : ∀ id, .returned (ownerOf member role .create) id ∈ acts →
        knownId resource ledger = some id := hhistory.returned
    cases hidentity : resource.identity.isIdentified with
    | true =>
      obtain ⟨id, fingerprint, hid⟩ := SandboxResourceIdentity.isIdentified_iff.1 hidentity
      cases hp : ledger.presence with
      | not_entered proved => simp [hsound.not_entered hp] at hidentity
      | possibly_present | present => simp [hp, Presence.isSettled] at hpresence
      | absent reference known inspected late =>
        have href := (hsound.absent hp).1 id fingerprint hid
        subst href
        refine .absent hp (.inl ⟨resource, fingerprint, original, hid⟩) fun id hact => ?_
        have hknown := hnamed id hact
        rw [knownId_of_identified hid] at hknown
        simpa using hknown.symm
    | false =>
      have hnotPresent : ledger.create.settledWith .present ≠ true := by
        intro hyes
        simp [hsound.outcomes.1 hyes] at hidentity
      rw [show knownId resource ledger = ledger.acknowledged from
        knownId_of_unidentified hidentity] at hnamed
      rcases hsound.create_outcome hsettled with hnot | hpresent | habsent
      · subst hnot
        refine .not_dispatched hsettled fun id hact => ?_
        rcases hsound.acknowledged (hnamed id hact) with hpossibly | habsent
        · obtain ⟨number, -, hunresolved⟩ := hpossibly
          exact not_both hunresolved hsettled
        · obtain ⟨_, _, _, -, hother⟩ := habsent
          simp [hreceipt, ActionReceipt.settledWith] at hother
      · exact absurd (hpresent ▸ hsettled) hnotPresent
      · subst habsent
        obtain ⟨reference, fingerprint, inspected, late, hp⟩ := hsound.outcomes.2 hsettled
        have hack : ledger.acknowledged = some reference := by
          simp [RoleLedger.acknowledged, hp, hsettled]
        refine .absent hp (.inr (hhistory.acknowledged hidentity reference hack))
          fun id hact => ?_
        have hknown := hnamed id hact
        rw [hack] at hknown
        simpa using hknown.symm

/-- Every action that was armed has its cell, or its member was retired. -/
def ArmedKept (g : DirtyGeneration) (acts : List Act) : Prop :=
  ∀ recipe, .armed recipe ∈ acts → (g.cell? recipe.owner).isSome = true ∨
    ∃ member, .retired member ∈ acts ∧ member.memberId = recipe.memberId

/-- What retirement guarantees about a member. -/
theorem History.discharged (history : History g acts) (sound : GenerationSound snapshot g)
    (armed : ArmedKept g acts) (found : g.member? member.memberId = some member)
    (fresh : ∀ retired, .retired retired ∈ acts → retired.memberId ≠ member.memberId)
    (scopes : scopesSettled member = true) (settled : member.roles.all roleSettled = true) :
    Discharged acts member := by
  rw [List.all_eq_true] at settled
  refine ⟨fun scope hscope => ?_, fun ledger hledger receipt hreceipt => ?_,
    fun role recipe hact howner => ?_⟩
  · rw [scopesSettled, List.all_eq_true] at scopes
    simpa using scopes scope hscope
  · have hrole := settled ledger hledger
    simp only [roleSettled, Bool.and_eq_true, List.all_eq_true, Bool.not_eq_true'] at hrole
    exact hrole.2 receipt hreceipt
  · have hcell : (g.cell? recipe.owner).isSome = true := by
      rcases armed recipe hact with hsome | hgone
      · exact hsome
      · obtain ⟨retired, hretired, hid⟩ := hgone
        have hmember : recipe.memberId = member.memberId := congrArg EffectOwner.memberId howner
        exact absurd (hid.trans hmember) (fresh retired hretired)
    obtain ⟨receipt, hreceipt⟩ := Option.isSome_iff_exists.1 hcell
    rw [howner, cell?_ownerOf found] at hreceipt
    obtain ⟨ledger, current, -⟩ := ledger_of_cell? hreceipt
    exact ⟨ledger, current,
      history.created sound found current (settled ledger (ledger?_spec current).1) hact howner⟩

/-- Acts about other members change nothing about a discharge. -/
theorem Discharged.append (h : Discharged acts member)
    (others : ∀ act ∈ new, ∀ owner ∈ act.owner?, owner.memberId ≠ member.memberId) :
    Discharged (acts ++ new) member := by
  have hold : ∀ act role action, act.owner? = some (ownerOf member role action) →
      act ∈ acts ++ new → act ∈ acts := by
    intro act role action howner hact
    rcases List.mem_append.1 hact with hbefore | hnew
    · exact hbefore
    · exact absurd rfl (others act hnew _ howner)
  refine ⟨h.scopes, h.receipts, fun role recipe hact howner => ?_⟩
  have hbefore := hold _ role .create (by rw [Act.owner?, howner]) hact
  obtain ⟨ledger, current, hcreate⟩ := h.creates role recipe hbefore howner
  refine ⟨ledger, current, ?_⟩
  cases hcreate with
  | not_dispatched settled unreturned =>
    exact .not_dispatched settled fun id hreturned => unreturned id (hold _ role .create rfl hreturned)
  | absent presence original returned =>
    refine .absent presence ?_ fun id hreturned => returned id (hold _ role .create rfl hreturned)
    exact original.imp_right fun hacts =>
      hacts.imp (List.mem_append_left _) (List.mem_append_left _)

/-- Acts are about current members. -/
theorem Change.owner_current (h : Change snapshot g g' acts) {act : Act}
    (hact : act ∈ acts) {owner : EffectOwner} (howner : act.owner? = some owner) :
    (g.member? owner.memberId).isSome = true := by
  cases act with
  | registered | numbered | retired | recovered => simp [Act.owner?] at howner
  | armed recipe =>
    obtain ⟨-, member, role, action, ledger, hentry⟩ := h.armed hact
    cases howner
    rw [hentry.owner]
    exact Option.isSome_iff_exists.2 ⟨member, hentry.found⟩
  | returned found id =>
    obtain ⟨-, member, role, hmember, rfl, -⟩ := h.returned hact
    cases howner
    exact Option.isSome_iff_exists.2 ⟨member, hmember⟩
  | identified found id =>
    cases howner
    cases h with
    | settles isEntered ofRole ofAction found continuation dispatched present absent =>
      obtain ⟨read, -, hread⟩ := List.mem_map.1 hact
      cases hread
      exact Option.isSome_iff_exists.2 ⟨_, found⟩
    | _ => simp at hact

/-- The members that acts retired. -/
def Act.retired? : Act → Option CoordinatorMember
  | .retired member => some member
  | _ => none

/-- A member that a change retires is current and settled. -/
theorem Change.retires_settled (h : Change snapshot g g' acts) (hact : .retired member ∈ acts) :
    g.member? member.memberId = some member ∧ scopesSettled member = true ∧
      member.roles.all roleSettled = true ∧ acts = [.retired member] := by
  cases h with
  | retires found scopes settled unqueued unentered named counted =>
    cases List.mem_singleton.1 hact
    exact ⟨found, scopes, settled, rfl⟩
  | _ => simp at hact

/-- Everyone of a generation is current, or was retired when nothing was left to do. -/
structure Obligations (g : DirtyGeneration) (acts : List Act) : Prop where
  armed : ArmedKept g acts
  everyone : ∀ item ∈ registrations acts, (g.member? item.1).isSome = true ∨
    ∃ member, .retired member ∈ acts ∧ member.memberId = item.1
  retired : ∀ member, .retired member ∈ acts → Discharged acts member ∧
    ∃ tombstone ∈ g.retired, tombstone.memberId = member.memberId

theorem Obligations.of_empty {g : DirtyGeneration} : Obligations g [] :=
  ⟨by simp [ArmedKept], by simp [registrations], by simp⟩

/-- A current member was not retired. -/
theorem Obligations.fresh (obligations : Obligations g acts) (sound : GenerationSound snapshot g)
    (found : g.member? member.memberId = some member) :
    ∀ retired, .retired retired ∈ acts → retired.memberId ≠ member.memberId := by
  intro retired hact hid
  obtain ⟨-, tombstone, hmem, hnamed⟩ := obligations.retired retired hact
  have hnone := sound.member?_retired hmem
  rw [hnamed, hid, found] at hnone
  cases hnone

/-- A member that a change retires was discharged. -/
theorem Obligations.discharged (obligations : Obligations g acts) (history : History g acts)
    (sound : GenerationSound snapshot g) (h : Change snapshot g g' new)
    (hact : .retired member ∈ new) : Discharged acts member := by
  obtain ⟨found, scopes, settled, -⟩ := h.retires_settled hact
  exact history.discharged sound obligations.armed found (obligations.fresh sound found) scopes settled

/-- A member keeps the cells of its ledgers. -/
theorem MemberStep.cell_isSome {next : CoordinatorMember}
    (h : MemberStep snapshot g acts member next) {role : EffectRole} {action : EffectAction}
    (hcell : (member.cell? role action).isSome = true) :
    (next.cell? role action).isSome = true := by
  cases role with
  | member => simp [CoordinatorMember.cell?] at hcell
  | resource role =>
    cases action with
    | member_retire => simp [CoordinatorMember.cell?] at hcell
    | resource action =>
      simp only [CoordinatorMember.cell?, Option.isSome_map] at hcell ⊢
      rw [h.ledgers role]
      exact hcell

/-- A change keeps the cells of the members that it keeps. -/
theorem ArmedKept.change (armed : ArmedKept g acts) (slot : Slot g) (h : Change snapshot g g' new) :
    ArmedKept g' (acts ++ new) := by
  intro recipe hact
  cases List.mem_append.1 hact with
  | inr hnew =>
    obtain ⟨-, member, role, action, ledger, hentry⟩ := h.armed hnew
    exact .inl (by rw [(slot.change h).entered recipe hentry.entered]; rfl)
  | inl hold =>
    cases armed recipe hold with
    | inr hgone =>
      obtain ⟨member, hretired, hid⟩ := hgone
      exact .inr ⟨member, List.mem_append_left _ hretired, hid⟩
    | inl hsome =>
      obtain ⟨receipt, hreceipt⟩ := Option.isSome_iff_exists.1 hsome
      obtain ⟨member, hmember, hcell⟩ := Option.bind_eq_some_iff.1 hreceipt
      rcases h.member slot hmember with hstays | hgone
      · obtain ⟨next, hnext, hstep⟩ := hstays
        refine .inl ?_
        rw [DirtyGeneration.cell?, hnext, Option.bind_some]
        exact hstep.cell_isSome (by rw [hcell]; rfl)
      · exact .inr ⟨member, List.mem_append_right _ (by simp [hgone.1]),
          (member?_spec hmember).2⟩

theorem Obligations.change (obligations : Obligations g acts) (history : History g acts)
    (sound : GenerationSound snapshot g) (h : Change snapshot g g' new)
    (sound' : GenerationSound later g') : Obligations g' (acts ++ new) := by
  refine ⟨obligations.armed.change history.slot h, fun item hitem => ?_, fun member hact => ?_⟩
  · have hstays : (g.member? item.1).isSome = true → (g'.member? item.1).isSome = true ∨
        ∃ member, .retired member ∈ acts ++ new ∧ member.memberId = item.1 := by
      intro hcurrent
      obtain ⟨member, hmember⟩ := Option.isSome_iff_exists.1 hcurrent
      rcases h.member history.slot hmember with hnext | hgone
      · obtain ⟨next, hfound, -⟩ := hnext
        exact .inl (by rw [hfound]; rfl)
      · exact .inr ⟨member, by simp [hgone.1], (member?_spec hmember).2⟩
    have happend : registrations (acts ++ new) = registrations acts ++ registrations new :=
      List.filterMap_append
    rw [happend, List.mem_append] at hitem
    rcases hitem with hold | hnew
    · rcases obligations.everyone item hold with hcurrent | hgone
      · exact hstays hcurrent
      · obtain ⟨member, hact, hid⟩ := hgone
        exact .inr ⟨member, List.mem_append_left _ hact, hid⟩
    · -- A registration is of a member that is current afterwards.
      have hperm := h.everyone history.slot sound
      have hmem : item ∈ g'.everyone := hperm.mem_iff.2 (List.mem_append_right _ hnew)
      rcases List.mem_append.1 hmem with hcurrent | hretired
      · obtain ⟨member, hmember, rfl⟩ := List.mem_map.1 hcurrent
        refine .inl ?_
        rw [DirtyGeneration.member?, List.find?_isSome]
        exact ⟨member, hmember, by simp⟩
      · cases h with
        | registers admission fresh planned =>
          simp only [registrations, List.filterMap_cons, Act.registered?, List.filterMap_nil,
            List.mem_singleton] at hnew
          subst hnew
          obtain ⟨tombstone, htombstone, hsame⟩ := List.mem_map.1 hretired
          have hfresh := fresh _ (List.mem_append_right _
            (List.mem_map.2 ⟨tombstone, htombstone, rfl⟩))
          exact absurd (congrArg Prod.fst hsame) hfresh
        | steady authority | cancels keep
        | updates found carried roles => simp [registrations] at hnew
        | queues found unowned growth cell
        | recovers active recovered => simp [registrations, Act.registered?] at hnew
        | arms | returns | settles | retires =>
          simp [registrations, Act.registered?] at hnew
        | resolves found current uncertain continuation keeps absent =>
          simp [registrations] at hnew
  · rcases List.mem_append.1 hact with hold | hnew
    · obtain ⟨hdischarged, tombstone, hmem, hnamed⟩ := obligations.retired member hold
      refine ⟨hdischarged.append fun act hnew owner howner hsame => ?_, tombstone,
        (h.retired history.slot).1 tombstone hmem, hnamed⟩
      have hcurrent := h.owner_current hnew howner
      rw [hsame, ← hnamed, sound.member?_retired hmem] at hcurrent
      cases hcurrent
    · have hdischarged := obligations.discharged history sound h hnew
      have hacts := (h.retires_settled hnew).2.2.2
      refine ⟨hdischarged.append fun act hact owner howner => ?_,
        (h.retired history.slot).2 member hacts⟩
      rw [hacts, List.mem_singleton] at hact
      subst hact
      cases howner

end Changes

end AgentSdk.Journal
