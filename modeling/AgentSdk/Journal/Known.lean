import AgentSdk.Journal.History

/-!
# The identities of resources

A resource is known by the identity its record carries or, before that, by the
one that its create returned.  A known identity is never replaced, whatever the
transitions are.

## Main results

* `LedgerStep.known` — a step of a ledger keeps the identity its resource is
  known by.
* `Identities.change` — a returned identity is the one its resource is known by.
-/

namespace AgentSdk.Journal

open AgentSdk.Text AgentSdk.Outcome

/-- The identity that a create of a ledger returned, as far as the ledger tells. -/
def RoleLedger.acknowledged (ledger : RoleLedger) : Option JsString :=
  match ledger.presence with
  | .possibly_present _ returnedId => returnedId
  | .absent reference _ _ _ => if ledger.create.settledWith .absent then some reference else none
  | _ => none

/-- The identity a resource is known by. -/
def knownId (resource : SandboxRecoveryResource) (ledger : RoleLedger) : Option JsString :=
  resource.identity.id?.or ledger.acknowledged

/-- The identity a resource of a member is known by. -/
def CoordinatorMember.known? (member : CoordinatorMember) (role : ResourceRole) : Option JsString :=
  (member.checkpoint.record.resource? role).bind fun resource =>
    (member.ledger? role).bind fun ledger => knownId resource ledger

theorem SandboxResourceIdentity.id?_eq_none {identity : SandboxResourceIdentity}
    (h : identity.isIdentified = false) : identity.id? = none := by
  cases identity <;> simp_all [SandboxResourceIdentity.isIdentified, SandboxResourceIdentity.id?]

theorem knownId_of_unidentified {resource : SandboxRecoveryResource} {ledger : RoleLedger}
    (h : resource.identity.isIdentified = false) : knownId resource ledger = ledger.acknowledged := by
  rw [knownId, SandboxResourceIdentity.id?_eq_none h, Option.none_or]

theorem knownId_of_identified {resource : SandboxRecoveryResource} {ledger : RoleLedger}
    {id fingerprint : JsString} (h : resource.identity = .identified id fingerprint) :
    knownId resource ledger = some id := by
  simp [knownId, h, SandboxResourceIdentity.id?]

@[simp] theorem cell_create (ledger : RoleLedger) : ledger.cell .create = ledger.create := rfl

theorem create_setCell (ledger : RoleLedger) (receipt : ActionReceipt) (action : ResourceAction) :
    (ledger.setCell receipt action).create =
      if action = .create then receipt else ledger.create := by
  cases action <;> rfl

section Steps

variable {snapshot : CoordinatorSnapshot} {g : DirtyGeneration} {acts : List Act}
  {member next : CoordinatorMember} {role : ResourceRole} {ledger ledger' : RoleLedger}
  {resource resource' : SandboxRecoveryResource} {bound bound' : Nat}
  {later : CoordinatorSnapshot}

variable {entered : EnteredEffect} {id : JsString} {settlement : Settlement}

/-- The ledger of the create that is entered. -/
theorem GenerationSound.entered_create (sound : GenerationSound snapshot g)
    (isEntered : g.entered = some entered) (owner : entered.owner = ownerOf member role .create)
    (found : g.member? member.memberId = some member)
    (current : member.ledger? role = some ledger)
    (original : member.checkpoint.record.resource? role = some resource) :
    (∃ effect, ledger.presence = .possibly_present effect entered.result.returnedId) ∧
      resource.identity = .creating := by
  obtain ⟨found', resource', role', action', hsound⟩ := sound.entered entered isEntered
  have hid : entered.memberId = member.memberId := congrArg EffectOwner.memberId owner
  have hrole : EffectRole.resource role' = .resource role :=
    hsound.ofRole.symm.trans (congrArg EffectOwner.role owner)
  have haction : EffectAction.resource action' = .resource .create :=
    hsound.ofAction.symm.trans (congrArg EffectOwner.action owner)
  cases hrole
  cases haction
  have hmember := hsound.found
  rw [hid, found] at hmember
  cases hmember
  have hresource := hsound.original
  rw [original] at hresource
  cases hresource
  obtain ⟨effect, hpresence⟩ := hsound.create rfl
  rw [current] at hpresence
  exact ⟨⟨effect, by simpa using hpresence⟩, by simpa using hsound.identity⟩

/-- What an acknowledged identity says about the create. -/
theorem LedgerSound.acknowledged (h : LedgerSound snapshot bound resource ledger)
    (hack : ledger.acknowledged = some id) :
    (∃ effect, ledger.presence = .possibly_present effect (some id) ∧
      ledger.create.isUnresolved = true) ∨
    ∃ fingerprint inspected late, ledger.presence = .absent id fingerprint inspected late ∧
      ledger.create.settledWith .absent = true := by
  unfold RoleLedger.acknowledged at hack
  cases hp : ledger.presence with
  | not_entered | present => simp [hp] at hack
  | possibly_present effect returnedId =>
    simp only [hp] at hack
    subst hack
    exact .inl ⟨effect, rfl, (h.possibly hp).1⟩
  | absent reference fingerprint inspected late =>
    simp only [hp, Option.ite_none_right_eq_some, Option.some.injEq] at hack
    obtain ⟨hsettled, rfl⟩ := hack
    exact .inr ⟨fingerprint, inspected, late, rfl, hsettled⟩

/-- A ledger whose acknowledged identity is one of a valid snapshot is known by it. -/
theorem LedgerSound.known_of_acknowledged (h : LedgerSound snapshot bound resource ledger)
    (hack : ledger.acknowledged = some id) : knownId resource ledger = some id := by
  cases hidentity : resource.identity with
  | planned | creating =>
    rw [knownId_of_unidentified (by rw [hidentity]; rfl)]
    exact hack
  | identified found fingerprint =>
    rw [knownId_of_identified hidentity]
    rcases h.acknowledged hack with hpossibly | habsent
    · obtain ⟨effect, hp, -⟩ := hpossibly
      rw [(h.possibly hp).2.2.2 found fingerprint hidentity id rfl]
    · obtain ⟨known, inspected, late, hp, -⟩ := habsent
      rw [(h.absent hp).1 found fingerprint hidentity]

/-- The receipts of a create in a valid ledger. -/
theorem LedgerSound.create_outcome (h : LedgerSound snapshot bound resource ledger)
    {outcome : ActionOutcome} (hsettled : ledger.create.settledWith outcome = true) :
    outcome = .not_dispatched ∨ outcome = .present ∨ outcome = .absent := by
  have hfits := h.fits .create outcome hsettled
  cases outcome <;> simp [ActionOutcome.fits, ResourceAction.outcome] at hfits ⊢

theorem LedgerSound.known_of_present (h : LedgerSound snapshot bound resource ledger)
    {fingerprint digest : JsString} {runtime : Runtime}
    (hp : ledger.presence = .present id fingerprint digest runtime) :
    knownId resource ledger = some id := knownId_of_identified (h.present hp).1

/-- A settled create is no longer unresolved, and was settled with one outcome. -/
theorem not_both {receipt : ActionReceipt} {outcome : ActionOutcome}
    (hunresolved : receipt.isUnresolved = true) (hsettled : receipt.settledWith outcome = true) :
    False := by
  cases receipt <;> simp [ActionReceipt.isUnresolved, ActionReceipt.settledWith] at hunresolved hsettled

theorem result_of_acknowledged {result : EffectResult} (h : result.returnedId = some id) :
    result = .returned id := by
  cases result with
  | unobserved => simp [EffectResult.returnedId] at h
  | returned before => simpa [EffectResult.returnedId] using h

/-- A create that returned an identity is present only under it. -/
theorem Settlement.provesPresent.returned (h : settlement.provesPresent g entered role = true)
    (hresult : entered.result = .returned id) :
    ∃ fingerprint digest runtime, settlement.presence = .present id fingerprint digest runtime := by
  unfold Settlement.provesPresent at h
  cases hp : settlement.presence with
  | present found fingerprint digest runtime =>
    simp only [hp, hresult, beq_iff_eq] at h
    exact ⟨fingerprint, digest, runtime, by rw [h]⟩
  | not_entered | possibly_present | absent => simp [hp] at h

theorem Settlement.provesAbsent.reference (h : settlement.provesAbsent g entered role = true) :
    ∃ reference fingerprint inspected late,
      settlement.presence = .absent reference fingerprint inspected late ∧
        entered.result.returnedId.or (settlement.identity? role) = some reference := by
  unfold Settlement.provesAbsent at h
  cases hp : settlement.presence with
  | absent reference fingerprint inspected late =>
    simp only [hp, Bool.and_eq_true, beq_iff_eq] at h
    exact ⟨reference, fingerprint, inspected, late, rfl, h.2⟩
  | not_entered | possibly_present | present => simp [hp] at h

theorem Settlement.provesAbsent.returned (h : settlement.provesAbsent g entered role = true)
    (hresult : entered.result = .returned id) :
    ∃ fingerprint inspected late, settlement.presence = .absent id fingerprint inspected late := by
  obtain ⟨reference, fingerprint, inspected, late, hp, hreference⟩ := Settlement.provesAbsent.reference h
  rw [hresult] at hreference
  simp only [EffectResult.returnedId, Option.some_or, Option.some.injEq] at hreference
  exact ⟨fingerprint, inspected, late, by rw [hp, hreference]⟩

/-- An uncertain create that returned an identity is found only under it. -/
theorem Resolution.keepsReturned.spec {resolution : Resolution} {effect : Nat}
    (h : resolution.keepsReturned (.possibly_present effect (some id)) = true) :
    (∃ fingerprint digest runtime, resolution.presence = .present id fingerprint digest runtime) ∨
      resolution.outcome = .absent ∧
        ∃ fingerprint inspected late, resolution.presence = .absent id fingerprint inspected late := by
  unfold Resolution.keepsReturned at h
  cases hp : resolution.presence with
  | not_entered | possibly_present => simp [hp] at h
  | present found fingerprint digest runtime =>
    simp only [hp, beq_iff_eq] at h
    exact .inl ⟨fingerprint, digest, runtime, by rw [h]⟩
  | absent reference fingerprint inspected late =>
    simp only [hp, Bool.and_eq_true, beq_iff_eq] at h
    exact .inr ⟨h.1, fingerprint, inspected, late, by rw [h.2]⟩

/-- An uncertain create is absent only by the identity it returned. -/
theorem Resolution.provesAbsent.acknowledged {resolution : Resolution}
    (h : resolution.provesAbsent g ledger.presence = true) {reference : JsString}
    {fingerprint : Option JsString} {inspected late : Nat}
    (hp : resolution.presence = .absent reference fingerprint inspected late) :
    ledger.acknowledged = some reference := by
  simp only [Resolution.provesAbsent, hp] at h
  cases hbefore : ledger.presence with
  | not_entered | present | absent => simp [hbefore] at h
  | possibly_present number returnedId =>
    cases returnedId with
    | none => simp [hbefore] at h
    | some returned =>
      simp only [hbefore, Bool.and_eq_true, beq_iff_eq] at h
      simp [RoleLedger.acknowledged, hbefore, h.2]

/-- **A step of a ledger keeps the identity** that its resource is known by. -/
theorem LedgerStep.known (h : LedgerStep snapshot g acts member next role ledger ledger')
    (generation : GenerationSound snapshot g) (found : g.member? member.memberId = some member)
    (current : member.ledger? role = some ledger)
    (original : member.checkpoint.record.resource? role = some resource)
    (sound : LedgerSound snapshot bound resource ledger)
    (sound' : LedgerSound later bound' resource' ledger')
    (moves : resource.identity.Moves resource'.identity)
    (identified : ∀ action, action ≠ .create → (ledger.cell action).effect? ≠ none →
      resource.identity.isIdentified = true) (known : knownId resource ledger = some id) :
    knownId resource' ledger' = some id := by
  cases hidentity : resource.identity.isIdentified with
  | true =>
    have hsame := moves.identified hidentity
    cases hid : resource.identity with
    | planned | creating => simp [hid, SandboxResourceIdentity.isIdentified] at hidentity
    | identified found fingerprint =>
      rw [knownId_of_identified hid] at known
      rw [knownId_of_identified (hsame.trans hid)]
      exact known
  | false =>
    rw [knownId_of_unidentified hidentity] at known
    -- Only the create of such a resource was ever entered.
    have honly : ∀ action, (ledger.cell action).effect? ≠ none → action = .create := by
      intro action heffect
      by_contra hne
      simp [identified action hne heffect] at hidentity
    cases h with
    | same quiet => exact sound'.known_of_acknowledged known
    | @armed recipe action resource₀ act owner original₀ identity admits =>
      rw [original] at original₀
      cases original₀
      split at identity
      · rename_i haction
        subst haction
        have hgrowth : recipe.action = .resource .create := congrArg EffectOwner.action owner
        have huntouched : ledger.create = .not_entered := by
          simpa [ActionReceipt.admitsArm, QueuedEffect.isCleanup, hgrowth,
            EffectAction.isGrowth] using admits
        rcases sound.acknowledged known with hpossibly | habsent
        · obtain ⟨effect, -, hunresolved⟩ := hpossibly
          simp [huntouched, ActionReceipt.isUnresolved] at hunresolved
        · obtain ⟨fingerprint, inspected, late, -, hsettled⟩ := habsent
          simp [huntouched, ActionReceipt.settledWith] at hsettled
      · simp [hidentity] at identity
    | @returned entered returned act isEntered owner same =>
      obtain ⟨⟨effect, hp⟩, -⟩ :=
        generation.entered_create isEntered owner found current original
      have hresult : entered.result = .returned id :=
        result_of_acknowledged (by simpa [RoleLedger.acknowledged, hp] using known)
      have hreturned : returned = id := by
        have hagain := same (by simp [hresult])
        rw [hresult] at hagain
        simpa using hagain.symm
      exact sound'.known_of_acknowledged (by simp [RoleLedger.acknowledged, hreturned])
    | @settled entered action settlement act isEntered owner cell dispatched present absent =>
      have haction : action = .create := honly action (by rw [cell]; simp [ActionReceipt.effect?])
      subst haction
      obtain ⟨⟨effect, hp⟩, -⟩ :=
        generation.entered_create isEntered owner found current original
      have hresult : entered.result = .returned id :=
        result_of_acknowledged (by simpa [RoleLedger.acknowledged, hp] using known)
      have houtcome : settlement.outcome = .not_dispatched ∨ settlement.outcome = .present ∨
          settlement.outcome = .absent := sound'.create_outcome (by
        simp [create_setCell, ActionReceipt.settledWith])
      rcases houtcome with hnot | hpresent | habsent
      · simp [dispatched hnot] at hresult
      · obtain ⟨fingerprint, digest, runtime, hpresence⟩ :=
          Settlement.provesPresent.returned (present rfl hpresent) hresult
        exact sound'.known_of_present (by rw [setCell_presence]; exact hpresence)
      · obtain ⟨fingerprint, inspected, late, hpresence⟩ :=
          Settlement.provesAbsent.returned (absent rfl habsent) hresult
        refine sound'.known_of_acknowledged ?_
        simp [RoleLedger.acknowledged, create_setCell, ActionReceipt.settledWith,
          hpresence, habsent]
    | @resolved resolution effect intent act ofRole cell keeps absent =>
      have haction : resolution.action = .create :=
        honly _ (by rw [cell]; simp [ActionReceipt.effect?])
      rw [haction, cell_create] at cell
      have hp : ∃ number, ledger.presence = .possibly_present number (some id) := by
        rcases sound.acknowledged known with hpossibly | habsent
        · exact ⟨_, hpossibly.choose_spec.1⟩
        · obtain ⟨fingerprint, inspected, late, -, hsettled⟩ := habsent
          simp [cell, ActionReceipt.settledWith] at hsettled
      obtain ⟨number, hp⟩ := hp
      have hkeeps := keeps haction
      rw [hp] at hkeeps
      rcases Resolution.keepsReturned.spec hkeeps with hpresent | habsent
      · obtain ⟨fingerprint, digest, runtime, hpresence⟩ := hpresent
        exact sound'.known_of_present (by rw [setCell_presence]; exact hpresence)
      · obtain ⟨houtcome, fingerprint, inspected, late, hpresence⟩ := habsent
        refine sound'.known_of_acknowledged ?_
        simp [RoleLedger.acknowledged, create_setCell, ActionReceipt.settledWith, hpresence,
          haction, houtcome, ResolvedOutcome.outcome]
    | @recovered entered action digest act isEntered owner cell =>
      have haction : action = .create := honly action (by rw [cell]; simp [ActionReceipt.effect?])
      subst haction
      refine sound'.known_of_acknowledged ?_
      rcases sound.acknowledged known with hpossibly | habsent
      · obtain ⟨effect, hp, -⟩ := hpossibly
        simp [RoleLedger.acknowledged, hp]
      · obtain ⟨fingerprint, inspected, late, -, hsettled⟩ := habsent
        rw [cell_create] at cell
        simp [cell, ActionReceipt.settledWith] at hsettled

/-- Only a create is entered before its resource is identified. -/
theorem LedgerStep.identified (h : LedgerStep snapshot g acts member next role ledger ledger')
    (original : member.checkpoint.record.resource? role = some resource)
    (before : ∀ action, action ≠ .create → (ledger.cell action).effect? ≠ none →
      resource.identity.isIdentified = true)
    {action : ResourceAction} (hne : action ≠ .create)
    (heffect : (ledger'.cell action).effect? ≠ none) : resource.identity.isIdentified = true := by
  obtain ⟨effect, hnumber⟩ := Option.ne_none_iff_exists'.1 heffect
  rcases h.number hnumber with hold | hjust
  · exact before action hne (by simp [hold])
  · obtain ⟨recipe, hacts, howner, -⟩ := hjust
    cases h with
    | same quiet =>
      exact absurd (congrArg EffectOwner.role howner)
        (quiet (.armed recipe) (by simp [hacts]) recipe.owner rfl
          (congrArg EffectOwner.memberId howner))
    | @armed other armed found act owner original₀ identity admits =>
      rw [original] at original₀
      cases original₀
      rw [act, List.cons.injEq, Act.armed.injEq] at hacts
      rw [hacts.1, howner] at owner
      have haction : armed = action := by
        simpa [ownerOf] using (congrArg EffectOwner.action owner).symm
      rw [if_neg (haction ▸ hne)] at identity
      exact identity
    | returned act isEntered owner same
    | resolved act ofRole cell keeps absent => simp [act] at hacts
    | @settled entered armed settlement act isEntered owner cell dispatched present absent =>
      rw [act] at hacts
      cases hread : settlement.readback entered with
      | none | some => simp [hread] at hacts
    | recovered act isEntered owner cell => simp [act] at hacts

/-- A step acknowledges an identity only when its create returned it, or a
settlement read it back. -/
theorem LedgerStep.acknowledged (h : LedgerStep snapshot g acts member next role ledger ledger')
    (generation : GenerationSound snapshot g) (found : g.member? member.memberId = some member)
    (current : member.ledger? role = some ledger)
    (original : member.checkpoint.record.resource? role = some resource)
    (sound' : LedgerSound later bound' resource' ledger')
    (unidentified : resource.identity.isIdentified = false)
    (before : ∀ action, action ≠ .create → (ledger.cell action).effect? ≠ none →
      resource.identity.isIdentified = true) (hack : ledger'.acknowledged = some id) :
    ledger.acknowledged = some id ∨ .returned (ownerOf member role .create) id ∈ acts ∨
      .identified (ownerOf member role .create) id ∈ acts := by
  have honly : ∀ action, (ledger.cell action).effect? ≠ none → action = .create := by
    intro action heffect
    by_contra hne
    simp [before action hne heffect] at unidentified
  cases h with
  | same quiet => exact .inl hack
  | @armed recipe action found act owner original₀ identity admits =>
    rw [original] at original₀
    cases original₀
    split at identity
    · rename_i haction
      subst haction
      simp [RoleLedger.acknowledged, RoleLedger.enter] at hack
    · simp [unidentified] at identity
  | @returned entered returned act isEntered owner same =>
    simp only [RoleLedger.acknowledged, Option.some.injEq] at hack
    exact .inr (.inl (by simp [act, owner, hack]))
  | @settled entered action settlement act isEntered owner cell dispatched present absent =>
    have haction : action = .create := honly action (by rw [cell]; simp [ActionReceipt.effect?])
    subst haction
    rcases sound'.acknowledged hack with hpossibly | habsent
    · obtain ⟨effect, -, hunresolved⟩ := hpossibly
      simp [create_setCell, ActionReceipt.isUnresolved] at hunresolved
    · obtain ⟨fingerprint, inspected, late, hp, hsettled⟩ := habsent
      simp only [create_setCell, if_true, ActionReceipt.settledWith, beq_iff_eq] at hsettled
      rw [setCell_presence] at hp
      obtain ⟨reference, _, _, _, hpresence, hreference⟩ :=
        Settlement.provesAbsent.reference (absent rfl hsettled)
      have hsame := hp.symm.trans hpresence
      cases hsame
      obtain ⟨⟨effect, hbefore⟩, -⟩ :=
        generation.entered_create isEntered owner found current original
      cases hreturned : entered.result.returnedId with
      | some returned =>
        rw [hreturned, Option.some_or] at hreference
        cases hreference
        exact .inl (by simp [RoleLedger.acknowledged, hbefore, hreturned])
      | none =>
        rw [hreturned, Option.none_or] at hreference
        have hrole : entered.role = .resource role := congrArg EffectOwner.role owner
        have hread : settlement.readback entered = some id := by
          simp only [Settlement.readback, hrole]
          exact hreference
        exact .inr (.inr (by simp [act, hread, owner]))
  | @resolved resolution effect intent act ofRole cell keeps absent =>
    have haction : resolution.action = .create :=
      honly _ (by rw [cell]; simp [ActionReceipt.effect?])
    rcases sound'.acknowledged hack with hpossibly | habsent
    · obtain ⟨number, -, hunresolved⟩ := hpossibly
      simp [create_setCell, haction, ActionReceipt.isUnresolved] at hunresolved
    · obtain ⟨fingerprint, inspected, late, hp, hsettled⟩ := habsent
      simp only [create_setCell, haction, if_true, ActionReceipt.settledWith,
        beq_iff_eq] at hsettled
      rw [setCell_presence] at hp
      have houtcome : resolution.outcome = .absent := by
        cases hout : resolution.outcome <;> simp [hout, ResolvedOutcome.outcome] at hsettled ⊢
      exact .inl (Resolution.provesAbsent.acknowledged (absent haction houtcome) hp)
  | @recovered entered action digest act isEntered owner cell =>
    have haction : action = .create := honly action (by rw [cell]; simp [ActionReceipt.effect?])
    subst haction
    rcases sound'.acknowledged hack with hpossibly | habsent
    · obtain ⟨effect, hp, -⟩ := hpossibly
      rw [setCell_presence] at hp
      exact .inl (by simp [RoleLedger.acknowledged, hp])
    · obtain ⟨fingerprint, inspected, late, -, hsettled⟩ := habsent
      simp [create_setCell, ActionReceipt.settledWith] at hsettled

/-- What the acts tell about one ledger and its resource; `owner` is the create of
the resource. -/
structure RoleHistory (acts : List Act) (owner : EffectOwner) (ledger : RoleLedger)
    (resource : SandboxRecoveryResource) : Prop where
  identified : ∀ action, action ≠ .create → (ledger.cell action).effect? ≠ none →
    resource.identity.isIdentified = true
  returned : ∀ id, .returned owner id ∈ acts → knownId resource ledger = some id
  acknowledged : resource.identity.isIdentified = false → ∀ id, ledger.acknowledged = some id →
    .returned owner id ∈ acts ∨ .identified owner id ∈ acts

/-- A step keeps what the acts tell about a ledger. -/
theorem RoleHistory.step (history : RoleHistory acts (ownerOf member role .create) ledger resource)
    {new : List Act} (h : LedgerStep snapshot g new member next role ledger ledger')
    (generation : GenerationSound snapshot g) (found : g.member? member.memberId = some member)
    (current : member.ledger? role = some ledger)
    (original : member.checkpoint.record.resource? role = some resource)
    (sound : LedgerSound snapshot bound resource ledger)
    (sound' : LedgerSound later bound' resource' ledger')
    (moves : resource.identity.Moves resource'.identity) :
    RoleHistory (acts ++ new) (ownerOf member role .create) ledger' resource' := by
  refine ⟨fun action hne heffect => ?_, fun id hact => ?_, fun hidentity id hack => ?_⟩
  · have hbefore := h.identified original history.identified hne heffect
    rw [moves.identified hbefore]
    exact hbefore
  · rcases List.mem_append.1 hact with hold | hnew
    · exact h.known generation found current original sound sound' moves history.identified
        (history.returned id hold)
    · cases h with
      | same quiet => exact absurd rfl (quiet _ hnew _ rfl rfl)
      | armed act owner original₀ identity admits
      | settled act isEntered owner cell dispatched present absent => simp [act] at hnew
      | returned act isEntered owner same =>
        rw [act, List.mem_singleton, Act.returned.injEq] at hnew
        exact sound'.known_of_acknowledged (by simp [RoleLedger.acknowledged, hnew.2])
      | resolved act ofRole cell keeps absent
      | recovered act isEntered owner cell => simp [act] at hnew
  · have hbefore : resource.identity.isIdentified = false := by
      by_contra hyes
      have hsame := moves.identified (by simpa using hyes)
      rw [hsame] at hidentity
      exact hyes hidentity
    have hcases := h.acknowledged generation found current original sound' hbefore
      history.identified hack
    rcases hcases with hold | hnew
    · exact (history.acknowledged hbefore id hold).imp (List.mem_append_left _)
        (List.mem_append_left _)
    · exact hnew.imp (List.mem_append_right _) (List.mem_append_right _)

end Steps

/-! ## Identities over a change -/

section Changes

variable {snapshot later : CoordinatorSnapshot} {g g' : DirtyGeneration} {acts : List Act}

variable {member : CoordinatorMember}

theorem GenerationSound.ledger (sound : GenerationSound snapshot g) {memberId : JsString}
    {role : ResourceRole} {ledger : RoleLedger} (found : g.member? memberId = some member)
    (current : member.ledger? role = some ledger) :
    ∃ resource, member.checkpoint.record.resource? role = some resource ∧
      LedgerSound snapshot g.nextEffectSequence resource ledger := by
  obtain ⟨hmem, hrole⟩ := ledger?_spec current
  have hledger := (sound.member member (member?_spec found).1).ledger ledger hmem
  rw [hrole] at hledger
  exact hledger

/-- The step of one ledger and its resource, between two valid generations. -/
structure RoleStep (snapshot : CoordinatorSnapshot) (g : DirtyGeneration) (later : CoordinatorSnapshot)
    (g' : DirtyGeneration) (acts : List Act) (member next : CoordinatorMember) (role : ResourceRole)
    (ledger ledger' : RoleLedger) (resource resource' : SandboxRecoveryResource) : Prop where
  found : g.member? member.memberId = some member
  carried : Carried member next
  current : member.ledger? role = some ledger
  current' : next.ledger? role = some ledger'
  original : member.checkpoint.record.resource? role = some resource
  original' : next.checkpoint.record.resource? role = some resource'
  step : LedgerStep snapshot g acts member next role ledger ledger'
  sound : LedgerSound snapshot g.nextEffectSequence resource ledger
  sound' : LedgerSound later g'.nextEffectSequence resource' ledger'
  moves : resource.identity.Moves resource'.identity

/-- A step of a member is one of each of its ledgers. -/
theorem MemberStep.role {next : CoordinatorMember} (h : MemberStep snapshot g acts member next)
    (sound : GenerationSound snapshot g) (sound' : GenerationSound later g')
    (found : g.member? member.memberId = some member)
    (found' : g'.member? member.memberId = some next) {role : ResourceRole} {ledger : RoleLedger}
    (current : member.ledger? role = some ledger) :
    ∃ ledger' resource resource',
      RoleStep snapshot g later g' acts member next role ledger ledger' resource resource' := by
  have hsome : (next.ledger? role).isSome = true := by rw [h.ledgers role, current, Option.isSome_some]
  obtain ⟨ledger', current'⟩ := Option.isSome_iff_exists.1 hsome
  obtain ⟨resource, original, hsound⟩ := sound.ledger found current
  obtain ⟨resource', original', hsound'⟩ := sound'.ledger found' current'
  obtain ⟨moved, hmoved, -, hmoves⟩ := h.carried.resource role resource original
  rw [original'] at hmoved
  cases hmoved
  exact ⟨ledger', resource, resource', found, h.carried, current, current', original, original',
    h.ledger role ledger ledger' current current', hsound, hsound', hmoves⟩

theorem RoleStep.known {next : CoordinatorMember} {role : ResourceRole}
    {ledger ledger' : RoleLedger} {resource resource' : SandboxRecoveryResource}
    (h : RoleStep snapshot g later g' acts member next role ledger ledger' resource resource')
    (sound : GenerationSound snapshot g)
    (identified : ∀ action, action ≠ .create → (ledger.cell action).effect? ≠ none →
      resource.identity.isIdentified = true) {id : JsString}
    (known : knownId resource ledger = some id) : knownId resource' ledger' = some id :=
  h.step.known sound h.found h.current h.original h.sound h.sound' h.moves identified known

/-- The acts tell the identities of the current resources; what a create
returned, it returned to a member of the generation, and only once. -/
structure Identities (g : DirtyGeneration) (acts : List Act) : Prop where
  role : ∀ member role ledger resource, g.member? member.memberId = some member →
    member.ledger? role = some ledger → member.checkpoint.record.resource? role = some resource →
    RoleHistory acts (ownerOf member role .create) ledger resource
  known : ∀ owner id, .returned owner id ∈ acts → ∃ item ∈ g.everyone, item.1 = owner.memberId
  once : ∀ owner id id', .returned owner id ∈ acts → .returned owner id' ∈ acts → id = id'

/-- A new member has no history. -/
theorem RoleHistory.of_registered {owner : EffectOwner} {role : ResourceRole} {atSequence : Nat}
    {resource : SandboxRecoveryResource} (hacts : ∀ id, .returned owner id ∉ acts) :
    RoleHistory acts owner (emptyRole role atSequence) resource := by
  refine ⟨fun action _ heffect => absurd (emptyRole_effect? role atSequence action) heffect,
    fun id hact => absurd hact (hacts id), fun _ id hack => ?_⟩
  simp [RoleLedger.acknowledged, emptyRole] at hack

/-- What a change may return, and for whom. -/
theorem Change.returned (h : Change snapshot g g' acts) {owner : EffectOwner} {id : JsString}
    (hact : .returned owner id ∈ acts) :
    acts = [.returned owner id] ∧ ∃ member role, g.member? member.memberId = some member ∧
      owner = ownerOf member role .create ∧ ∃ entered, g.entered = some entered ∧
        entered.owner = owner := by
  cases h with
  | @returns entered member role id' isEntered ofRole ofAction found same =>
    rw [List.mem_singleton, Act.returned.injEq] at hact
    obtain ⟨rfl, rfl⟩ := hact
    have hid := (member?_spec found).2
    refine ⟨rfl, member, role, ?_, owner_eq hid.symm ofRole ofAction, entered, isEntered, rfl⟩
    rw [hid]
    exact found
  | _ => simp at hact

theorem Identities.change (identities : Identities g acts) (slot : Slot g)
    (sound : GenerationSound snapshot g) (sound' : GenerationSound later g') {new : List Act}
    (h : Change snapshot g g' new) : Identities g' (acts ++ new) := by
  have hknown : ∀ item ∈ g.everyone, item ∈ g'.everyone := fun item hitem =>
    (h.everyone slot sound).mem_iff.2 (List.mem_append_left _ hitem)
  have hrole : ∀ next role ledger' resource', g'.member? next.memberId = some next →
      next.ledger? role = some ledger' → next.checkpoint.record.resource? role = some resource' →
      RoleHistory (acts ++ new) (ownerOf next role .create) ledger' resource' := by
    intro next role ledger' resource' hnext hledger' hresource'
    cases hmember : g.member? next.memberId with
    | none =>
      obtain ⟨record, binding, slotNumber, digest, hregistered, hnew, hfresh, -⟩ :=
        h.newcomer slot hnext hmember
      rw [hregistered] at hledger'
      rw [registered_ledger hledger']
      refine .of_registered fun id hact => ?_
      rw [hnew] at hact
      rcases List.mem_append.1 hact with hold | hlast
      · obtain ⟨item, hitem, hid⟩ := identities.known _ id hold
        exact hfresh item hitem hid
      · simp at hlast
    | some member =>
      have hid := (member?_spec hmember).2
      cases h.member slot hmember with
      | inr hretired => exact nomatch hretired.2.symm.trans hnext
      | inl hstays =>
        obtain ⟨later', hlater, hstep⟩ := hstays
        rw [hnext] at hlater
        cases hlater
        have hsome : (member.ledger? role).isSome = true := by
          rw [← hstep.ledgers role, hledger', Option.isSome_some]
        obtain ⟨ledger, hledger⟩ := Option.isSome_iff_exists.1 hsome
        rw [← hid] at hmember hnext
        obtain ⟨ledger₁, resource, resource₁, hstep₁⟩ :=
          hstep.role sound sound' hmember hnext hledger
        have hsameLedger := hstep₁.current'.symm.trans hledger'
        have hsameResource := hstep₁.original'.symm.trans hresource'
        cases hsameLedger
        cases hsameResource
        have howner : ownerOf next role .create = ownerOf member role .create := by
          simp [ownerOf, hid]
        rw [howner]
        exact (identities.role member role ledger resource hmember hledger hstep₁.original).step
          hstep₁.step sound hmember hledger hstep₁.original hstep₁.sound hstep₁.sound' hstep₁.moves
  -- The identity that has just been returned is the one its resource is known by.
  have hagree : ∀ owner id id', .returned owner id ∈ new → .returned owner id' ∈ acts ++ new →
      id = id' := by
    intro owner id id' hnew hany
    obtain ⟨-, member, role, hmember, howner, entered, hentered, hown⟩ := h.returned hnew
    cases h.member slot hmember with
    | inr hretired => simp [hretired.1] at hnew
    | inl hstays =>
      obtain ⟨next, hnext, hstep⟩ := hstays
      obtain ⟨member', role', action', ledger, -, -, horiginal⟩ := slot.enteredOriginal hentered
      have hcurrent : ∃ ledger, member.ledger? role = some ledger := by
        have hsame := horiginal.owner.symm.trans (hown.trans howner)
        have hid : member'.memberId = member.memberId := congrArg EffectOwner.memberId hsame
        have hroles : role' = role := by simpa [ownerOf] using congrArg EffectOwner.role hsame
        have hfound := horiginal.found
        rw [hid, hmember] at hfound
        cases hfound
        exact ⟨ledger, hroles ▸ horiginal.current⟩
      obtain ⟨ledger, hledger⟩ := hcurrent
      obtain ⟨ledger', resource, resource', hrolestep⟩ :=
        hstep.role sound sound' hmember hnext hledger
      have hid := hstep.carried.memberId
      have hhistory := hrole next role ledger' resource' (by rw [hid]; exact hnext)
        hrolestep.current' hrolestep.original'
      have howner' : owner = ownerOf next role .create := by rw [howner]; simp [ownerOf, hid]
      rw [howner'] at hnew hany
      have hfirst := hhistory.returned id (List.mem_append_right _ hnew)
      have hsecond := hhistory.returned id' hany
      rw [hfirst] at hsecond
      simpa using hsecond
  refine ⟨hrole, fun owner id hact => ?_, fun owner id id' hact hact' => ?_⟩
  · rcases List.mem_append.1 hact with hold | hnew
    · obtain ⟨item, hitem, hid⟩ := identities.known owner id hold
      exact ⟨item, hknown item hitem, hid⟩
    · obtain ⟨-, member, role, hmember, rfl, -⟩ := h.returned hnew
      exact ⟨(member.memberId, member.memberSequence), hknown _ (List.mem_append_left _
        (List.mem_map.2 ⟨member, (member?_spec hmember).1, rfl⟩)), rfl⟩
  · cases List.mem_append.1 hact with
    | inr hnew => exact hagree owner id id' hnew hact'
    | inl hold =>
      cases List.mem_append.1 hact' with
      | inr hnew => exact (hagree owner id' id hnew hact).symm
      | inl hold' => exact identities.once owner id id' hold hold'

end Changes

end AgentSdk.Journal
