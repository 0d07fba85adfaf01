import AgentSdk.Journal.Continuity
import AgentSdk.Journal.Sizes

/-!
# Open creates before a recovery

Until a generation is recovered no receipt is uncertain, and at most one create
is pending or settled as absent: creates are entered one at a time, and only
after a fence, which admits no further one, may a create settle as absent.  So
at most one resource has an identity that its recovery record does not carry.

## Main results

* `Openings.change` — the invariant over one transition.
* `Openings.short` — the identities that the ledgers of a member name.
-/

namespace AgentSdk.Journal

open AgentSdk.Text AgentSdk.Outcome AgentSdk.Json

/-- Pending, uncertain or settled as absent. -/
def ActionReceipt.isOpening (receipt : ActionReceipt) : Bool :=
  receipt.isUnresolved || receipt.settledWith .absent

structure Openings (g : DirtyGeneration) : Prop where
  certain : g.state.isCleanupOnly = false → ∀ owner effect digest,
    g.cell? owner ≠ some (.uncertain effect digest)
  live : g.liveState = true → ∀ owner receipt, g.cell? owner = some receipt →
    owner.action = .resource .create → receipt.settledWith .absent = false
  single : g.state.isCleanupOnly = false → ∀ owner owner' receipt receipt',
    owner.action = .resource .create → owner'.action = .resource .create →
    g.cell? owner = some receipt → g.cell? owner' = some receipt' →
    receipt.isOpening = true → receipt'.isOpening = true → owner = owner'

theorem Openings.of_empty {g : DirtyGeneration} (members : g.members = []) : Openings g := by
  have hcell : ∀ owner, g.cell? owner = none := by
    intro owner
    rw [DirtyGeneration.cell?, DirtyGeneration.member?, members, List.find?_nil, Option.bind_none]
  exact ⟨by simp [hcell], by simp [hcell], by simp [hcell]⟩

section Changes

variable {snapshot : CoordinatorSnapshot} {g g' : DirtyGeneration} {acts : List Act}

/-- A recovery leaves a generation for cleanup only. -/
theorem Change.recovered (h : Change snapshot g g' acts) (slot : Slot g)
    (hact : .recovered ∈ acts) : g'.state.isCleanupOnly = true := by
  cases h with
  | recovers active recovered =>
    rcases recoveredGeneration_ok slot recovered with hidle | hactive
    · rw [hidle.2]
      rfl
    · obtain ⟨entered, member, role, action, ledger, -, -, rfl⟩ := hactive
      rfl
  | _ => simp at hact

/-- The cells of a step outside recovery: untouched, the armed one, or settled where
something was pending. -/
theorem LedgerStep.cell {member next : CoordinatorMember} {role : ResourceRole}
    {ledger ledger' : RoleLedger} (h : LedgerStep snapshot g acts member next role ledger ledger')
    (action : ResourceAction) (certain : ∀ effect digest, ledger.cell action ≠ .uncertain effect digest)
    (active : Act.recovered ∉ acts) :
    ledger'.cell action = ledger.cell action ∨
      (∃ recipe, acts = [.armed recipe] ∧ recipe.owner = ownerOf member role action ∧
        ledger'.cell action = .pending recipe.effectSequence) ∨
      ∃ effect effect' outcome digest atSequence, ledger.cell action = .pending effect ∧
        ledger'.cell action = .settled effect' outcome digest atSequence ∧
        (action = .create → outcome = .absent → g.liveState = false) := by
  cases h with
  | same quiet => exact .inl rfl
  | @armed recipe armed resource act owner original identity admits =>
    rw [(writes_enter armed recipe.effectSequence).cell]
    split
    · rename_i haction
      exact .inr (.inl ⟨recipe, act, haction ▸ owner, rfl⟩)
    · exact .inl rfl
  | returned act isEntered owner same => exact .inl (cell_withPresence ..)
  | @settled entered settled settlement act isEntered owner cell dispatched present absent =>
    rw [(writes_settle _ _ _).cell]
    split
    · rename_i haction
      subst haction
      refine .inr (.inr ⟨_, _, _, _, _, cell, rfl, fun hcreate houtcome => ?_⟩)
      have hproves := absent hcreate houtcome
      simp only [Settlement.provesAbsent, Bool.and_eq_true, Bool.not_eq_true'] at hproves
      exact hproves.1.2
    · exact .inl rfl
  | resolved act ofRole cell keeps absent =>
    rw [(writes_settle _ _ _).cell]
    split
    · rename_i haction
      rw [haction] at certain
      exact absurd cell (certain _ _)
    · exact .inl rfl
  | recovered act isEntered owner cell => exact absurd (by simp [act]) active

theorem Openings.change (openings : Openings g) (slot : Slot g) (h : Change snapshot g g' acts) :
    Openings g' := by
  have hstate := (h.state slot).2
  by_cases hcleanup : g'.state.isCleanupOnly = true
  · refine ⟨fun hnot => ?_, fun hlive => ?_, fun hnot => ?_⟩
    · simp [hcleanup] at hnot
    · simp [((DirtyGeneration.liveState_iff g').1 hlive).2] at hcleanup
    · simp [hcleanup] at hnot
  · have hactive : Act.recovered ∉ acts := fun hact => hcleanup (h.recovered slot hact)
    have hbefore : g.state.isCleanupOnly = false := by
      rcases hstate with hsame | hnow | hlive
      · rw [← hsame]; simpa using hcleanup
      · exact hnow.2
      · exact ((DirtyGeneration.liveState_iff g).1 hlive.1).2
    have hlive : g'.liveState = true → g.liveState = true := by
      intro hnow
      rcases hstate with hsame | hclean | hlive
      · rw [DirtyGeneration.liveState, ← hsame]; exact hnow
      · exact absurd hclean.1 hcleanup
      · exact hlive.1
    -- Where the cells of the new generation come from.
    have hcells : ∀ owner receipt, g'.cell? owner = some receipt →
        g.cell? owner = some receipt ∨ receipt.effect? = none ∨
        (∃ recipe, acts = [.armed recipe] ∧ recipe.owner = owner ∧
          receipt = .pending recipe.effectSequence) ∨
        ∃ effect effect' outcome digest atSequence, g.cell? owner = some (.pending effect) ∧
          receipt = .settled effect' outcome digest atSequence ∧
          (owner.action = .resource .create → outcome = .absent → g.liveState = false) := by
      intro owner receipt hcell
      cases h.cell slot hcell with
      | inr hnewcomer => exact .inr (.inl hnewcomer.2.1)
      | inl hstays =>
        obtain ⟨member, next, role, action, ledger, ledger', hmember, howner, hledger, hstep, rfl⟩ :=
          hstays
        have hold : g.cell? owner = some (ledger.cell action) := by
          rw [howner, cell?_ownerOf (by rw [howner] at hmember; exact hmember)]
          simp [CoordinatorMember.cell?, hledger]
        have hcertain : ∀ effect digest, ledger.cell action ≠ .uncertain effect digest := by
          intro effect digest huncertain
          rw [huncertain] at hold
          exact openings.certain hbefore _ _ _ hold
        rcases hstep.cell action hcertain hactive with hsame | harmed | hsettled
        · exact .inl (by rw [hsame]; exact hold)
        · obtain ⟨recipe, hacts, hown, hpending⟩ := harmed
          exact .inr (.inr (.inl ⟨recipe, hacts, hown.trans howner.symm, hpending⟩))
        · obtain ⟨effect, effect', outcome, digest, at_, hpending, hnow, habsent⟩ := hsettled
          refine .inr (.inr (.inr ⟨effect, effect', outcome, digest, at_, ?_, hnow, ?_⟩))
          · rw [← hpending]
            exact hold
          · intro hcreate
            have haction : action = .create := by simpa [howner, ownerOf] using hcreate
            exact habsent haction
    -- An open create was open before, or has just been armed.
    have hopen : ∀ owner receipt, owner.action = .resource .create → g'.cell? owner = some receipt →
        receipt.isOpening = true →
        (∃ receipt, g.cell? owner = some receipt ∧ receipt.isOpening = true) ∨
          ∃ recipe, acts = [.armed recipe] ∧ recipe.owner = owner := by
      intro owner receipt _ hcell hopening
      rcases hcells owner receipt hcell with hold | hnone | harmed | hsettled
      · exact .inl ⟨receipt, hold, hopening⟩
      · cases receipt <;> simp [ActionReceipt.effect?, ActionReceipt.isOpening,
          ActionReceipt.isUnresolved, ActionReceipt.settledWith] at hnone hopening
      · obtain ⟨recipe, hacts, hown, -⟩ := harmed
        exact .inr ⟨recipe, hacts, hown⟩
      · obtain ⟨effect, _, _, _, _, hpending, -⟩ := hsettled
        exact .inl ⟨_, hpending, by simp [ActionReceipt.isOpening,
          ActionReceipt.isUnresolved]⟩
    -- While a create is armed, none was open.
    have hnone : ∀ recipe, acts = [.armed recipe] → recipe.owner.action = .resource .create →
        ∀ owner receipt, owner.action = .resource .create → g.cell? owner = some receipt →
        receipt.isOpening = false := by
      intro recipe hacts hcreate owner receipt howner hcell
      have hin : .armed recipe ∈ acts := by simp [hacts]
      obtain ⟨-, member, role, action, ledger, hentry⟩ := h.armed hin
      have hgrowth : recipe.action.isGrowth = true := by
        have haction : recipe.action = .resource .create := hcreate
        rw [haction]
        rfl
      have hadmitted := hentry.growth hgrowth
      have habsent := openings.live hadmitted.live owner receipt hcell howner
      cases receipt with
      | not_applicable | not_entered => rfl
      | pending effect =>
        obtain ⟨entered, hentered, -⟩ := slot.pending owner effect hcell
        rw [hentry.free] at hentered
        cases hentered
      | uncertain effect digest => exact absurd hcell (openings.certain hbefore owner effect digest)
      | settled effect outcome digest atSequence =>
        simp [ActionReceipt.isOpening, ActionReceipt.isUnresolved, habsent]
    refine ⟨fun _ owner effect digest hcell => ?_, fun hnow owner receipt hcell hcreate => ?_,
      fun _ owner owner' receipt receipt' hcreate hcreate' hcell hcell' hopening hopening' => ?_⟩
    · rcases hcells owner _ hcell with hold | hnone | harmed | hsettled
      · exact openings.certain hbefore owner effect digest hold
      · simp [ActionReceipt.effect?] at hnone
      · obtain ⟨_, -, -, hpending⟩ := harmed
        cases hpending
      · obtain ⟨_, _, _, _, _, -, hsettled, -⟩ := hsettled
        cases hsettled
    · rcases hcells owner receipt hcell with hold | hnone | harmed | hsettled
      · exact openings.live (hlive hnow) owner receipt hold hcreate
      · cases receipt <;> simp [ActionReceipt.effect?, ActionReceipt.settledWith] at hnone ⊢
      · obtain ⟨_, -, -, rfl⟩ := harmed
        rfl
      · obtain ⟨_, _, outcome, _, _, -, rfl, habsent⟩ := hsettled
        by_contra hyes
        have houtcome : outcome = .absent := by
          simpa [ActionReceipt.settledWith] using hyes
        simp [habsent hcreate houtcome] at hlive
        simp [hlive] at hnow
    · rcases hopen owner receipt hcreate hcell hopening with hold | harmed
      · obtain ⟨before, hbeforeCell, hbeforeOpen⟩ := hold
        rcases hopen owner' receipt' hcreate' hcell' hopening' with hold' | harmed
        · obtain ⟨before', hbeforeCell', hbeforeOpen'⟩ := hold'
          exact openings.single hbefore owner owner' before before' hcreate hcreate' hbeforeCell
            hbeforeCell' hbeforeOpen hbeforeOpen'
        · obtain ⟨recipe, hacts, rfl⟩ := harmed
          simp [hnone recipe hacts hcreate' owner before hcreate hbeforeCell] at hbeforeOpen
      · obtain ⟨recipe, hacts, rfl⟩ := harmed
        rcases hopen owner' receipt' hcreate' hcell' hopening' with hold' | harmed'
        · obtain ⟨before', hbeforeCell', hbeforeOpen'⟩ := hold'
          simp [hnone recipe hacts hcreate owner' before' hcreate' hbeforeCell'] at hbeforeOpen'
        · obtain ⟨recipe', hacts', rfl⟩ := harmed'
          rw [hacts] at hacts'
          cases hacts'
          rfl

end Changes

/-! ## The identities a member names -/

section Members

variable {snapshot : CoordinatorSnapshot} {bound : Nat} {resource : SandboxRecoveryResource}
  {ledger : RoleLedger} {item : CoordinatorMember}

theorem SandboxRecoveryResource.admitted_spec (h : resource.admitted = true) :
    jsonBytes (.str resource.name) ≤ 514 ∧
      ∀ id fingerprint, resource.identity = .identified id fingerprint →
        jsonBytes (.str id) ≤ 514 := by
  simp only [SandboxRecoveryResource.admitted, Bool.and_eq_true] at h
  refine ⟨identity_le h.1, fun id fingerprint hid => ?_⟩
  have hidentity := h.2
  simp only [hid, SandboxResourceIdentity.admitted, Bool.and_eq_true] at hidentity
  exact identity_le hidentity.1

/-- A ledger whose create is not open names its resource as the record does. -/
theorem LedgerSound.short (h : LedgerSound snapshot bound resource ledger)
    (admitted : resource.admitted = true) (closed : ledger.create.isOpening = false) :
    ∀ id ∈ ledger.presence.named?, jsonBytes (.str id) ≤ 514 := by
  obtain ⟨hname, hidentity⟩ := SandboxRecoveryResource.admitted_spec admitted
  simp only [ActionReceipt.isOpening, Bool.or_eq_false_iff] at closed
  intro id hid
  cases hp : ledger.presence with
  | not_entered proved => simp [hp, Presence.named?] at hid
  | possibly_present effect returnedId => simp [(h.possibly hp).1] at closed
  | present found fingerprint digest runtime =>
    simp only [hp, Presence.named?, Option.mem_def, Option.some.injEq] at hid
    subst hid
    exact hidentity _ _ (h.present hp).1
  | absent reference fingerprint inspected late =>
    simp only [hp, Presence.named?, Option.mem_def, Option.some.injEq] at hid
    subst hid
    cases hresource : resource.identity with
    | identified found known =>
      rw [(h.absent hp).1 found known hresource]
      exact hidentity _ _ hresource
    | planned | creating =>
      have hpresence := h.presence
      simp only [hp, Presence.contradicts, hresource, closed.2, Bool.false_eq_true, if_false,
        Bool.or_eq_false_iff, bne_eq_false_iff_eq] at hpresence
      rw [hpresence.2.1]
      exact hname

theorem admitted_of_shape (shape : item.shape = true) :
    item.checkpoint.record.admitted = true := by
  simp only [CoordinatorMember.shape, Checkpoint.shape, Bool.and_eq_true] at shape
  obtain ⟨⟨⟨⟨⟨⟨-, ⟨-, hparsed⟩, -⟩, -⟩, -⟩, -⟩, -⟩, -⟩ := shape
  cases hrecord : parseSandboxRecoveryRecord item.checkpoint.record with
  | error refusal => simp [hrecord, Except.isOk, Except.toBool] at hparsed
  | ok parsed => exact (parseSandboxRecoveryRecord_eq_ok hrecord).1

theorem resource_admitted (shape : item.shape = true) {resource : SandboxRecoveryResource}
    (hmem : resource ∈ item.checkpoint.record.resources) : resource.admitted = true := by
  have hadmitted := admitted_of_shape shape
  simp only [SandboxRecoveryRecord.admitted, Bool.and_eq_true] at hadmitted
  obtain ⟨⟨⟨⟨⟨-, hresources⟩, -⟩, -⟩, -⟩, -⟩ := hadmitted
  exact List.all_eq_true.1 hresources resource hmem

/-- At most one ledger of a member names an identity that its record does not
carry. -/
theorem Openings.short {g : DirtyGeneration} (openings : Openings g)
    (active : g.state.isCleanupOnly = false) (sound : MemberSound snapshot g item)
    (shape : item.shape = true) (found : g.member? item.memberId = some item) :
    ∃ long, ∀ ledger ∈ item.roles, ledger.role ≠ long →
      ∀ id ∈ ledger.presence.named?, jsonBytes (.str id) ≤ 514 := by
  have hclosed : ∀ ledger ∈ item.roles, ledger.create.isOpening = false →
      ∀ id ∈ ledger.presence.named?, jsonBytes (.str id) ≤ 514 := by
    intro ledger hledger hcreate
    obtain ⟨resource, hresource, hsound⟩ := sound.ledger ledger hledger
    exact hsound.short (resource_admitted shape (SandboxRecoveryRecord.resource?_spec hresource).1)
      hcreate
  by_cases hopen : ∃ ledger ∈ item.roles, ledger.create.isOpening = true
  · obtain ⟨first, hfirst, hfirstOpen⟩ := hopen
    refine ⟨first.role, fun ledger hledger hother => hclosed ledger hledger ?_⟩
    by_contra hagain
    have hcell : ∀ entry ∈ item.roles,
        g.cell? (ownerOf item entry.role .create) = some entry.create := by
      intro entry hentry
      rw [cell?_ownerOf found]
      have hlookup : item.ledger? entry.role = some entry := by
        unfold CoordinatorMember.ledger?
        obtain ⟨other, hsome⟩ := Option.isSome_iff_exists.1 (List.find?_isSome.2
          ⟨entry, hentry, by simp⟩ : (item.roles.find? fun ledger =>
            decide (ledger.role = entry.role)).isSome = true)
        rw [hsome]
        have hrole : other.role = entry.role := by simpa using List.find?_some hsome
        rw [List.inj_on_of_nodup_map sound.distinct (List.mem_of_find?_eq_some hsome) hentry hrole]
      simp [CoordinatorMember.cell?, hlookup]
    have hsame := openings.single active _ _ _ _ rfl rfl (hcell ledger hledger) (hcell first hfirst)
      (by simpa using hagain) hfirstOpen
    exact hother (by simpa [ownerOf] using hsame)
  · refine ⟨.compute, fun ledger hledger _ => hclosed ledger hledger ?_⟩
    by_contra hyes
    exact hopen ⟨ledger, hledger, by simpa using hyes⟩

theorem owns_le (shape : item.shape = true) {role : ResourceRole} {id : JsString}
    (h : item.owns role id = true) : jsonBytes (.str id) ≤ 514 := by
  simp only [CoordinatorMember.owns, Bool.and_eq_true, List.any_eq_true, beq_iff_eq] at h
  obtain ⟨⟨resource, hmem, -, hid⟩, -⟩ := h
  obtain ⟨fingerprint, hidentity⟩ := SandboxResourceIdentity.id?_eq_some.1 hid
  exact (SandboxRecoveryResource.admitted_spec (resource_admitted shape hmem)).2 _ _ hidentity

/-- A validated projection names what the record of its member names. -/
theorem validateProjection_named (shape : item.shape = true) {u : Unit}
    (h : validateProjection item = .ok u) : item.projection.Named := by
  unfold validateProjection at h
  cases hprojection : item.projection with
  | none => trivial
  | registered phase facts digest =>
    simp only [hprojection] at h
    obtain ⟨expected, -, h⟩ := bind_eq_ok.1 h
    obtain ⟨-, h⟩ := failIf_bind_eq_ok.1 h
    obtain ⟨-, h⟩ := failIf_bind_eq_ok.1 h
    obtain ⟨howned, h⟩ := failIf_bind_eq_ok.1 h
    obtain ⟨hnetwork, -⟩ := failIf_bind_eq_ok.1 h
    simp only [Bool.not_eq_false, List.all_eq_true] at howned
    refine ⟨fun entry hentry id hid => ?_, fun network hmem => ?_⟩
    · have howns := howned entry hentry
      rw [Option.mem_def.1 hid] at howns
      exact owns_le shape howns
    · rw [Option.mem_def.1 hmem] at hnetwork
      cases hresource : item.checkpoint.record.resource? .network with
      | none => simp [hresource] at hnetwork
      | some resource =>
        simp only [hresource, Option.map_some, Option.any_some, bne_iff_ne, ne_eq,
          Option.some.injEq, not_not] at hnetwork
        rw [← hnetwork]
        have hmem := (SandboxRecoveryRecord.resource?_spec hresource).1
        exact (SandboxRecoveryResource.admitted_spec (resource_admitted shape hmem)).1

end Members

end AgentSdk.Journal
