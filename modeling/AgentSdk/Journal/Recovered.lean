import AgentSdk.Journal.Openings

/-!
# A recovered generation

Recovery turns the pending receipt, of which there is only one, into an uncertain
one, in whichever ledger it is; it leaves everything else that validation looks
at.  So the checks that the crashed snapshot passed are passed again.

## Main results

* `recoveredGeneration_eq` — the recovered generation, member by member.
* `validateMembers_recovered` — the members of a recovered generation are valid.
-/

namespace AgentSdk.Journal

open AgentSdk.Text AgentSdk.Outcome

/-! ## Receipts, ledgers and members -/

def ActionReceipt.recovered (digest : JsString) : ActionReceipt → ActionReceipt
  | .pending effect => .uncertain effect digest
  | receipt => receipt

def RoleLedger.recovered (digest : JsString) (ledger : RoleLedger) : RoleLedger :=
  { ledger with
    create := ledger.create.recovered digest
    start := ledger.start.recovered digest
    controlClose := ledger.controlClose.recovered digest
    delete := ledger.delete.recovered digest }

def CoordinatorMember.recoveredWith (digest : JsString) (member : CoordinatorMember) :
    CoordinatorMember :=
  { member.recovered with roles := member.roles.map (RoleLedger.recovered digest) }

def DirtyGeneration.recoveredWith (digest : JsString) (g : DirtyGeneration) : DirtyGeneration :=
  { g.reopened digest with members := g.members.map (CoordinatorMember.recoveredWith digest) }

section Receipts

variable (digest : JsString) (receipt : ActionReceipt)

@[simp] theorem recovered_effect? : (receipt.recovered digest).effect? = receipt.effect? := by
  cases receipt <;> rfl

@[simp] theorem recovered_isUnresolved :
    (receipt.recovered digest).isUnresolved = receipt.isUnresolved := by
  cases receipt <;> rfl

@[simp] theorem recovered_settledWith (outcome : ActionOutcome) :
    (receipt.recovered digest).settledWith outcome = receipt.settledWith outcome := by
  cases receipt <;> rfl

@[simp] theorem recovered_eq_not_entered :
    receipt.recovered digest = .not_entered ↔ receipt = .not_entered := by
  cases receipt <;> simp [ActionReceipt.recovered]

@[simp] theorem recovered_eq_not_applicable :
    receipt.recovered digest = .not_applicable ↔ receipt = .not_applicable := by
  cases receipt <;> simp [ActionReceipt.recovered]

@[simp] theorem cell_recovered (ledger : RoleLedger) (action : ResourceAction) :
    (ledger.recovered digest).cell action = (ledger.cell action).recovered digest := by
  cases action <;> rfl

theorem recovered_of_not_pending (h : ∀ effect, receipt ≠ .pending effect) :
    receipt.recovered digest = receipt := by
  cases receipt with
  | pending effect => exact absurd rfl (h effect)
  | not_applicable | not_entered | uncertain | settled => rfl

end Receipts

/-- A ledger is its role, its presence and its cells. -/
theorem RoleLedger.ext_cells {ledger ledger' : RoleLedger} (role : ledger.role = ledger'.role)
    (presence : ledger.presence = ledger'.presence)
    (cells : ∀ action, ledger.cell action = ledger'.cell action) : ledger = ledger' := by
  obtain ⟨role₁, presence₁, create₁, start₁, close₁, delete₁⟩ := ledger
  obtain ⟨role₂, presence₂, create₂, start₂, close₂, delete₂⟩ := ledger'
  have hcreate := cells .create
  have hstart := cells .start
  have hclose := cells .control_close
  have hdelete := cells .delete
  simp only [RoleLedger.cell] at role presence hcreate hstart hclose hdelete
  subst role presence hcreate hstart hclose hdelete
  rfl

/-! ## The generation -/

section Generation

variable {snapshot : CoordinatorSnapshot} {g : DirtyGeneration} {digest : JsString}

theorem member?_of_mem (sound : GenerationSound snapshot g) {item : CoordinatorMember}
    (hitem : item ∈ g.members) : g.member? item.memberId = some item := by
  obtain ⟨found, hfound⟩ := Option.isSome_iff_exists.1 (List.find?_isSome.2 ⟨item, hitem, by simp⟩ :
    (g.members.find? fun member => decide (member.memberId = item.memberId)).isSome = true)
  have hid : found.memberId = item.memberId := by simpa using List.find?_some hfound
  have hmember : g.member? found.memberId = some found := by
    rw [hid]
    exact hfound
  have hsame : item = found := member_unique sound hmember hitem hid.symm
  rw [DirtyGeneration.member?, hfound, hsame]

theorem ledger?_of_mem {item : CoordinatorMember} (distinct : (item.roles.map RoleLedger.role).Nodup)
    {ledger : RoleLedger} (hledger : ledger ∈ item.roles) :
    item.ledger? ledger.role = some ledger := by
  obtain ⟨found, hfound⟩ := Option.isSome_iff_exists.1
    (List.find?_isSome.2 ⟨ledger, hledger, by simp⟩ :
      (item.roles.find? fun entry => decide (entry.role = ledger.role)).isSome = true)
  have hrole : found.role = ledger.role := by simpa using List.find?_some hfound
  rw [CoordinatorMember.ledger?, hfound,
    List.inj_on_of_nodup_map distinct (List.mem_of_find?_eq_some hfound) hledger hrole]

/-- A pending cell of a ledger is the one of the entered effect. -/
theorem Slot.pending_mem (slot : Slot g) (sound : GenerationSound snapshot g)
    {item : CoordinatorMember} (hitem : item ∈ g.members) {ledger : RoleLedger}
    (hledger : ledger ∈ item.roles) {action : ResourceAction} {effect : Nat}
    (hcell : ledger.cell action = .pending effect) :
    ∃ entered ∈ g.entered, entered.owner = ownerOf item ledger.role action ∧
      entered.effectSequence = effect := by
  refine slot.pending _ effect ?_
  rw [cell?_ownerOf (member?_of_mem sound hitem)]
  simp [CoordinatorMember.cell?, ledger?_of_mem (sound.member item hitem).distinct hledger, hcell]

theorem roles_recovered_of_idle {roles : List RoleLedger}
    (h : ∀ ledger ∈ roles, ∀ action effect, ledger.cell action ≠ .pending effect) :
    roles.map (RoleLedger.recovered digest) = roles := by
  refine (List.map_congr_left fun ledger hledger => ?_).trans (List.map_id' roles)
  refine RoleLedger.ext_cells rfl rfl fun action => ?_
  rw [cell_recovered, recovered_of_not_pending _ _ (h ledger hledger action)]

/-- **The recovered generation**, member by member. -/
theorem recoveredGeneration_eq (slot : Slot g) (sound : GenerationSound snapshot g) :
    recoveredGeneration g digest = .ok (g.recoveredWith digest) := by
  have htotal : ∃ next, recoveredGeneration g digest = .ok next := by
    cases hentered : g.entered with
    | none => exact ⟨_, by simp only [recoveredGeneration, hentered]; rfl⟩
    | some entered =>
      obtain ⟨member, role, action, ledger, hrole, haction, horiginal⟩ :=
        slot.enteredOriginal hentered
      have hid : entered.memberId = member.memberId :=
        congrArg EffectOwner.memberId horiginal.owner
      obtain ⟨⟨number, memberId, role', action', binding, requested⟩, armedAt, revision,
        checkpoint, reference, before, recipe, input, result⟩ := entered
      subst hrole haction hid
      refine ⟨replaceMember (g.reopened digest) (changedRole member.recovered role fun ledger =>
        ledger.setCell (.uncertain number digest) action), ?_⟩
      simp only [recoveredGeneration, hentered, member?_reopened, horiginal.found,
        Option.map_some]
      rfl
  obtain ⟨next, hnext⟩ := htotal
  rw [hnext]
  refine congrArg Except.ok ?_
  rcases recoveredGeneration_ok slot hnext with hidle | hactive
  · obtain ⟨hentered, rfl⟩ := hidle
    unfold DirtyGeneration.recoveredWith
    have hmembers : (g.reopened digest).members =
        g.members.map (CoordinatorMember.recoveredWith digest) := by
      refine List.map_congr_left fun item hitem => ?_
      unfold CoordinatorMember.recoveredWith
      rw [roles_recovered_of_idle]
      · rfl
      · intro ledger hledger action effect hcell
        obtain ⟨entered, hmem, -⟩ := slot.pending_mem sound hitem hledger hcell
        rw [hentered] at hmem
        cases hmem
    rw [← hmembers]
  · obtain ⟨entered, member, role, action, ledger, hentered, horiginal, rfl⟩ := hactive
    have honly : ∀ item ∈ g.members, ∀ entry ∈ item.roles, ∀ act effect,
        entry.cell act = .pending effect →
        item.memberId = member.memberId ∧ entry.role = role ∧ act = action ∧
          effect = entered.effectSequence := by
      intro item hitem entry hentry act effect hcell
      obtain ⟨other, hmem, howner, hsequence⟩ := slot.pending_mem sound hitem hentry hcell
      rw [hentered] at hmem
      cases hmem
      have hsame := horiginal.owner.symm.trans howner
      simp only [ownerOf, EffectOwner.mk.injEq, EffectRole.resource.injEq,
        EffectAction.resource.injEq] at hsame
      exact ⟨hsame.1.symm, hsame.2.1.symm, hsame.2.2.symm, hsequence.symm⟩
    have hmembers : ∀ item ∈ g.members,
        (if item.recovered.memberId = member.memberId then
          changedRole member.recovered role fun ledger =>
            ledger.setCell (.uncertain entered.effectSequence digest) action
          else item.recovered) = item.recoveredWith digest := by
      intro item hitem
      split
      · rename_i hid
        have hitemMember := member_unique sound horiginal.found hitem hid
        subst hitemMember
        have hroles : (changedRole item.recovered role fun ledger =>
            ledger.setCell (.uncertain entered.effectSequence digest) action).roles =
              item.roles.map (RoleLedger.recovered digest) := by
          refine List.map_congr_left fun entry hentry => ?_
          split
          · rename_i hrole
            have hentryLedger : entry = ledger := by
              have hlookup := ledger?_of_mem (sound.member item hitem).distinct hentry
              rw [hrole, horiginal.current] at hlookup
              simpa using hlookup.symm
            subst hentryLedger
            refine RoleLedger.ext_cells (setCell_role ..) (setCell_presence ..) fun act => ?_
            rw [cell_setCell, cell_recovered]
            split
            · rename_i hact
              rw [hact, horiginal.cell]
              rfl
            · rename_i hact
              rw [recovered_of_not_pending]
              exact fun effect hcell => hact (honly item hitem entry hentry act effect hcell).2.2.1
          · rename_i hrole
            refine RoleLedger.ext_cells rfl rfl fun act => ?_
            rw [cell_recovered, recovered_of_not_pending]
            exact fun effect hcell => hrole (honly item hitem entry hentry act effect hcell).2.1
        unfold CoordinatorMember.recoveredWith
        rw [← hroles]
        rfl
      · rename_i hid
        unfold CoordinatorMember.recoveredWith
        rw [roles_recovered_of_idle]
        · rfl
        · intro entry hentry act effect hcell
          exact hid (honly item hitem entry hentry act effect hcell).1
    unfold DirtyGeneration.recoveredWith
    rw [← List.map_congr_left hmembers]
    simp only [replaceMember, DirtyGeneration.reopened, List.map_map]
    rfl

end Generation

/-! ## The checks of a member -/

/-- What the loop over recovered members has met: nothing is pending and no scope
is owned. -/
def Seen.recovered (seen : Seen) : Seen := { seen with pending := [], workTokens := [] }

section Members

variable {snapshot later : CoordinatorSnapshot} {g : DirtyGeneration} {digest : JsString}
  {item : CoordinatorMember} {seen seen' : Seen}

theorem validateResource_recovered {resource : SandboxRecoveryResource}
    (h : validateResource seen resource = .ok seen') :
    validateResource seen.recovered resource = .ok seen'.recovered := by
  unfold validateResource at h ⊢
  obtain ⟨hshared, h⟩ := failIf_bind_eq_ok.1 h
  cases h
  exact failIf_bind_eq_ok.2 ⟨hshared, rfl⟩

/-- A presence contradicts its resource no more at a later sequence. -/
theorem Presence.contradicts_later {presence : Presence} {next : Nat}
    {resource : SandboxRecoveryResource} {create : ActionReceipt}
    (hsequence : snapshot.sequence ≤ later.sequence)
    (h : presence.contradicts snapshot next resource create = false) :
    presence.contradicts later next resource (create.recovered digest) = false := by
  cases presence with
  | not_entered proved =>
    simp only [Presence.contradicts, Bool.or_eq_false_iff, decide_eq_false_iff_not] at h ⊢
    exact ⟨by omega, h.2⟩
  | possibly_present | present => exact h
  | absent reference fingerprint inspected late =>
    simp only [Presence.contradicts, recovered_settledWith, Bool.or_eq_false_iff,
      decide_eq_false_iff_not] at h ⊢
    exact ⟨⟨⟨by omega, by omega⟩, h.1.2⟩, h.2⟩

theorem validateCell_recovered {ledger : RoleLedger} {action : ResourceAction}
    (hsequence : snapshot.sequence ≤ later.sequence)
    (h : validateCell snapshot g item ledger seen action = .ok seen') :
    validateCell later (g.recoveredWith digest) (item.recoveredWith digest)
      (ledger.recovered digest) seen.recovered action = .ok seen'.recovered := by
  unfold validateCell at h ⊢
  obtain ⟨happlicable, h⟩ := failIf_bind_eq_ok.1 h
  refine failIf_bind_eq_ok.2 ⟨?_, ?_⟩
  · simp only [cell_recovered, recovered_eq_not_applicable]
    exact happlicable
  · cases hcell : ledger.cell action with
    | not_applicable | not_entered =>
      simp only [hcell, cell_recovered, ActionReceipt.recovered, ActionReceipt.effect?] at h ⊢
      cases h
      rfl
    | pending | uncertain =>
      simp only [hcell, cell_recovered, ActionReceipt.recovered, ActionReceipt.effect?] at h ⊢
      obtain ⟨hrange, h⟩ := failIf_bind_eq_ok.1 h
      obtain ⟨howner, h⟩ := failIf_bind_eq_ok.1 h
      obtain ⟨hfits, h⟩ := failIf_bind_eq_ok.1 h
      cases h
      exact failIf_bind_eq_ok.2 ⟨hrange, failIf_bind_eq_ok.2 ⟨howner,
        failIf_bind_eq_ok.2 ⟨hfits, rfl⟩⟩⟩
    | settled effect outcome receiptDigest atSequence =>
      simp only [hcell, cell_recovered, ActionReceipt.recovered, ActionReceipt.effect?] at h ⊢
      obtain ⟨hrange, h⟩ := failIf_bind_eq_ok.1 h
      obtain ⟨howner, h⟩ := failIf_bind_eq_ok.1 h
      obtain ⟨hfits, h⟩ := failIf_bind_eq_ok.1 h
      cases h
      refine failIf_bind_eq_ok.2 ⟨?_, failIf_bind_eq_ok.2 ⟨howner,
        failIf_bind_eq_ok.2 ⟨hfits, rfl⟩⟩⟩
      simp only [decide_eq_true_eq, not_or] at hrange ⊢
      exact ⟨hrange.1, hrange.2.1, by omega⟩

theorem validatePresence_recovered (resource : SandboxRecoveryResource) (ledger : RoleLedger) :
    validatePresence resource (ledger.recovered digest) = validatePresence resource ledger := by
  have hcreate : (ledger.recovered digest).create = ledger.create.recovered digest := rfl
  have hstart : (ledger.recovered digest).start = ledger.start.recovered digest := rfl
  have hdelete : (ledger.recovered digest).delete = ledger.delete.recovered digest := rfl
  have hpresence : (ledger.recovered digest).presence = ledger.presence := rfl
  have hentered : (ledger.create.recovered digest != .not_entered) = (ledger.create != .not_entered) := by
    rw [Bool.eq_iff_iff]
    simp
  simp only [validatePresence, hcreate, hstart, hdelete, hpresence, hentered, recovered_effect?,
    recovered_isUnresolved, recovered_settledWith]

theorem validateLedger_recovered {ledger : RoleLedger}
    (hsequence : snapshot.sequence ≤ later.sequence)
    (h : validateLedger snapshot g item seen ledger = .ok seen') :
    validateLedger later (g.recoveredWith digest) (item.recoveredWith digest) seen.recovered
      (ledger.recovered digest) = .ok seen'.recovered := by
  unfold validateLedger at h ⊢
  have hresource : (item.recoveredWith digest).checkpoint.record.resource?
      (ledger.recovered digest).role = item.checkpoint.record.resource? ledger.role := rfl
  rw [hresource]
  cases hfound : item.checkpoint.record.resource? ledger.role with
  | none => simp [hfound] at h
  | some resource =>
    simp only [hfound] at h ⊢
    obtain ⟨hshared, h⟩ := failIf_bind_eq_ok.1 h
    obtain ⟨hpresence, h⟩ := failIf_bind_eq_ok.1 h
    obtain ⟨hruntime, h⟩ := failIf_bind_eq_ok.1 h
    obtain ⟨last, hcells, h⟩ := bind_eq_ok.1 h
    obtain ⟨⟨⟩, hsettled, h⟩ := bind_eq_ok.1 h
    cases h
    have hpresence' : ledger.presence.contradicts later g.nextEffectSequence resource
        (ledger.create.recovered digest) = false :=
      Presence.contradicts_later hsequence (by simpa using hpresence)
    have hcells' : (ResourceAction.all.map id).foldlM (validateCell later
        (g.recoveredWith digest) (item.recoveredWith digest) (ledger.recovered digest))
        (Seen.recovered _) = .ok seen'.recovered :=
      foldlM_ok_map id Seen.recovered
        (fun x action _ y hok => validateCell_recovered hsequence hok) hcells
    rw [List.map_id] at hcells'
    refine failIf_bind_eq_ok.2 ⟨hshared, failIf_bind_eq_ok.2 ⟨?_, failIf_bind_eq_ok.2 ⟨hruntime,
      bind_eq_ok.2 ⟨_, hcells', bind_eq_ok.2 ⟨(), ?_, rfl⟩⟩⟩⟩⟩
    · exact Bool.eq_false_iff.1 hpresence'
    · rw [validatePresence_recovered]
      exact hsettled

theorem validateCheckpoint_recovered {u : Unit} (hsequence : snapshot.sequence ≤ later.sequence)
    (hdaemon : later.daemonId = snapshot.daemonId) (h : validateCheckpoint snapshot item = .ok u) :
    validateCheckpoint later (item.recoveredWith digest) = .ok () := by
  unfold validateCheckpoint at h ⊢
  obtain ⟨recordDigest, hrecord, h⟩ := bind_eq_ok.1 h
  obtain ⟨initialDigest, hinitial, h⟩ := bind_eq_ok.1 h
  have hchecks := failIf_eq_ok.1 h
  refine bind_eq_ok.2 ⟨recordDigest, hrecord, bind_eq_ok.2 ⟨initialDigest, hinitial,
    failIf_eq_ok.2 ?_⟩⟩
  simp only [not_or] at hchecks ⊢
  obtain ⟨h1, h2, h3, h4, h5, h6, h7, h8, h9, h10, h11⟩ := hchecks
  refine ⟨h1, h2, h3, h4, h5, ?_, h7, h8, ?_, h10, ?_⟩
  · rw [hdaemon]
    exact h6
  · have hrevision : ¬snapshot.sequence < item.checkpoint.revision := h9
    show ¬later.sequence < item.checkpoint.revision
    omega
  · have hcheckpoint : (item.recoveredWith digest).checkpoint = item.checkpoint := rfl
    rw [hcheckpoint]
    cases hsink : item.checkpoint.callerSink with
    | healthy => simp
    | failed atSequence =>
      simp only [hsink, decide_eq_true_eq] at h11 ⊢
      omega

theorem validateRoles_recovered {u : Unit} (h : validateRoles item = .ok u) :
    validateRoles (item.recoveredWith digest) = .ok () := by
  have hchecks := failIf_eq_ok.1 h
  refine failIf_eq_ok.2 fun hbad => hchecks ?_
  have hranks : (item.recoveredWith digest).roles.map (fun ledger => ledger.role.rank) =
      item.roles.map fun ledger => ledger.role.rank := by
    simp only [CoordinatorMember.recoveredWith, List.map_map]
    rfl
  have hlength : (item.recoveredWith digest).roles.length = item.roles.length := List.length_map ..
  rcases hbad with hsorted | hcount | hmissing
  · exact .inl (hranks ▸ hsorted)
  · exact .inr (.inl (fun heq => hcount (hlength.trans heq)))
  · obtain ⟨ledger, hledger, hnone⟩ := hmissing
    obtain ⟨before, hbefore, rfl⟩ := List.mem_map.1 hledger
    exact .inr (.inr ⟨before, hbefore, hnone⟩)

theorem roleSettled_recovered (ledger : RoleLedger) :
    roleSettled (ledger.recovered digest) = roleSettled ledger := by
  simp [roleSettled, RoleLedger.cells, RoleLedger.recovered]

theorem validateAllocation_recovered {u : Unit} (hsequence : snapshot.sequence ≤ later.sequence)
    (hauthority : later.authorityId = snapshot.authorityId)
    (hkey : later.engineKey = snapshot.engineKey)
    (h : validateAllocation snapshot g.identity item = .ok u) :
    validateAllocation later (g.recoveredWith digest).identity (item.recoveredWith digest) =
      .ok () := by
  have hallocation : (item.recoveredWith digest).allocation = item.allocation := rfl
  have hbinding : (item.recoveredWith digest).binding = item.binding := rfl
  have hrecord : (item.recoveredWith digest).checkpoint.record = item.checkpoint.record := rfl
  have hnumber : (item.recoveredWith digest).memberSequence = item.memberSequence := rfl
  have hidentity : (g.recoveredWith digest).identity = g.identity := rfl
  have hsettled : (item.recoveredWith digest).roles.all roleSettled = item.roles.all roleSettled := by
    simp only [CoordinatorMember.recoveredWith, List.all_map]
    exact congrArg (item.roles.all ·) (funext roleSettled_recovered)
  unfold validateAllocation at h ⊢
  simp only [hallocation, hbinding, hrecord, hnumber, hidentity, hsettled, hauthority, hkey]
  cases hkind : item.allocation with
  | reserved slot subnet gateway =>
    simp only [hkind] at h ⊢
    exact h
  | released previousSlot releaseSequence =>
    simp only [hkind] at h ⊢
    have hchecks := failIf_eq_ok.1 h
    refine failIf_eq_ok.2 fun hbad => hchecks (hbad.imp_left fun hfuture => ?_)
    omega

theorem validateProjection_recovered :
    validateProjection (item.recoveredWith digest) = validateProjection item := by
  have hprojection : (item.recoveredWith digest).projection = item.projection := rfl
  have hallocation : (item.recoveredWith digest).allocation = item.allocation := rfl
  have hrecord : (item.recoveredWith digest).checkpoint.record = item.checkpoint.record := rfl
  have howns : (item.recoveredWith digest).owns = item.owns := by
    funext role id
    simp only [CoordinatorMember.owns, hrecord]
    rw [show (item.recoveredWith digest).roles = item.roles.map (RoleLedger.recovered digest) from rfl,
      List.any_map]
    rfl
  simp only [validateProjection, hprojection, hallocation, hrecord, howns]

/-- The schema accepts a recovered member. -/
theorem shape_recovered (hdigest : isDigest digest = true) (shape : item.shape = true) :
    (item.recoveredWith digest).shape = true := by
  have hreceipt : ∀ receipt : ActionReceipt, receipt.shape = true →
      (receipt.recovered digest).shape = true := by
    intro receipt hshape
    cases receipt with
    | pending effect =>
      have heffect : isSequence effect = true := hshape
      simp [ActionReceipt.recovered, ActionReceipt.shape, heffect, hdigest]
    | not_applicable => rfl
    | not_entered => rfl
    | uncertain | settled => exact hshape
  have hledger : ∀ ledger : RoleLedger, ledger.shape = true →
      (ledger.recovered digest).shape = true := by
    intro ledger hshape
    simp only [RoleLedger.shape, RoleLedger.cells, List.all_cons, List.all_nil, Bool.and_true,
      Bool.and_eq_true] at hshape ⊢
    exact ⟨hshape.1, hreceipt _ hshape.2.1, hreceipt _ hshape.2.2.1, hreceipt _ hshape.2.2.2.1,
      hreceipt _ hshape.2.2.2.2⟩
  simp only [CoordinatorMember.shape, Bool.and_eq_true] at shape ⊢
  obtain ⟨⟨⟨⟨⟨⟨⟨⟨hid, hsequence⟩, hbinding⟩, hcheckpoint⟩, hallocation⟩, hcount⟩, hledgers⟩,
    hprojection⟩, -⟩ := shape
  refine ⟨⟨⟨⟨⟨⟨⟨⟨hid, hsequence⟩, hbinding⟩, hcheckpoint⟩, hallocation⟩, ?_⟩, ?_⟩, hprojection⟩, ?_⟩
  · simpa [CoordinatorMember.recoveredWith] using hcount
  · simp only [CoordinatorMember.recoveredWith, List.all_map, List.all_eq_true] at hledgers ⊢
    exact fun ledger hmem => hledger ledger (hledgers ledger hmem)
  · rfl

theorem validateMember_recovered (hsequence : snapshot.sequence ≤ later.sequence)
    (hdaemon : later.daemonId = snapshot.daemonId)
    (hauthority : later.authorityId = snapshot.authorityId)
    (hkey : later.engineKey = snapshot.engineKey)
    (hmetadata : bytes (item.recoveredWith digest).metadata ≤
      COORDINATOR_JOURNAL_LIMITS.memberMetadataBytes)
    (h : validateMember snapshot g seen item = .ok seen') :
    validateMember later (g.recoveredWith digest) seen.recovered (item.recoveredWith digest) =
      .ok seen'.recovered := by
  unfold validateMember at h ⊢
  obtain ⟨named, hnamed, h⟩ := bind_eq_ok.1 h
  obtain ⟨⟨⟩, hcheckpoint, h⟩ := bind_eq_ok.1 h
  obtain ⟨⟨⟩, hroles, h⟩ := bind_eq_ok.1 h
  obtain ⟨⟨⟩, hallocation, h⟩ := bind_eq_ok.1 h
  obtain ⟨⟨⟩, hprojection, h⟩ := bind_eq_ok.1 h
  obtain ⟨-, h⟩ := failIf_bind_eq_ok.1 h
  obtain ⟨worked, hwork, h⟩ := bind_eq_ok.1 h
  obtain ⟨last, hledgers, h⟩ := bind_eq_ok.1 h
  obtain ⟨⟨⟩, -, h⟩ := bind_eq_ok.1 h
  cases h
  have hnamed' : (item.checkpoint.record.resources.map id).foldlM validateResource
      seen.recovered = .ok named.recovered :=
    foldlM_ok_map id Seen.recovered
      (fun x resource _ y hok => validateResource_recovered hok) hnamed
  rw [List.map_id] at hnamed'
  have hworked : worked.recovered = named.recovered := by
    unfold validateWork at hwork
    obtain ⟨-, hwork⟩ := failIf_bind_eq_ok.1 hwork
    obtain ⟨-, hwork⟩ := failIf_bind_eq_ok.1 hwork
    cases hwork
    rfl
  have hledgers' : (item.roles.map (RoleLedger.recovered digest)).foldlM (validateLedger later
      (g.recoveredWith digest) (item.recoveredWith digest)) worked.recovered =
        .ok seen'.recovered :=
    foldlM_ok_map (RoleLedger.recovered digest) Seen.recovered
      (fun x ledger _ y hok => validateLedger_recovered hsequence hok) hledgers
  rw [hworked] at hledgers'
  refine bind_eq_ok.2 ⟨named.recovered, hnamed', bind_eq_ok.2 ⟨(),
    validateCheckpoint_recovered hsequence hdaemon hcheckpoint, bind_eq_ok.2 ⟨(),
    validateRoles_recovered hroles, bind_eq_ok.2 ⟨(), validateAllocation_recovered hsequence
    hauthority hkey hallocation, bind_eq_ok.2 ⟨(), ?_, failIf_bind_eq_ok.2 ⟨by omega,
    bind_eq_ok.2 ⟨named.recovered, ?_, bind_eq_ok.2 ⟨_, hledgers',
    bind_eq_ok.2 ⟨(), ?_, rfl⟩⟩⟩⟩⟩⟩⟩⟩⟩
  · rw [validateProjection_recovered]
    exact hprojection
  · refine failIf_bind_eq_ok.2 ⟨?_, failIf_bind_eq_ok.2 ⟨?_, rfl⟩⟩
    · simp [CoordinatorMember.recoveredWith, CoordinatorMember.recovered, WorkOwnership.all,
        WorkOwnership.tokens, WorkOwnership.scopes]
    · simp [CoordinatorMember.recoveredWith, CoordinatorMember.recovered, WorkOwnership.all,
        WorkOwnership.tokens, WorkOwnership.scopes]
  · exact failIf_eq_ok.2 (by simp [CoordinatorMember.recoveredWith, CoordinatorMember.recovered])

end Members

end AgentSdk.Journal
