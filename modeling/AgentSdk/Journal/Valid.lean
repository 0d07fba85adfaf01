import AgentSdk.Journal.Schema

/-!
# What validation guarantees

A committed snapshot passed `validateSnapshot`.  The facts below are read off
that check once: they are about the members and tombstones of a generation, about
one ledger, and about the effect that owns the physical slot.

## Main results

* `Valid.ledger` — the presence, the cells and the resource of a ledger agree.
* `Valid.pending_iff` — the entered effect owns the only pending cell.
-/

namespace AgentSdk.Journal

open AgentSdk.Text AgentSdk.Outcome

/-! ## Sorted keys -/

theorem sortedUnique_cons {k : Nat} {keys : List Nat} (h : sortedUnique (k :: keys) = true) :
    sortedUnique keys = true ∧ ∀ j ∈ keys, k < j := by
  induction keys generalizing k with
  | nil => exact ⟨rfl, by simp⟩
  | cons j keys ih =>
    simp only [sortedUnique, List.tail_cons, List.zip_cons_cons, List.all_cons, Bool.and_eq_true,
      decide_eq_true_eq] at h
    have htail : sortedUnique (j :: keys) = true := h.2
    refine ⟨htail, fun i hi => ?_⟩
    rcases List.mem_cons.1 hi with hij | hmem
    · exact hij ▸ h.1
    · exact Nat.lt_trans h.1 ((ih htail).2 i hmem)

theorem sortedUnique_nodup {keys : List Nat} (h : sortedUnique keys = true) : keys.Nodup := by
  induction keys with
  | nil => exact List.nodup_nil
  | cons k keys ih =>
    obtain ⟨htail, hlt⟩ := sortedUnique_cons h
    exact List.nodup_cons.2 ⟨fun hmem => Nat.lt_irrefl _ (hlt k hmem), ih htail⟩

/-! ## One ledger -/

/-- What validation says about a ledger of a member. -/
structure LedgerSound (snapshot : CoordinatorSnapshot) (nextEffectSequence : Nat)
    (resource : SandboxRecoveryResource) (ledger : RoleLedger) : Prop where
  presence : ledger.presence.contradicts snapshot nextEffectSequence resource ledger.create = false
  numbered : ∀ action, ∀ effect ∈ (ledger.cell action).effect?,
    0 < effect ∧ effect < nextEffectSequence
  applicable : ∀ action, ledger.cell action = .not_applicable → applicableAction ledger.role action = false
  fits : ∀ action outcome, (ledger.cell action).settledWith outcome = true → outcome.fits action = true
  settled : validatePresence resource ledger = .ok ()

namespace LedgerSound

variable {snapshot : CoordinatorSnapshot} {next : Nat} {resource : SandboxRecoveryResource}
  {ledger : RoleLedger}

/-- A possible presence belongs to an open create. -/
theorem possibly (h : LedgerSound snapshot next resource ledger) {effect : Nat}
    {returnedId : Option JsString} (hp : ledger.presence = .possibly_present effect returnedId) :
    ledger.create.isUnresolved = true ∧ ledger.create.effect? = some effect ∧
      resource.identity ≠ .planned ∧
      ∀ id fingerprint, resource.identity = .identified id fingerprint →
        ∀ returned ∈ returnedId, returned = id := by
  have hsettled := h.settled
  unfold validatePresence at hsettled
  obtain ⟨hopen, -⟩ := failIf_bind_eq_ok.1 hsettled
  have hpresence := h.presence
  simp only [hp, Presence.contradicts, Bool.or_eq_false_iff] at hpresence
  simp only [hp, Bool.or_eq_true, Bool.not_eq_true', bne_iff_ne, ne_eq, not_or, not_not,
    Bool.not_eq_false] at hopen
  refine ⟨hopen.1, hopen.2, by simpa using hpresence.1.1, fun id fingerprint hid returned hret => ?_⟩
  have hreturned := hpresence.2
  rw [hid, Option.mem_def.1 hret] at hreturned
  simpa using hreturned

/-- A present resource is the identified one, and its create is settled. -/
theorem present (h : LedgerSound snapshot next resource ledger) {id fingerprint digest : JsString}
    {runtime : Runtime} (hp : ledger.presence = .present id fingerprint digest runtime) :
    resource.identity = .identified id fingerprint ∧ ledger.create.settledWith .present = true := by
  have hpresence := h.presence
  simp only [hp, Presence.contradicts, bne_eq_false_iff_eq] at hpresence
  have hsettled := h.settled
  unfold validatePresence at hsettled
  obtain ⟨-, hsettled⟩ := failIf_bind_eq_ok.1 hsettled
  obtain ⟨-, hsettled⟩ := failIf_bind_eq_ok.1 hsettled
  obtain ⟨hacquired, -⟩ := failIf_bind_eq_ok.1 hsettled
  refine ⟨hpresence, ?_⟩
  simpa [hp] using hacquired

/-- An absent resource is named by its identity, when it has one. -/
theorem absent (h : LedgerSound snapshot next resource ledger) {reference : JsString}
    {fingerprint : Option JsString} {inspected late : Nat}
    (hp : ledger.presence = .absent reference fingerprint inspected late) :
    (∀ id known, resource.identity = .identified id known → reference = id) ∧
      (resource.identity.isIdentified = false → fingerprint = none) := by
  have hpresence := h.presence
  simp only [hp, Presence.contradicts, Bool.or_eq_false_iff] at hpresence
  refine ⟨fun id known hid => ?_, fun hid => ?_⟩
  · have hnamed := hpresence.2
    rw [hid] at hnamed
    simp only [Bool.or_eq_false_iff, bne_eq_false_iff_eq] at hnamed
    exact hnamed.1
  · have hnamed := hpresence.2
    cases hidentity : resource.identity with
    | identified id known => simp [hidentity] at hid
    | planned =>
      simp only [hidentity] at hnamed
      by_cases hcreate : ledger.create.settledWith .absent = true
      · simp [hcreate] at hnamed
      · simp only [hcreate, Bool.false_eq_true, if_false, Bool.or_eq_false_iff] at hnamed
        simpa using hnamed.2
    | creating =>
      simp only [hidentity] at hnamed
      by_cases hcreate : ledger.create.settledWith .absent = true
      · simpa [hcreate] using hnamed
      · simp only [hcreate, Bool.false_eq_true, if_false, Bool.or_eq_false_iff] at hnamed
        simpa using hnamed.2

/-- A resource that was identified is not known by proof of absence alone. -/
theorem not_entered (h : LedgerSound snapshot next resource ledger) {proved : Nat}
    (hp : ledger.presence = .not_entered proved) : resource.identity.isIdentified = false := by
  have hpresence := h.presence
  simp only [hp, Presence.contradicts, Bool.or_eq_false_iff] at hpresence
  exact hpresence.2

/-- What the settled outcomes of a ledger say about its resource. -/
theorem outcomes (h : LedgerSound snapshot next resource ledger) :
    (ledger.create.settledWith .present = true → resource.identity.isIdentified = true) ∧
      (ledger.create.settledWith .absent = true →
        ∃ reference fingerprint inspected late,
          ledger.presence = .absent reference fingerprint inspected late) := by
  have hsettled := h.settled
  unfold validatePresence at hsettled
  obtain ⟨-, hsettled⟩ := failIf_bind_eq_ok.1 hsettled
  obtain ⟨-, hsettled⟩ := failIf_bind_eq_ok.1 hsettled
  obtain ⟨-, hsettled⟩ := failIf_bind_eq_ok.1 hsettled
  have hlast := failIf_eq_ok.1 hsettled
  simp only [Bool.or_eq_true, Bool.and_eq_true, Bool.not_eq_true', not_or, not_and,
    Bool.not_eq_false] at hlast
  refine ⟨hlast.1.1.1, fun habsent => ?_⟩
  have hpresence := hlast.1.1.2 habsent
  cases hp : ledger.presence with
  | absent reference fingerprint inspected late => exact ⟨_, _, _, _, rfl⟩
  | not_entered | possibly_present | present => simp [hp] at hpresence

end LedgerSound

/-! ## Pending cells -/

/-- The effect of a pending receipt. -/
def ActionReceipt.pending? : ActionReceipt → List Nat
  | .pending effect => [effect]
  | _ => []

/-- The pending effects of a ledger, in the order of its cells. -/
def RoleLedger.pending (ledger : RoleLedger) : List Nat :=
  ResourceAction.all.flatMap fun action => (ledger.cell action).pending?

def CoordinatorMember.pending (member : CoordinatorMember) : List Nat :=
  member.roles.flatMap RoleLedger.pending

section Loop

variable {snapshot : CoordinatorSnapshot} {generation : DirtyGeneration} {item : CoordinatorMember}

/-- What a passed check of a cell says, and what it appends. -/
theorem validateCell_ok {ledger : RoleLedger} {action : ResourceAction} {seen seen' : Seen}
    (h : validateCell snapshot generation item ledger seen action = .ok seen') :
    (ledger.cell action = .not_applicable → applicableAction ledger.role action = false) ∧
      (∀ effect ∈ (ledger.cell action).effect?,
        0 < effect ∧ effect < generation.nextEffectSequence) ∧
      (∀ outcome, (ledger.cell action).settledWith outcome = true → outcome.fits action = true) ∧
      seen'.pending = seen.pending ++ (ledger.cell action).pending? := by
  unfold validateCell at h
  obtain ⟨happlicable, h⟩ := failIf_bind_eq_ok.1 h
  have hcell : ledger.cell action = .not_applicable → applicableAction ledger.role action = false := by
    intro hcell
    cases hrole : applicableAction ledger.role action with
    | false => rfl
    | true => exact absurd (by simp [hrole, hcell]) happlicable
  refine ⟨hcell, ?_⟩
  cases hreceipt : ledger.cell action with
  | not_applicable | not_entered =>
    simp only [hreceipt, ActionReceipt.effect?] at h
    cases h
    simp [ActionReceipt.effect?, ActionReceipt.settledWith, ActionReceipt.pending?]
  | pending | uncertain =>
    simp only [hreceipt, ActionReceipt.effect?] at h
    obtain ⟨hrange, h⟩ := failIf_bind_eq_ok.1 h
    obtain ⟨-, h⟩ := failIf_bind_eq_ok.1 h
    obtain ⟨-, h⟩ := failIf_bind_eq_ok.1 h
    cases h
    refine ⟨fun n hn => ?_, by simp [ActionReceipt.settledWith], by simp [ActionReceipt.pending?]⟩
    simp only [ActionReceipt.effect?, Option.mem_def, Option.some.injEq] at hn
    subst hn
    omega
  | settled effect outcome digest atSequence =>
    simp only [hreceipt, ActionReceipt.effect?] at h
    obtain ⟨hrange, h⟩ := failIf_bind_eq_ok.1 h
    obtain ⟨-, h⟩ := failIf_bind_eq_ok.1 h
    obtain ⟨hfits, h⟩ := failIf_bind_eq_ok.1 h
    cases h
    refine ⟨fun n hn => ?_, fun found hfound => ?_, by simp [ActionReceipt.pending?]⟩
    · simp only [ActionReceipt.effect?, Option.mem_def, Option.some.injEq] at hn
      subst hn
      omega
    · simp only [ActionReceipt.settledWith, beq_iff_eq] at hfound
      subst hfound
      simpa using hfits

theorem validateLedger_ok {ledger : RoleLedger} {seen seen' : Seen}
    (h : validateLedger snapshot generation item seen ledger = .ok seen') :
    (∃ resource, item.checkpoint.record.resource? ledger.role = some resource ∧
      LedgerSound snapshot generation.nextEffectSequence resource ledger) ∧
      seen'.pending = seen.pending ++ ledger.pending := by
  unfold validateLedger at h
  cases hresource : item.checkpoint.record.resource? ledger.role with
  | none => simp [hresource] at h
  | some resource =>
    simp only [hresource] at h
    obtain ⟨-, h⟩ := failIf_bind_eq_ok.1 h
    obtain ⟨hpresence, h⟩ := failIf_bind_eq_ok.1 h
    obtain ⟨-, h⟩ := failIf_bind_eq_ok.1 h
    obtain ⟨last, hcells, h⟩ := bind_eq_ok.1 h
    obtain ⟨⟨⟩, hsettled, h⟩ := bind_eq_ok.1 h
    cases h
    have hcell : ∀ action, ∃ x y,
        validateCell snapshot generation item ledger x action = .ok y := by
      intro action
      exact foldlM_ok_mem hcells action (by cases action <;> simp [ResourceAction.all])
    refine ⟨⟨resource, rfl, by simpa using hpresence, ?_, ?_, ?_, hsettled⟩, ?_⟩
    · intro action
      obtain ⟨x, y, hok⟩ := hcell action
      exact (validateCell_ok hok).2.1
    · intro action
      obtain ⟨x, y, hok⟩ := hcell action
      exact (validateCell_ok hok).1
    · intro action
      obtain ⟨x, y, hok⟩ := hcell action
      exact (validateCell_ok hok).2.2.1
    · have hread := foldlM_ok_read Seen.pending (fun action => (ledger.cell action).pending?)
        (fun x action _ y hok => (validateCell_ok hok).2.2.2) hcells
      exact hread

theorem validateResource_pending {resource : SandboxRecoveryResource} {seen seen' : Seen}
    (h : validateResource seen resource = .ok seen') : seen'.pending = seen.pending := by
  unfold validateResource at h
  obtain ⟨-, h⟩ := failIf_bind_eq_ok.1 h
  cases h
  rfl

theorem validateWork_ok {seen seen' : Seen} (h : validateWork generation item seen = .ok seen') :
    (generation.state.isCleanupOnly = true → item.work.tokens = []) ∧
      seen'.pending = seen.pending := by
  unfold validateWork at h
  obtain ⟨-, h⟩ := failIf_bind_eq_ok.1 h
  obtain ⟨htokens, h⟩ := failIf_bind_eq_ok.1 h
  cases h
  refine ⟨fun hcleanup => ?_, rfl⟩
  by_contra hne
  exact htokens ⟨hcleanup, hne⟩

end Loop

/-! ## One member -/

/-- What validation says about a member of a dirty generation. -/
structure MemberSound (snapshot : CoordinatorSnapshot) (generation : DirtyGeneration)
    (item : CoordinatorMember) : Prop where
  ledger : ∀ ledger ∈ item.roles, ∃ resource,
    item.checkpoint.record.resource? ledger.role = some resource ∧
      LedgerSound snapshot generation.nextEffectSequence resource ledger
  distinct : (item.roles.map RoleLedger.role).Nodup
  work : generation.state.isCleanupOnly = true → item.work.tokens = []
  operation : item.checkpoint.record.operationId = item.memberId
  daemon : ∀ identity, item.checkpoint.record.authority = .verified identity →
    identity = snapshot.daemonId

theorem validateCheckpoint_ok {snapshot : CoordinatorSnapshot} {item : CoordinatorMember} {u : Unit}
    (h : validateCheckpoint snapshot item = .ok u) :
    item.checkpoint.record.operationId = item.memberId ∧
      ∀ identity, item.checkpoint.record.authority = .verified identity →
        identity = snapshot.daemonId := by
  unfold validateCheckpoint at h
  obtain ⟨recordDigest, -, h⟩ := bind_eq_ok.1 h
  obtain ⟨initialDigest, -, h⟩ := bind_eq_ok.1 h
  have hchecks := failIf_eq_ok.1 h
  simp only [not_or] at hchecks
  refine ⟨not_not.1 hchecks.1, fun identity hauthority => ?_⟩
  have hdaemon := hchecks.2.2.2.2.2.1
  simpa [hauthority] using hdaemon

theorem validateMember_ok {snapshot : CoordinatorSnapshot} {generation : DirtyGeneration}
    {item : CoordinatorMember} {seen seen' : Seen}
    (h : validateMember snapshot generation seen item = .ok seen') :
    MemberSound snapshot generation item ∧ seen'.pending = seen.pending ++ item.pending := by
  unfold validateMember at h
  obtain ⟨named, hnamed, h⟩ := bind_eq_ok.1 h
  obtain ⟨⟨⟩, hcheckpoint, h⟩ := bind_eq_ok.1 h
  obtain ⟨⟨⟩, hroles, h⟩ := bind_eq_ok.1 h
  obtain ⟨⟨⟩, -, h⟩ := bind_eq_ok.1 h
  obtain ⟨⟨⟩, -, h⟩ := bind_eq_ok.1 h
  obtain ⟨-, h⟩ := failIf_bind_eq_ok.1 h
  obtain ⟨worked, hwork, h⟩ := bind_eq_ok.1 h
  obtain ⟨last, hledgers, h⟩ := bind_eq_ok.1 h
  obtain ⟨⟨⟩, -, h⟩ := bind_eq_ok.1 h
  cases h
  have hsorted : sortedUnique (item.roles.map fun ledger => ledger.role.rank) = true := by
    by_contra hne
    exact failIf_eq_ok.1 hroles (.inl (by simpa using hne))
  have hdistinct : (item.roles.map RoleLedger.role).Nodup := by
    have hranks := sortedUnique_nodup hsorted
    rw [show (fun ledger : RoleLedger => ledger.role.rank) =
      ResourceRole.rank ∘ RoleLedger.role from rfl, ← List.map_map] at hranks
    exact hranks.of_map _
  constructor
  · refine ⟨fun ledger hledger => ?_, hdistinct, (validateWork_ok hwork).1,
      (validateCheckpoint_ok hcheckpoint).1, (validateCheckpoint_ok hcheckpoint).2⟩
    obtain ⟨x, y, hok⟩ := foldlM_ok_mem hledgers ledger hledger
    exact (validateLedger_ok hok).1
  · have hresources : named.pending = seen.pending := by
      have hread := foldlM_ok_read Seen.pending (fun _ => [])
        (fun x resource _ y hok => by simpa using validateResource_pending hok) hnamed
      rw [hread, List.flatMap_eq_nil_iff.2 fun _ _ => rfl, List.append_nil]
    have hread := foldlM_ok_read Seen.pending RoleLedger.pending
      (fun x ledger _ y hok => (validateLedger_ok hok).2) hledgers
    rw [hread, (validateWork_ok hwork).2, hresources]
    rfl

/-! ## A generation -/

/-- What validation says about the entered effect. -/
structure EnteredSound (generation : DirtyGeneration) (entered : EnteredEffect)
    (member : CoordinatorMember) (resource : SandboxRecoveryResource) (role : ResourceRole)
    (action : ResourceAction) : Prop where
  found : generation.member? entered.memberId = some member
  original : member.checkpoint.record.resource? role = some resource
  ofRole : entered.role = .resource role
  ofAction : entered.action = .resource action
  identity : if action = .create then resource.identity = .creating
    else resource.identity.isIdentified = true
  result : entered.result ≠ .unobserved → action = .create
  create : action = .create → ∃ effect,
    (member.ledger? role).map RoleLedger.presence =
      some (.possibly_present effect entered.result.returnedId)

/-- What validation says about a dirty generation. -/
structure GenerationSound (snapshot : CoordinatorSnapshot) (generation : DirtyGeneration) :
    Prop where
  ids : (generation.everyone.map Prod.fst).Nodup
  sequences : (generation.everyone.map Prod.snd).Nodup
  numbered : ∀ item ∈ generation.everyone, item.2 < generation.nextMemberSequence
  slots : generation.slots.Nodup
  member : ∀ item ∈ generation.members, MemberSound snapshot generation item
  owners : (generation.effects.map QueuedEffect.owner).Nodup
  queued : ∀ effect ∈ generation.effects, effect.effectSequence < generation.nextEffectSequence ∧
    (generation.member? effect.memberId).isSome = true ∧
    (generation.state.isCleanupOnly = true → effect.action.isGrowth = false)
  pending : generation.members.flatMap CoordinatorMember.pending =
    generation.entered.toList.map fun entered => entered.effectSequence
  entered : ∀ entered ∈ generation.entered, ∃ member resource role action,
    EnteredSound generation entered member resource role action

theorem validateEntered_ok {snapshot : CoordinatorSnapshot} {generation : DirtyGeneration}
    {seen : Seen} {entered : EnteredEffect} {u : Unit}
    (h : validateEntered snapshot generation seen entered = .ok u) :
    (∃ member resource role action, EnteredSound generation entered member resource role action) ∧
      seen.pending = [entered.effectSequence] := by
  unfold validateEntered at h
  cases hmember : generation.member? entered.memberId with
  | none => simp [hmember] at h
  | some member =>
  cases hrole : entered.role with
  | member => simp [hmember, hrole] at h
  | resource role =>
  cases haction : entered.action with
  | member_retire => simp [hmember, hrole, haction] at h
  | resource action =>
  cases hresource : member.checkpoint.record.resource? role with
  | none => simp [hmember, hrole, haction, hresource] at h
  | some resource =>
  simp only [hmember, hrole, haction, hresource] at h
  obtain ⟨hbinding, h⟩ := failIf_bind_eq_ok.1 h
  obtain ⟨hcreate, h⟩ := failIf_bind_eq_ok.1 h
  have hpending := failIf_eq_ok.1 h
  simp only [not_or, not_and, not_not] at hbinding hcreate hpending
  refine ⟨⟨member, resource, role, action, hmember, hresource, hrole, haction, ?_, ?_, ?_⟩, hpending⟩
  · have hidentity := hbinding.2.2.2.2.2.1
    by_cases hc : action = .create
    · simpa [hc] using hidentity
    · simpa [hc] using hidentity
  · exact hbinding.2.2.2.2.2.2.2
  · intro hc
    have hpresence := hcreate hc
    cases hledger : (member.ledger? role).map RoleLedger.presence with
    | none => simp [hledger] at hpresence
    | some presence =>
      cases presence with
      | possibly_present effect returnedId =>
        refine ⟨effect, ?_⟩
        rw [hledger] at hpresence
        simpa using hpresence
      | not_entered | present | absent => simp [hledger] at hpresence

theorem validateEffect_ok {snapshot : CoordinatorSnapshot} {generation : DirtyGeneration}
    {seen : Seen} {queued : Bool} {effect : QueuedEffect} {size : Nat} {u : Unit}
    (h : validateEffect snapshot generation seen queued effect size = .ok u) :
    effect.effectSequence < generation.nextEffectSequence ∧
      (generation.member? effect.memberId).isSome = true ∧
      (generation.state.isCleanupOnly = true → effect.action.isGrowth = false) := by
  unfold validateEffect at h
  obtain ⟨hbound, -⟩ := failIf_bind_eq_ok.1 h
  simp only [not_or, not_and] at hbound
  refine ⟨Nat.not_le.1 hbound.2.2.1, ?_, fun hcleanup => by simpa using hbound.2.2.2.2.2.2 hcleanup⟩
  cases hmember : generation.member? effect.memberId with
  | none => simp [hmember] at hbound
  | some member => rfl

theorem validateCounters_ok {snapshot : CoordinatorSnapshot} {generation : DirtyGeneration}
    {u : Unit} (h : validateCounters snapshot generation = .ok u) :
    (generation.everyone.map Prod.fst).Nodup ∧ (generation.everyone.map Prod.snd).Nodup ∧
      (∀ item ∈ generation.everyone, item.2 < generation.nextMemberSequence) ∧
      generation.slots.Nodup := by
  unfold validateCounters at h
  obtain ⟨-, h⟩ := failIf_bind_eq_ok.1 h
  obtain ⟨-, h⟩ := failIf_bind_eq_ok.1 h
  obtain ⟨-, h⟩ := failIf_bind_eq_ok.1 h
  obtain ⟨-, h⟩ := failIf_bind_eq_ok.1 h
  obtain ⟨heveryone, h⟩ := failIf_bind_eq_ok.1 h
  have hslots := failIf_eq_ok.1 h
  simp only [not_or, not_not, not_exists, not_and] at heveryone hslots
  exact ⟨heveryone.1, heveryone.2.1,
    fun item hitem => Nat.not_le.1 (heveryone.2.2 item hitem).2.1, hslots⟩

theorem validateDirty_ok {snapshot : CoordinatorSnapshot} {generation : DirtyGeneration} {u : Unit}
    (h : validateDirty snapshot generation = .ok u) : GenerationSound snapshot generation := by
  unfold validateDirty at h
  obtain ⟨⟨⟩, hcounters, h⟩ := bind_eq_ok.1 h
  obtain ⟨seen, hmembers, h⟩ := bind_eq_ok.1 h
  obtain ⟨howners, h⟩ := failIf_bind_eq_ok.1 h
  obtain ⟨-, h⟩ := failIf_bind_eq_ok.1 h
  obtain ⟨⟨⟩, hqueue, h⟩ := bind_eq_ok.1 h
  obtain ⟨⟨⟩, henter, h⟩ := bind_eq_ok.1 h
  obtain ⟨⟨⟩, hentered, -⟩ := bind_eq_ok.1 h
  obtain ⟨hids, hsequences, hnumbered, hslots⟩ := validateCounters_ok hcounters
  have hseen : seen.pending = generation.members.flatMap CoordinatorMember.pending :=
    foldlM_ok_read Seen.pending CoordinatorMember.pending
      (fun x item _ y hok => (validateMember_ok hok).2) hmembers
  refine ⟨hids, hsequences, hnumbered, hslots, fun item hitem => ?_, ?_, fun effect heffect => ?_,
    ?_, fun entered hmem => ?_⟩
  · obtain ⟨x, y, hok⟩ := foldlM_ok_mem hmembers item hitem
    exact (validateMember_ok hok).1
  · by_contra hne
    exact howners (.inr hne)
  · rcases List.mem_append.1 heffect with hqueued | hlast
    · exact validateEffect_ok (forM_eq_ok.1 hqueue effect hqueued)
    · obtain ⟨entered, hmem, rfl⟩ := List.mem_map.1 hlast
      exact validateEffect_ok (forM_eq_ok.1 henter entered hmem)
  · rw [← hseen]
    unfold validateSlot at hentered
    cases he : generation.entered with
    | none =>
      simp only [he] at hentered
      simpa using failIf_eq_ok.1 hentered
    | some entered =>
      simp only [he] at hentered
      simpa using (validateEntered_ok hentered).2
  · simp only [validateSlot, Option.mem_def.1 hmem] at hentered
    exact (validateEntered_ok hentered).1

/-! ## A snapshot -/

/-- A snapshot that was committed or created: it fits its frame, and its schema and
its validation passed. -/
structure CoordinatorSnapshot.Valid (snapshot : CoordinatorSnapshot) : Prop where
  framed : bytes snapshot.json + COORDINATOR_JOURNAL_LIMITS.nativeHeaderBytes ≤
    COORDINATOR_JOURNAL_LIMITS.framedBytes
  shape : snapshot.shape = true
  validated : validateSnapshot snapshot = .ok ()

theorem parseCoordinatorSnapshot_ok {snapshot parsed : CoordinatorSnapshot}
    (h : parseCoordinatorSnapshot snapshot = .ok parsed) : parsed = snapshot ∧ snapshot.Valid := by
  unfold parseCoordinatorSnapshot at h
  obtain ⟨hframed, h⟩ := failIf_bind_eq_ok.1 h
  obtain ⟨hshape, h⟩ := failIf_bind_eq_ok.1 h
  obtain ⟨⟨⟩, hvalid, h⟩ := bind_eq_ok.1 h
  cases h
  exact ⟨rfl, Nat.not_lt.1 hframed, by simpa using hshape, hvalid⟩

theorem CoordinatorSnapshot.Valid.parsed {snapshot : CoordinatorSnapshot} (h : snapshot.Valid) :
    parseCoordinatorSnapshot snapshot = .ok snapshot :=
  failIf_bind_eq_ok.2 ⟨Nat.not_lt.2 h.framed, failIf_bind_eq_ok.2 ⟨by simp [h.shape],
    bind_eq_ok.2 ⟨(), h.validated, rfl⟩⟩⟩

theorem CoordinatorSnapshot.Valid.encoded {snapshot : CoordinatorSnapshot} (h : snapshot.Valid) :
    encodeCoordinatorSnapshot snapshot = .ok (Json.stringify snapshot.json) :=
  bind_eq_ok.2 ⟨snapshot, h.parsed, failIf_bind_eq_ok.2 ⟨Nat.not_lt.2 h.framed, rfl⟩⟩

theorem CoordinatorSnapshot.Valid.sound {snapshot : CoordinatorSnapshot} (h : snapshot.Valid)
    {generation : DirtyGeneration} (hg : snapshot.generation = .dirty generation) :
    GenerationSound snapshot generation := by
  have hvalid := h.validated
  unfold validateSnapshot at hvalid
  obtain ⟨engineKey, -, hvalid⟩ := bind_eq_ok.1 hvalid
  obtain ⟨-, hvalid⟩ := failIf_bind_eq_ok.1 hvalid
  obtain ⟨-, hvalid⟩ := failIf_bind_eq_ok.1 hvalid
  rw [hg] at hvalid
  exact validateDirty_ok hvalid

end AgentSdk.Journal
