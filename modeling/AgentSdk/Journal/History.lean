import AgentSdk.Journal.Step

/-!
# The acts of a generation

The acts of all transitions of a generation, in their order, tell which members
were registered, which effects got a number and which growth was armed.  The
invariants below tie them to the generation that the transitions led to.

## Main results

* `Numbers.change` — a number belongs to one member, role and action.
* `Arms.change` — growth that was armed once has an entered cell, and is not
  armed again.
* `Roll.change` — everyone of the generation was registered, and nobody twice.
-/

namespace AgentSdk.Journal

open AgentSdk.Text AgentSdk.Outcome

/-! ## Reading acts -/

def Act.numbered? : Act → Option QueuedEffect
  | .numbered effect => some effect
  | _ => none

/-- The owner of an armed create or start. -/
def Act.growth? : Act → Option EffectOwner
  | .armed recipe => if recipe.action.isGrowth then some recipe.owner else none
  | _ => none

def Act.registered? : Act → Option (JsString × Nat)
  | .registered memberId memberSequence => some (memberId, memberSequence)
  | _ => none

def numberedEffects (acts : List Act) : List QueuedEffect := acts.filterMap Act.numbered?

def growthArms (acts : List Act) : List EffectOwner := acts.filterMap Act.growth?

def registrations (acts : List Act) : List (JsString × Nat) := acts.filterMap Act.registered?

theorem mem_numberedEffects {acts : List Act} {effect : QueuedEffect} :
    effect ∈ numberedEffects acts ↔ .numbered effect ∈ acts := by
  simp only [numberedEffects, List.mem_filterMap]
  constructor
  · rintro ⟨act, hact, hnumbered⟩
    cases act <;> simp only [Act.numbered?, Option.some.injEq, reduceCtorEq] at hnumbered
    exact hnumbered ▸ hact
  · exact fun h => ⟨_, h, rfl⟩

theorem mem_growthArms {acts : List Act} {owner : EffectOwner} :
    owner ∈ growthArms acts ↔
      ∃ recipe, .armed recipe ∈ acts ∧ recipe.action.isGrowth = true ∧ recipe.owner = owner := by
  simp only [growthArms, List.mem_filterMap]
  constructor
  · rintro ⟨act, hact, hgrowth⟩
    cases act <;> simp only [Act.growth?, Option.ite_none_right_eq_some, Option.some.injEq,
      reduceCtorEq] at hgrowth
    exact ⟨_, hact, hgrowth.1, hgrowth.2⟩
  · rintro ⟨recipe, hact, hgrowth, rfl⟩
    exact ⟨_, hact, by simp [Act.growth?, hgrowth]⟩

section Changes

variable {snapshot : CoordinatorSnapshot} {g g' : DirtyGeneration} {acts : List Act}

/-! ## Cells -/

variable {member next : CoordinatorMember} {role : ResourceRole} {ledger : RoleLedger}
  {action : ResourceAction} {effect : QueuedEffect} {new : List Act}

/-- A number in a rewritten ledger was there before, or has just been armed. -/
theorem LedgerStep.number {ledger' : RoleLedger}
    (h : LedgerStep snapshot g acts member next role ledger ledger') {effect : Nat}
    (heffect : (ledger'.cell action).effect? = some effect) :
    (ledger.cell action).effect? = some effect ∨
      ∃ recipe, acts = [.armed recipe] ∧ recipe.owner = ownerOf member role action ∧
        recipe.effectSequence = effect := by
  cases h with
  | same quiet => exact .inl heffect
  | @armed recipe armed resource act owner original identity admits =>
    rw [(writes_enter armed recipe.effectSequence).cell] at heffect
    split at heffect
    · rename_i haction
      exact .inr ⟨recipe, act, haction ▸ owner, by simpa [ActionReceipt.effect?] using heffect⟩
    · exact .inl heffect
  | returned act isEntered owner same =>
    rw [cell_withPresence] at heffect
    exact .inl heffect
  | settled act isEntered owner cell dispatched present absent
  | resolved act ofRole cell keeps absent =>
    rw [(writes_settle _ _ _).cell] at heffect
    split at heffect
    · rename_i haction
      rw [haction, cell]
      exact .inl heffect
    · exact .inl heffect
  | recovered act isEntered owner cell =>
    rw [cell_setCell] at heffect
    split at heffect
    · rename_i haction
      rw [haction, cell]
      exact .inl heffect
    · exact .inl heffect

/-- A cell that was entered is never as if it had not been. -/
theorem LedgerStep.stays_entered {ledger' : RoleLedger}
    (h : LedgerStep snapshot g acts member next role ledger ledger')
    (hentered : ledger.cell action ≠ .not_entered) : ledger'.cell action ≠ .not_entered := by
  cases h with
  | same quiet => exact hentered
  | @armed recipe armed resource act owner original identity admits =>
    rw [(writes_enter armed recipe.effectSequence).cell]
    split
    · simp
    · exact hentered
  | returned act isEntered owner same =>
    rw [cell_withPresence]
    exact hentered
  | settled act isEntered owner cell dispatched present absent
  | resolved act ofRole cell keeps absent =>
    rw [(writes_settle _ _ _).cell]
    split
    · simp
    · exact hentered
  | recovered act isEntered owner cell =>
    rw [cell_setCell]
    split
    · simp
    · exact hentered

/-- The ledger behind a cell. -/
theorem cell?_spec {owner : EffectOwner} {receipt : ActionReceipt} (h : g.cell? owner = some receipt) :
    ∃ member role action ledger, g.member? owner.memberId = some member ∧
      owner = ownerOf member role action ∧ member.ledger? role = some ledger ∧
      ledger.cell action = receipt := by
  unfold DirtyGeneration.cell? at h
  obtain ⟨member, hmember, hcell⟩ := Option.bind_eq_some_iff.1 h
  obtain ⟨memberId, role, action⟩ := owner
  cases role with
  | member => simp [CoordinatorMember.cell?] at hcell
  | resource role =>
    cases action with
    | member_retire => simp [CoordinatorMember.cell?] at hcell
    | resource action =>
      obtain ⟨ledger, hledger, hreceipt⟩ := ledger_of_cell? hcell
      exact ⟨member, role, action, ledger, hmember,
        by simp [ownerOf, (member?_spec hmember).2], hledger, hreceipt⟩

/-- What a change does to the cell of one owner. -/
theorem Change.cell (h : Change snapshot g g' acts) (slot : Slot g) {owner : EffectOwner}
    {receipt : ActionReceipt} (hcell : g'.cell? owner = some receipt) :
    (∃ member next role action ledger ledger', g.member? owner.memberId = some member ∧
      owner = ownerOf member role action ∧ member.ledger? role = some ledger ∧
      LedgerStep snapshot g acts member next role ledger ledger' ∧ ledger'.cell action = receipt) ∨
      g.member? owner.memberId = none ∧ receipt.effect? = none ∧
        acts = [.registered owner.memberId g.nextMemberSequence] ∧
        (∀ item ∈ g.everyone, item.1 ≠ owner.memberId) := by
  obtain ⟨next, role, action, ledger', hnext, howner, hledger', hreceipt⟩ := cell?_spec hcell
  cases hmember : g.member? owner.memberId with
  | none =>
    obtain ⟨record, binding, slotNumber, digest, rfl, hacts, hfresh, -⟩ :=
      h.newcomer slot hnext hmember
    refine .inr ⟨rfl, ?_, hacts, hfresh⟩
    rw [← hreceipt, registered_ledger hledger']
    exact emptyRole_effect? role _ action
  | some member =>
    cases h.member slot hmember with
    | inr hretired => exact nomatch hretired.2.symm.trans hnext
    | inl hstays =>
      obtain ⟨later, hlater, hstep⟩ := hstays
      rw [hnext] at hlater
      cases hlater
      have hsome : (member.ledger? role).isSome = true := by
        rw [← hstep.ledgers role, hledger', Option.isSome_some]
      obtain ⟨ledger, hledger⟩ := Option.isSome_iff_exists.1 hsome
      refine .inl ⟨member, next, role, action, ledger, ledger', rfl, ?_, hledger,
        hstep.ledger role ledger ledger' hledger hledger', hreceipt⟩
      rw [howner]
      simp [ownerOf, hstep.carried.memberId]

/-! ## Numbers -/

/-- The numbers of effects, and who owns them. -/
structure Numbers (g : DirtyGeneration) (acts : List Act) : Prop where
  below : ∀ effect ∈ numberedEffects acts, effect.effectSequence < g.nextEffectSequence
  owned : ∀ effect ∈ numberedEffects acts, ∀ other ∈ numberedEffects acts,
    effect.effectSequence = other.effectSequence → effect.owner = other.owner
  effects : ∀ effect ∈ g.effects, effect ∈ numberedEffects acts
  armed : ∀ recipe, .armed recipe ∈ acts → recipe.toQueuedEffect ∈ numberedEffects acts
  cells : ∀ owner receipt number, g.cell? owner = some receipt → receipt.effect? = some number →
    ∃ effect ∈ numberedEffects acts, effect.effectSequence = number ∧ effect.owner = owner

theorem mem_enqueue {queue : List QueuedEffect} {queued : QueuedEffect} :
    effect ∈ enqueue queue queued ↔ effect ∈ queue ∨ effect = queued := by
  simp [enqueue]

theorem mem_effects :
    effect ∈ g.effects ↔
      effect ∈ g.queue ∨ ∃ entered ∈ g.entered, entered.toQueuedEffect = effect := by
  simp [DirtyGeneration.effects]

theorem Change.effects (h : Change snapshot g g' acts) (slot : Slot g)
    (heffect : effect ∈ g'.effects) : effect ∈ g.effects ∨ .numbered effect ∈ acts := by
  rw [mem_effects] at heffect
  cases h with
  | steady authority | updates found carried roles
  | registers admission fresh planned => exact .inl (mem_effects.2 heffect)
  | cancels keep | retires found scopes settled unqueued unentered named counted =>
    exact .inl (mem_effects.2 (heffect.imp_left fun hqueue => (List.mem_filter.1 hqueue).1))
  | queues found unowned growth cell =>
    cases heffect with
    | inr hentered => exact .inl (mem_effects.2 (.inr hentered))
    | inl hqueue =>
      rcases mem_enqueue.1 hqueue with hold | hnew
      · exact .inl (mem_effects.2 (.inl hold))
      · exact .inr (by simp [hnew])
  | @arms queued member resource ledger role action before input free next ofRole ofAction found
      original current growth identity admits =>
      refine .inl (mem_effects.2 (.inl ?_))
      rcases heffect with hqueue | hentered
      · exact (List.mem_filter.1 hqueue).1
      · obtain ⟨entered, hmem, rfl⟩ := hentered
        cases hmem
        exact (armable_spec next).1
  | @returns entered member role id isEntered ofRole ofAction found same =>
    refine .inl (mem_effects.2 ?_)
    rcases heffect with hqueue | hentered
    · exact .inl hqueue
    · obtain ⟨later, hmem, rfl⟩ := hentered
      cases hmem
      exact .inr ⟨entered, isEntered, rfl⟩
  | settles isEntered ofRole ofAction found continuation dispatched present absent =>
    rcases heffect with hqueue | hentered
    · exact .inl (mem_effects.2 (.inl hqueue))
    · obtain ⟨later, hmem, -⟩ := hentered
      cases hmem
  | resolves found current uncertain continuation keeps absent =>
    exact .inl (mem_effects.2 heffect)
  | recovers active recovered =>
    have hnothing : g'.queue = [] ∧ g'.entered = none := by
      rcases recoveredGeneration_ok slot recovered with hidle | hactive
      · rw [hidle.2]
        exact ⟨rfl, rfl⟩
      · obtain ⟨entered, member, role, action, ledger, -, -, rfl⟩ := hactive
        exact ⟨rfl, rfl⟩
    simp [hnothing.1, hnothing.2] at heffect

/-- A change numbers at most one effect: afresh, or as its cell was. -/
theorem Change.numbers (h : Change snapshot g g' acts) (slot : Slot g) :
    numberedEffects acts = [] ∧ g'.nextEffectSequence = g.nextEffectSequence ∨
      ∃ effect, acts = [.numbered effect] ∧
        (effect.effectSequence = g.nextEffectSequence ∧
            g'.nextEffectSequence = g.nextEffectSequence + 1 ∨
          (∃ receipt, g.cell? effect.owner = some receipt ∧
            receipt.effect? = some effect.effectSequence) ∧
            g'.nextEffectSequence = g.nextEffectSequence) := by
  cases h with
  | steady authority | cancels keep | updates found carried roles
  | registers admission fresh planned => exact .inl ⟨rfl, rfl⟩
  | arms free next ofRole ofAction found original current growth identity admits =>
    exact .inl ⟨rfl, rfl⟩
  | returns isEntered ofRole ofAction found same
  | resolves found current uncertain continuation keeps absent => exact .inl ⟨rfl, rfl⟩
  | @settles entered member continued role action settlement mode isEntered ofRole ofAction found
      continuation dispatched present absent =>
      refine .inl ⟨?_, rfl⟩
      cases settlement.readback entered <;> rfl
  | retires found scopes settled unqueued unentered named counted => exact .inl ⟨rfl, rfl⟩
  | recovers active recovered =>
    refine .inl ⟨rfl, ?_⟩
    rcases recoveredGeneration_ok slot recovered with hidle | hactive
    · rw [hidle.2]
      rfl
    · obtain ⟨entered, member, role, action, ledger, -, -, rfl⟩ := hactive
      rfl
  | @queues member role action found unowned growth cell =>
    refine .inr ⟨_, rfl, ?_⟩
    cases hreused : (member.cell? role action).bind ActionReceipt.reused with
    | none => exact .inl ⟨by simp [queuedEffect, hreused], by simp⟩
    | some number =>
      obtain ⟨receipt, hreceipt, hnumber⟩ := Option.bind_eq_some_iff.1 hreused
      refine .inr ⟨⟨receipt, ?_, ?_⟩, by simp⟩
      · have howner : g.member? (queuedEffect snapshot g member role action).owner.memberId =
            some member := found
        simp only [DirtyGeneration.cell?, howner, Option.bind_some]
        exact hreceipt
      · have hsequence : (queuedEffect snapshot g member role action).effectSequence = number := by
          simp [queuedEffect, hreused]
        rw [hsequence]
        cases receipt <;> simp [ActionReceipt.reused] at hnumber
        · simp [ActionReceipt.effect?, hnumber]
        · simp [ActionReceipt.effect?, hnumber]

/-- What an arm found and what it led to. -/
structure Armed (g g' : DirtyGeneration) (recipe : EnteredEffect) (member : CoordinatorMember)
    (role : ResourceRole) (action : ResourceAction) (ledger : RoleLedger) : Prop where
  free : g.entered = none
  scheduled : armable g recipe.effectSequence = some recipe.toQueuedEffect
  owner : recipe.owner = ownerOf member role action
  found : g.member? member.memberId = some member
  current : member.ledger? role = some ledger
  growth : recipe.action.isGrowth = true → GrowthAdmitted g member recipe.role
  admits : (ledger.cell action).admitsArm recipe.toQueuedEffect = true
  entered : g'.entered = some recipe

theorem Change.armed (h : Change snapshot g g' acts) {recipe : EnteredEffect}
    (hact : .armed recipe ∈ acts) :
    acts = [.armed recipe] ∧ ∃ member role action ledger, Armed g g' recipe member role action ledger := by
  cases h with
  | steady authority | cancels keep | updates found carried roles
  | registers admission fresh planned => simp at hact
  | queues found unowned growth cell | returns isEntered ofRole ofAction found same
  | settles isEntered ofRole ofAction found continuation dispatched present absent => simp at hact
  | resolves found current uncertain continuation keeps absent
  | recovers active recovered => simp at hact
  | retires found scopes settled unqueued unentered named counted => simp at hact
  | @arms queued member resource ledger role action before input free next ofRole ofAction found
      original current growth identity admits =>
      cases List.mem_singleton.1 hact
      have hid := (member?_spec found).2
      have hfound : g.member? member.memberId = some member := by rw [hid]; exact found
      refine ⟨rfl, member, role, action, ledger, free, next, owner_eq hid.symm ofRole ofAction,
        hfound, current, fun hgrowth => growth ?_, admits, rfl⟩
      have hgrowth' : queued.action.isGrowth = true := hgrowth
      simp [QueuedEffect.isCleanup, hgrowth']

theorem numberedEffects_append (acts new : List Act) :
    numberedEffects (acts ++ new) = numberedEffects acts ++ numberedEffects new :=
  List.filterMap_append

theorem Numbers.change (numbers : Numbers g acts) (slot : Slot g) (h : Change snapshot g g' new) :
    Numbers g' (acts ++ new) := by
  have hsub : ∀ effect ∈ numberedEffects acts, effect ∈ numberedEffects (acts ++ new) := by
    intro effect heffect
    rw [numberedEffects_append]
    exact List.mem_append_left _ heffect
  have hnew : ∀ effect, .numbered effect ∈ new → effect ∈ numberedEffects (acts ++ new) :=
    fun effect heffect => mem_numberedEffects.2 (List.mem_append_right _ heffect)
  have heffects : ∀ effect ∈ g'.effects, effect ∈ numberedEffects (acts ++ new) := by
    intro effect heffect
    rcases h.effects slot heffect with hold | hnumbered
    · exact hsub effect (numbers.effects effect hold)
    · exact hnew effect hnumbered
  have harmed : ∀ recipe, .armed recipe ∈ acts ++ new →
      recipe.toQueuedEffect ∈ numberedEffects (acts ++ new) := by
    intro recipe hact
    rcases List.mem_append.1 hact with hold | hlast
    · exact hsub _ (numbers.armed recipe hold)
    · obtain ⟨-, member, role, action, ledger, hentry⟩ := h.armed hlast
      exact hsub _ (numbers.effects _ (mem_effects.2 (.inl (armable_spec hentry.scheduled).1)))
  have hcells : ∀ owner receipt number, g'.cell? owner = some receipt →
      receipt.effect? = some number →
      ∃ effect ∈ numberedEffects (acts ++ new), effect.effectSequence = number ∧
        effect.owner = owner := by
    intro owner receipt number hcell hnumber
    cases h.cell slot hcell with
    | inr hnewcomer => simp [hnewcomer.2.1] at hnumber
    | inl hstays =>
      obtain ⟨member, next, role, action, ledger, ledger', hmember, howner, hledger, hstep, rfl⟩ :=
        hstays
      rcases hstep.number hnumber with hold | hjust
      · have hbefore : g.cell? owner = some (ledger.cell action) := by
          rw [howner, cell?_ownerOf (by rw [howner] at hmember; exact hmember)]
          simp [CoordinatorMember.cell?, hledger]
        obtain ⟨effect, heffect, hrest⟩ := numbers.cells _ _ _ hbefore hold
        exact ⟨effect, hsub effect heffect, hrest⟩
      · obtain ⟨recipe, hacts, hown, hsequence⟩ := hjust
        have hmem := harmed recipe (by simp [hacts])
        exact ⟨_, hmem, hsequence, hown.trans howner.symm⟩
  have hmem : ∀ effect ∈ numberedEffects (acts ++ new),
      effect ∈ numberedEffects acts ∨ .numbered effect ∈ new := by
    intro effect heffect
    rw [numberedEffects_append, List.mem_append] at heffect
    exact heffect.imp_right mem_numberedEffects.1
  rcases h.numbers slot with hnone | hone
  · have hold : ∀ effect ∈ numberedEffects (acts ++ new), effect ∈ numberedEffects acts := by
      simp [numberedEffects_append, hnone.1]
    refine ⟨fun effect heffect => ?_, fun effect heffect other hother => ?_, heffects, harmed, hcells⟩
    · rw [hnone.2]
      exact numbers.below effect (hold effect heffect)
    · exact numbers.owned effect (hold effect heffect) other (hold other hother)
  · obtain ⟨last, hacts, hlast⟩ := hone
    have hjust : ∀ effect, .numbered effect ∈ new → effect = last := by simp [hacts]
    -- A number that an earlier effect has is the one of its own cell.
    have hagree : ∀ effect ∈ numberedEffects acts,
        effect.effectSequence = last.effectSequence → effect.owner = last.owner := by
      intro effect heffect hsame
      have hbelow := numbers.below effect heffect
      rcases hlast with hfresh | hreused
      · exact absurd (hsame.trans hfresh.1) (Nat.ne_of_lt hbelow)
      · obtain ⟨⟨receipt, hcell, hnumber⟩, -⟩ := hreused
        obtain ⟨first, hfirst, hsequence, howner⟩ := numbers.cells _ _ _ hcell hnumber
        rw [← howner]
        exact numbers.owned effect heffect first hfirst (hsame.trans hsequence.symm)
    have hbelow : ∀ effect ∈ numberedEffects acts, effect.effectSequence < g'.nextEffectSequence := by
      intro effect heffect
      have hold := numbers.below effect heffect
      rcases hlast with hfresh | hreused
      · omega
      · omega
    refine ⟨fun effect heffect => ?_, fun effect heffect other hother hsame => ?_, heffects,
      harmed, hcells⟩
    · rcases hmem effect heffect with hold | hnumbered
      · exact hbelow effect hold
      · rw [hjust effect hnumbered]
        rcases hlast with hfresh | hreused
        · omega
        · obtain ⟨⟨receipt, hcell, hnumber⟩, -⟩ := hreused
          obtain ⟨first, hfirst, hsequence, -⟩ := numbers.cells _ _ _ hcell hnumber
          rw [← hsequence]
          exact hbelow first hfirst
    · rcases hmem effect heffect with hold | hnumbered
      · rcases hmem other hother with hold' | hnumbered
        · exact numbers.owned effect hold other hold' hsame
        · rw [hjust other hnumbered] at hsame ⊢
          exact hagree effect hold hsame
      · rw [hjust effect hnumbered] at hsame ⊢
        rcases hmem other hother with hold' | hnumbered'
        · exact (hagree other hold' hsame.symm).symm
        · rw [hjust other hnumbered']

/-! ## Everyone of a generation -/

theorem member_unique (sound : GenerationSound snapshot g) {item : CoordinatorMember}
    (found : g.member? member.memberId = some member) (hitem : item ∈ g.members)
    (hid : item.memberId = member.memberId) : item = member := by
  have hids : (g.members.map CoordinatorMember.memberId).Nodup := by
    have hboth := sound.ids
    simp only [DirtyGeneration.everyone, List.map_append, List.map_map] at hboth
    exact (List.nodup_append.1 hboth).1
  exact List.inj_on_of_nodup_map hids hitem (member?_spec found).1 hid

theorem everyone_replaceMember (sound : GenerationSound snapshot g)
    (found : g.member? member.memberId = some member) (hid : next.memberId = member.memberId)
    (hsequence : next.memberSequence = member.memberSequence) :
    (replaceMember g next).everyone = g.everyone := by
  simp only [DirtyGeneration.everyone, replaceMember, List.map_map]
  congr 1
  refine List.map_congr_left fun item hitem => ?_
  simp only [Function.comp_apply]
  split
  · rename_i hsame
    rw [member_unique sound found hitem (hsame.trans hid), hid, hsequence]
  · rfl

theorem everyone_reopened (g : DirtyGeneration) (digest : JsString) :
    (g.reopened digest).everyone = g.everyone := by
  simp only [DirtyGeneration.everyone, DirtyGeneration.reopened, List.map_map]
  rfl

theorem perm_cons_filter {members : List CoordinatorMember}
    (hids : (members.map CoordinatorMember.memberId).Nodup) (hmem : member ∈ members) :
    members.Perm (member :: members.filter fun item => item.memberId != member.memberId) := by
  induction members with
  | nil => cases hmem
  | cons head tail ih =>
    rw [List.map_cons, List.nodup_cons] at hids
    rcases List.mem_cons.1 hmem with hhead | htail
    · subst hhead
      have hkept : (tail.filter fun item => item.memberId != member.memberId) = tail := by
        refine List.filter_eq_self.2 fun item hitem => ?_
        simp only [bne_iff_ne, ne_eq]
        exact fun hid => hids.1 (hid ▸ List.mem_map_of_mem hitem)
      rw [List.filter_cons_of_neg (by simp), hkept]
    · have hne : head.memberId ≠ member.memberId :=
        fun hid => hids.1 (hid ▸ List.mem_map_of_mem htail)
      rw [List.filter_cons_of_pos (by simpa using hne)]
      exact ((ih hids.2 htail).cons head).trans (.swap member head _)

/-- A change adds a registration to everyone, and loses nobody. -/
theorem Change.everyone (h : Change snapshot g g' acts) (slot : Slot g)
    (sound : GenerationSound snapshot g) : g'.everyone.Perm (g.everyone ++ registrations acts) := by
  have hsilent : registrations acts = [] → g'.everyone = g.everyone →
      g'.everyone.Perm (g.everyone ++ registrations acts) := by
    intro hacts heveryone
    rw [hacts, heveryone, List.append_nil]
  cases h with
  | steady authority | cancels keep | queues found unowned growth cell => exact hsilent rfl rfl
  | updates found carried roles =>
    exact hsilent rfl (everyone_replaceMember sound found carried.memberId carried.memberSequence)
  | arms free next ofRole ofAction found original current growth identity admits
  | returns isEntered ofRole ofAction found same =>
    rw [← (member?_spec found).2] at found
    exact hsilent rfl (everyone_replaceMember sound found rfl rfl)
  | @settles entered member continued role action settlement mode isEntered ofRole ofAction found
      continuation dispatched present absent =>
      rw [← (member?_spec found).2] at found
      have hcarried := (continuation.carried.changedRole role fun ledger =>
        { ledger with presence := settlement.presence }.setCell (.settled entered.effectSequence
          settlement.outcome settlement.receiptDigest (snapshot.sequence + 1)) action).withProjection
            settlement.projection
      refine hsilent ?_ (everyone_replaceMember sound found hcarried.memberId hcarried.memberSequence)
      cases settlement.readback entered <;> rfl
  | @resolves member continued ledger resolution effect intent found current uncertain continuation
      keeps absent =>
      have hcarried := (continuation.carried.changedRole resolution.role fun ledger =>
        { ledger with presence := resolution.presence }.setCell (.settled effect
          resolution.outcome.outcome resolution.receiptDigest (snapshot.sequence + 1))
            resolution.action).withProjection resolution.projection
      exact hsilent rfl (everyone_replaceMember sound found hcarried.memberId hcarried.memberSequence)
  | @recovers digest next active recovered =>
    refine hsilent rfl ?_
    rcases recoveredGeneration_ok slot recovered with hidle | hactive
    · rw [hidle.2]
      exact everyone_reopened g digest
    · obtain ⟨entered, member, role, action, ledger, -, horiginal, rfl⟩ := hactive
      rw [← everyone_reopened g digest]
      simp only [DirtyGeneration.everyone, replaceMember, DirtyGeneration.reopened, List.map_map]
      congr 1
      refine List.map_congr_left fun item hitem => ?_
      simp only [Function.comp_apply]
      split
      · rename_i hsame
        rw [member_unique sound horiginal.found hitem hsame]
        rfl
      · rfl
  | registers admission fresh planned =>
    simp only [DirtyGeneration.everyone, List.map_append, List.append_assoc]
    exact List.Perm.append_left _ List.perm_append_comm
  | @retires member tombstone found scopes settled unqueued unentered named counted =>
    have hids : (g.members.map CoordinatorMember.memberId).Nodup := by
      have hboth := sound.ids
      simp only [DirtyGeneration.everyone, List.map_append, List.map_map] at hboth
      exact (List.nodup_append.1 hboth).1
    have hmembers := (perm_cons_filter hids (member?_spec found).1).map
      fun item => (item.memberId, item.memberSequence)
    have hretired := (List.mergeSort_perm (g.retired ++ [tombstone]) fun left right =>
      decide (left.memberSequence ≤ right.memberSequence)).map
        fun item => (item.memberId, item.memberSequence)
    simp only [DirtyGeneration.everyone]
    refine (List.Perm.append_left _ hretired).trans (List.Perm.trans ?_
      (List.Perm.append_right _ (List.Perm.append_right _ hmembers.symm)))
    have hlast : registrations [Act.retired member] = [] := rfl
    rw [hlast, List.append_nil, List.map_append, List.map_cons, List.map_cons, List.map_nil, named,
      counted, ← List.append_assoc]
    exact List.perm_append_singleton _ _

/-- Everyone of the generation was registered in it. -/
def Roll (g : DirtyGeneration) (acts : List Act) : Prop := (registrations acts).Perm g.everyone

theorem Roll.change (roll : Roll g acts) (slot : Slot g) (sound : GenerationSound snapshot g)
    (h : Change snapshot g g' new) : Roll g' (acts ++ new) := by
  have happend : registrations (acts ++ new) = registrations acts ++ registrations new :=
    List.filterMap_append
  unfold Roll
  rw [happend]
  exact (List.Perm.append_right _ roll).trans (h.everyone slot sound).symm

/-! ## Arms of growth -/

/-- Growth that was armed has an entered cell, as long as its member is current. -/
structure Arms (g : DirtyGeneration) (acts : List Act) : Prop where
  once : (growthArms acts).Nodup
  entered : ∀ owner ∈ growthArms acts, ∀ receipt, g.cell? owner = some receipt →
    receipt ≠ .not_entered
  known : ∀ owner ∈ growthArms acts, ∃ item ∈ g.everyone, item.1 = owner.memberId

theorem growthArms_append (acts new : List Act) :
    growthArms (acts ++ new) = growthArms acts ++ growthArms new := List.filterMap_append

/-- Growth enters only a cell that was not entered. -/
theorem Armed.untouched {recipe : EnteredEffect} (h : Armed g g' recipe member role action ledger)
    (hgrowth : recipe.action.isGrowth = true) : g.cell? recipe.owner = some .not_entered := by
  have hadmits := h.admits
  simp only [ActionReceipt.admitsArm, QueuedEffect.isCleanup, hgrowth, Bool.not_true,
    Bool.false_and, Bool.or_false, beq_iff_eq] at hadmits
  rw [h.owner, cell?_ownerOf h.found]
  simp [CoordinatorMember.cell?, h.current, hadmits]

theorem Arms.change (arms : Arms g acts) (slot : Slot g) (sound : GenerationSound snapshot g)
    (h : Change snapshot g g' new) : Arms g' (acts ++ new) := by
  have hslot := slot.change h
  have hstays : ∀ owner ∈ growthArms acts, ∀ receipt, g'.cell? owner = some receipt →
      receipt ≠ .not_entered := by
    intro owner howner receipt hcell
    cases h.cell slot hcell with
    | inr hnewcomer =>
      obtain ⟨item, hitem, hid⟩ := arms.known owner howner
      exact absurd hid (hnewcomer.2.2.2 item hitem)
    | inl hold =>
      obtain ⟨member, next, role, action, ledger, ledger', hmember, hown, hledger, hstep, rfl⟩ := hold
      refine hstep.stays_entered (arms.entered owner howner _ ?_)
      rw [hown, cell?_ownerOf (by rw [hown] at hmember; exact hmember)]
      simp [CoordinatorMember.cell?, hledger]
  have hknown : ∀ item ∈ g.everyone, item ∈ g'.everyone := fun item hitem =>
    (h.everyone slot sound).mem_iff.2 (List.mem_append_left _ hitem)
  have harmed : ∀ owner ∈ growthArms new, owner ∉ growthArms acts ∧
      (∀ receipt, g'.cell? owner = some receipt → receipt ≠ .not_entered) ∧
      ∃ item ∈ g'.everyone, item.1 = owner.memberId := by
    intro owner howner
    obtain ⟨recipe, hact, hgrowth, rfl⟩ := mem_growthArms.1 howner
    obtain ⟨-, member, role, action, ledger, hentry⟩ := h.armed hact
    have huntouched := hentry.untouched hgrowth
    refine ⟨fun hagain => arms.entered _ hagain _ huntouched rfl, fun receipt hcell => ?_, ?_⟩
    · rw [hslot.entered recipe hentry.entered] at hcell
      cases hcell
      simp
    · refine ⟨(member.memberId, member.memberSequence), hknown _ ?_, ?_⟩
      · exact List.mem_append_left _ (List.mem_map.2 ⟨member, (member?_spec hentry.found).1, rfl⟩)
      · rw [hentry.owner]
        rfl
  refine ⟨?_, fun owner howner => ?_, fun owner howner => ?_⟩
  · rw [growthArms_append]
    refine List.nodup_append.2 ⟨arms.once, ?_, fun owner hold other hnew hsame => ?_⟩
    · by_cases hempty : growthArms new = []
      · rw [hempty]
        exact List.nodup_nil
      · obtain ⟨owner, howner⟩ := List.exists_mem_of_ne_nil _ hempty
        obtain ⟨recipe, hact, hgrowth, -⟩ := mem_growthArms.1 howner
        rw [(h.armed hact).1]
        simp [growthArms, Act.growth?, hgrowth]
    · exact (harmed other hnew).1 (hsame ▸ hold)
  · rw [growthArms_append, List.mem_append] at howner
    rcases howner with hold | hnew
    · exact hstays owner hold
    · exact (harmed owner hnew).2.1
  · rw [growthArms_append, List.mem_append] at howner
    rcases howner with hold | hnew
    · obtain ⟨item, hitem, hid⟩ := arms.known owner hold
      exact ⟨item, hknown item hitem, hid⟩
    · exact (harmed owner hnew).2.2

end Changes

end AgentSdk.Journal
