import AgentSdk.Journal.Known

/-!
# What a generation keeps

Between two snapshots of one generation, members keep what they are bound to,
resources keep the identity they are known by, and what bars growth goes on
barring it.

## Main results

* `Kept.trans` — the relation composes over the transitions of a generation.
* `Change.kept` — one transition.
-/

namespace AgentSdk.Journal

open AgentSdk.Text AgentSdk.Outcome

/-! ## What bars growth -/

/-- Nothing may be created or started any more for a member: its generation is
fenced or for cleanup only, its sink failed, it is ending, or it was retired. -/
inductive Barred (g : DirtyGeneration) (memberId : JsString) : Prop
  | ended (state : g.liveState = false)
  | sink {member : CoordinatorMember} (found : g.member? memberId = some member)
      (failed : member.checkpoint.callerSink.isFailed = true)
  | ending {member : CoordinatorMember} (found : g.member? memberId = some member)
      (state : member.state.isEnding = true)
  | retired {tombstone : MemberTombstone} (mem : tombstone ∈ g.retired)
      (named : tombstone.memberId = memberId)

theorem MemberState.isEnding_iff (state : MemberState) : state.isEnding = true ↔ 3 ≤ state.stage := by
  cases state <;> simp [MemberState.isEnding, MemberState.stage]

/-- What a member keeps: what every change carries, and its known identities. -/
structure MemberKept (member next : CoordinatorMember) : Prop where
  carried : Carried member next
  known : ∀ role id, member.known? role = some id → next.known? role = some id

theorem MemberKept.refl (member : CoordinatorMember) : MemberKept member member :=
  ⟨.refl member, fun _ _ h => h⟩

theorem MemberKept.trans {a b c : CoordinatorMember} (hab : MemberKept a b) (hbc : MemberKept b c) :
    MemberKept a c :=
  ⟨hab.carried.trans hbc.carried, fun role id h => hbc.known role id (hab.known role id h)⟩

/-- What a generation keeps while `acts` happen. -/
structure Kept (g g' : DirtyGeneration) (acts : List Act) : Prop where
  identity : g'.identity = g.identity
  ended : g.liveState = false → g'.liveState = false
  fenced : g.state.isFenced = true → g'.state = g.state ∨ g'.state.isCleanupOnly = true
  cleanup : g.state.isCleanupOnly = true → g'.state = g.state
  member : ∀ memberId member, g.member? memberId = some member →
    (∃ next, g'.member? memberId = some next ∧ MemberKept member next) ∨
      ∃ tombstone ∈ g'.retired, tombstone.memberId = memberId
  retired : ∀ tombstone ∈ g.retired, tombstone ∈ g'.retired
  growth : ∀ owner ∈ growthArms acts, ¬Barred g owner.memberId

theorem Kept.refl (g : DirtyGeneration) : Kept g g [] :=
  ⟨rfl, id, fun _ => .inl rfl, fun _ => rfl, fun _ member h => .inl ⟨member, h, .refl member⟩,
    fun _ h => h, by simp [growthArms]⟩

/-- What bars growth goes on barring it. -/
theorem Kept.barred {g g' : DirtyGeneration} {acts : List Act} (h : Kept g g' acts)
    {memberId : JsString} (hbarred : Barred g memberId) : Barred g' memberId := by
  cases hbarred with
  | ended state => exact .ended (h.ended state)
  | sink found failed =>
    rcases h.member _ _ found with hstays | hretired
    · obtain ⟨next, hnext, hkept⟩ := hstays
      exact .sink hnext (by rw [hkept.carried.sink failed]; exact failed)
    · obtain ⟨tombstone, hmem, hnamed⟩ := hretired
      exact .retired hmem hnamed
  | ending found state =>
    rcases h.member _ _ found with hstays | hretired
    · obtain ⟨next, hnext, hkept⟩ := hstays
      refine .ending hnext ?_
      rw [MemberState.isEnding_iff] at state ⊢
      exact state.trans hkept.carried.stage
    · obtain ⟨tombstone, hmem, hnamed⟩ := hretired
      exact .retired hmem hnamed
  | retired mem named => exact .retired (h.retired _ mem) named

theorem Kept.trans {a b c : DirtyGeneration} {first second : List Act} (hab : Kept a b first)
    (hbc : Kept b c second) : Kept a c (first ++ second) := by
  refine ⟨hbc.identity.trans hab.identity, fun h => hbc.ended (hab.ended h), fun h => ?_, fun h => ?_,
    fun memberId member h => ?_, fun tombstone h => hbc.retired _ (hab.retired _ h),
    fun owner howner => ?_⟩
  · rcases hab.fenced h with hsame | hcleanup
    · exact (hbc.fenced (by rw [hsame]; exact h)).imp_left fun h' => h'.trans hsame
    · exact .inr (by rw [hbc.cleanup hcleanup]; exact hcleanup)
  · have hsame := hab.cleanup h
    rw [hbc.cleanup (by rw [hsame]; exact h), hsame]
  · cases hab.member memberId member h with
    | inr hretired =>
      obtain ⟨tombstone, hmem, hnamed⟩ := hretired
      exact .inr ⟨tombstone, hbc.retired _ hmem, hnamed⟩
    | inl hstays =>
      obtain ⟨next, hnext, hkept⟩ := hstays
      refine (hbc.member memberId next hnext).imp_left fun hlater => ?_
      obtain ⟨last, hlast, hkept'⟩ := hlater
      exact ⟨last, hlast, hkept.trans hkept'⟩
  · rw [growthArms_append, List.mem_append] at howner
    rcases howner with hfirst | hsecond
    · exact hab.growth owner hfirst
    · exact fun hbarred => hbc.growth owner hsecond (hab.barred hbarred)

/-! ## One transition -/

section Changes

variable {snapshot later : CoordinatorSnapshot} {g g' : DirtyGeneration} {acts : List Act}

/-- What a change does to the state of the generation. -/
theorem Change.state (h : Change snapshot g g' acts) (slot : Slot g) :
    g'.identity = g.identity ∧ (g'.state = g.state ∨
      g'.state.isCleanupOnly = true ∧ g.state.isCleanupOnly = false ∨
      g.liveState = true ∧ g'.state.isCleanupOnly = false) := by
  cases h with
  | steady authority =>
    refine ⟨rfl, ?_⟩
    rcases authority with hsame | hlive
    · exact .inl hsame.1
    · exact .inr (.inr hlive)
  | arms free next ofRole ofAction found original current growth identity admits
  | settles isEntered ofRole ofAction found continuation dispatched present absent =>
    exact ⟨rfl, .inl rfl⟩
  | recovers active recovered =>
    rcases recoveredGeneration_ok slot recovered with hidle | hactive
    · rw [hidle.2]
      exact ⟨rfl, .inr (.inl ⟨rfl, active⟩)⟩
    · obtain ⟨entered, member, role, action, ledger, -, -, rfl⟩ := hactive
      exact ⟨rfl, .inr (.inl ⟨rfl, active⟩)⟩
  | _ => exact ⟨rfl, .inl rfl⟩

/-- A change keeps the tombstones and adds one for a member that it retires. -/
theorem Change.retired (h : Change snapshot g g' acts) (slot : Slot g) :
    (∀ tombstone ∈ g.retired, tombstone ∈ g'.retired) ∧
      ∀ member, acts = [.retired member] → ∃ tombstone ∈ g'.retired,
        tombstone.memberId = member.memberId := by
  cases h with
  | steady authority | cancels keep | updates found carried roles
  | registers admission fresh planned => exact ⟨fun _ h => h, by simp⟩
  | queues found unowned growth cell
  | returns isEntered ofRole ofAction found same => exact ⟨fun _ h => h, by simp⟩
  | arms free next ofRole ofAction found original current growth identity admits =>
    exact ⟨fun _ h => h, by simp⟩
  | @settles entered member continued role action settlement mode isEntered ofRole ofAction found
      continuation dispatched present absent =>
      refine ⟨fun _ h => h, fun member hacts => ?_⟩
      cases hread : settlement.readback entered <;> simp [hread] at hacts
  | resolves found current uncertain continuation keeps absent => exact ⟨fun _ h => h, by simp⟩
  | recovers active recovered =>
    rcases recoveredGeneration_ok slot recovered with hidle | hactive
    · rw [hidle.2]
      exact ⟨fun _ h => h, by simp⟩
    · obtain ⟨entered, member, role, action, ledger, -, -, rfl⟩ := hactive
      exact ⟨fun _ h => h, by simp⟩
  | @retires member tombstone found scopes settled unqueued unentered named counted =>
    refine ⟨fun old hold => ?_, fun other hacts => ⟨tombstone, ?_, ?_⟩⟩
    · exact List.mem_mergeSort.2 (List.mem_append_left _ hold)
    · exact List.mem_mergeSort.2 (List.mem_append_right _ (List.mem_singleton.2 rfl))
    · cases hacts
      exact named

theorem DirtyGeneration.liveState_iff (g : DirtyGeneration) :
    g.liveState = true ↔ g.state.isFenced = false ∧ g.state.isCleanupOnly = false := by
  simp [DirtyGeneration.liveState]

/-- A retired identity is nobody's current one. -/
theorem GenerationSound.member?_retired (sound : GenerationSound snapshot g)
    {tombstone : MemberTombstone} (hmem : tombstone ∈ g.retired) :
    g.member? tombstone.memberId = none := by
  cases hmember : g.member? tombstone.memberId with
  | none => rfl
  | some member =>
    have hids := sound.ids
    simp only [DirtyGeneration.everyone, List.map_append, List.map_map] at hids
    have hdisjoint := (List.nodup_append.1 hids).2.2
    obtain ⟨hcurrent, hid⟩ := member?_spec hmember
    exact absurd hid (hdisjoint _ (List.mem_map.2 ⟨member, hcurrent, rfl⟩) _
      (List.mem_map.2 ⟨tombstone, hmem, rfl⟩))

/-- Growth is armed only where nothing bars it. -/
theorem Armed.not_barred {recipe : EnteredEffect} {member : CoordinatorMember} {role : ResourceRole}
    {action : ResourceAction} {ledger : RoleLedger}
    (h : Armed g g' recipe member role action ledger) (sound : GenerationSound snapshot g)
    (hgrowth : recipe.action.isGrowth = true) : ¬Barred g recipe.owner.memberId := by
  have hadmitted := h.growth hgrowth
  have hid : recipe.owner.memberId = member.memberId := congrArg EffectOwner.memberId h.owner
  rw [hid]
  intro hbarred
  cases hbarred with
  | ended state => simp [hadmitted.live] at state
  | sink found failed =>
    rw [h.found] at found
    cases found
    simp [hadmitted.sink] at failed
  | ending found state =>
    rw [h.found] at found
    cases found
    simp [hadmitted.state] at state
  | retired mem named =>
    have hnone := sound.member?_retired mem
    rw [named, h.found] at hnone
    cases hnone

/-- A member that stays keeps the identities of its resources. -/
theorem MemberStep.kept {member next : CoordinatorMember}
    (h : MemberStep snapshot g acts member next) {before : List Act}
    (identities : Identities g before) (sound : GenerationSound snapshot g)
    (sound' : GenerationSound later g') (found : g.member? member.memberId = some member)
    (found' : g'.member? member.memberId = some next) : MemberKept member next := by
  refine ⟨h.carried, fun role id hknown => ?_⟩
  unfold CoordinatorMember.known? at hknown ⊢
  obtain ⟨resource, original, hrest⟩ := Option.bind_eq_some_iff.1 hknown
  obtain ⟨ledger, current, hid⟩ := Option.bind_eq_some_iff.1 hrest
  obtain ⟨ledger', resource₁, resource', hstep⟩ := h.role sound sound' found found' current
  have hsame := original.symm.trans hstep.original
  cases hsame
  rw [hstep.original', Option.bind_some, hstep.current', Option.bind_some]
  exact hstep.known sound (identities.role member role ledger resource found current original).identified
    hid

theorem Change.kept (h : Change snapshot g g' acts) {before : List Act} (slot : Slot g)
    (identities : Identities g before) (sound : GenerationSound snapshot g)
    (sound' : GenerationSound later g') : Kept g g' acts := by
  obtain ⟨hidentity, hstate⟩ := h.state slot
  have hcleanup : g.state.isCleanupOnly = true → g'.state = g.state := by
    intro hclean
    rcases hstate with hsame | hnow | hlive
    · exact hsame
    · simp [hnow.2] at hclean
    · simp [((DirtyGeneration.liveState_iff g).1 hlive.1).2] at hclean
  have hfenced : g.state.isFenced = true → g'.state = g.state ∨ g'.state.isCleanupOnly = true := by
    intro hfence
    rcases hstate with hsame | hnow | hlive
    · exact .inl hsame
    · exact .inr hnow.1
    · simp [((DirtyGeneration.liveState_iff g).1 hlive.1).1] at hfence
  refine ⟨hidentity, fun hended => ?_, hfenced, hcleanup, fun memberId member hmember => ?_,
    (h.retired slot).1, fun owner howner => ?_⟩
  · by_contra hlive
    have hlater := (DirtyGeneration.liveState_iff g').1 (by simpa using hlive)
    by_cases hfence : g.state.isFenced = true
    · rcases hfenced hfence with hsame | hnow
      · simp [hsame, hfence] at hlater
      · simp [hnow] at hlater
    · have hclean : g.state.isCleanupOnly = true := by
        by_contra hnot
        have halive := (DirtyGeneration.liveState_iff g).2 ⟨by simpa using hfence, by simpa using hnot⟩
        simp [halive] at hended
      simp [hcleanup hclean, hclean] at hlater
  · have hid := (member?_spec hmember).2
    rcases h.member slot hmember with hstays | hretired
    · obtain ⟨next, hnext, hstep⟩ := hstays
      subst hid
      exact .inl ⟨next, hnext, hstep.kept identities sound sound' hmember hnext⟩
    · obtain ⟨tombstone, hmem, hnamed⟩ := (h.retired slot).2 member hretired.1
      exact .inr ⟨tombstone, hmem, hnamed.trans hid⟩
  · obtain ⟨recipe, hact, hgrowth, rfl⟩ := mem_growthArms.1 howner
    obtain ⟨-, member, role, action, ledger, hentry⟩ := h.armed hact
    exact hentry.not_barred sound hgrowth

end Changes

end AgentSdk.Journal
