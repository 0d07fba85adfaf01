import AgentSdk.Journal.Held

/-!
# No effect is replayed

The results of the preceding modules about one generation, put together for
every run of the journal from its initial snapshot.

## Main results

* `effects_not_replayed` — every moment of a run, every two moments of one
  generation, and how a generation ends.
* `fenced_left_by_recovery` — a fenced generation is left for cleanup before it is
  closed.
-/

namespace AgentSdk.Journal

open AgentSdk.Text AgentSdk.Outcome

/-- What holds of a generation and its acts at every moment. -/
structure NoReplay (g : DirtyGeneration) (acts : List Act) : Prop where
  /-- Each create and each start was armed at most once. -/
  armed : (growthArms acts).Nodup
  /-- The entered effect owns a pending cell, and there is no other one. -/
  pending : ∀ owner effect, g.cell? owner = some (.pending effect) ↔
    ∃ entered ∈ g.entered, entered.owner = owner ∧ entered.effectSequence = effect
  single : g.members.flatMap CoordinatorMember.pending =
    g.entered.toList.map fun entered => entered.effectSequence
  /-- A number belongs to one member, role and action. -/
  owned : ∀ effect ∈ numberedEffects acts, ∀ other ∈ numberedEffects acts,
    effect.effectSequence = other.effectSequence → effect.owner = other.owner
  effects : ∀ effect ∈ g.effects, effect ∈ numberedEffects acts
  entered : ∀ recipe, .armed recipe ∈ acts → recipe.toQueuedEffect ∈ numberedEffects acts
  cells : ∀ owner receipt number, g.cell? owner = some receipt → receipt.effect? = some number →
    ∃ effect ∈ numberedEffects acts, effect.effectSequence = number ∧ effect.owner = owner
  /-- Nobody was registered twice, and everyone is current or retired. -/
  ids : ((registrations acts).map Prod.fst).Nodup
  sequences : ((registrations acts).map Prod.snd).Nodup
  everyone : (registrations acts).Perm g.everyone
  retired : ∀ tombstone ∈ g.retired, g.member? tombstone.memberId = none
  /-- Live members have different subnets. -/
  slots : g.slots.Nodup
  /-- A create returned one identity, and its resource is known by it. -/
  returned : ∀ owner id id', .returned owner id ∈ acts → .returned owner id' ∈ acts → id = id'
  known : ∀ member role id, g.member? member.memberId = some member →
    (member.ledger? role).isSome = true → .returned (ownerOf member role .create) id ∈ acts →
    member.known? role = some id

theorem History.noReplay {snapshot : CoordinatorSnapshot} {g : DirtyGeneration} {acts : List Act}
    (history : History g acts) (sound : GenerationSound snapshot g) : NoReplay g acts := by
  have hids := (history.roll.map Prod.fst).nodup_iff.2 sound.ids
  have hsequences := (history.roll.map Prod.snd).nodup_iff.2 sound.sequences
  refine ⟨history.arms.once, fun owner effect => ⟨history.slot.pending owner effect, ?_⟩,
    sound.pending, history.numbers.owned, history.numbers.effects, history.numbers.armed,
    history.numbers.cells, hids, hsequences, history.roll,
    fun tombstone hmem => sound.member?_retired hmem, sound.slots, history.identities.once,
    fun member role id found hsome hact => ?_⟩
  · rintro ⟨entered, hmem, rfl, rfl⟩
    exact history.slot.entered entered hmem
  · obtain ⟨ledger, current⟩ := Option.isSome_iff_exists.1 hsome
    obtain ⟨resource, original, -⟩ := sound.ledger found current
    rw [CoordinatorMember.known?, original, Option.bind_some, current, Option.bind_some]
    exact (history.identities.role member role ledger resource found current original).returned id
      hact

/-- A call ends a generation only by its clean close. -/
theorem JournalState.Sound.stays {journal : JournalState} (sound : journal.Sound) (call : Call)
    {g : DirtyGeneration} (hg : journal.snapshot.generation = .dirty g) :
    (∃ g', (journal.step call).snapshot.generation = .dirty g' ∧ g'.identity = g.identity) ∨
      call = .transition .clean_close ∧
        ∃ clean, (journal.step call).snapshot.generation = .clean clean := by
  cases call with
  | begin_ identity basis =>
    rcases journal.step_begin identity basis with hsame | hbegun
    · exact .inl ⟨g, by rw [hsame]; exact hg, rfl⟩
    · obtain ⟨previous, _, hclean, -⟩ := hbegun
      rw [hg] at hclean
      cases hclean
  | transition event =>
    rcases journal.step_transition event with hsame | haccepted
    · exact .inl ⟨g, by rw [hsame]; exact hg, rfl⟩
    · obtain ⟨found, hfound, houtcome⟩ := haccepted
      rw [hg] at hfound
      cases hfound
      generalize journal.step (.transition event) = next at houtcome
      cases houtcome with
      | unchanged => exact .inl ⟨g, hg, rfl⟩
      | changed generation valid acts change =>
        exact .inl ⟨_, generation, (change.state (sound.history g hg).slot).1⟩
      | closed closing admission members queue entered generation valid ordinal acts =>
        exact .inr ⟨by rw [closing], _, generation⟩

/-- **No effect is replayed.**  At every moment of a run each growth was armed at
most once, the entered effect owns the only pending cell, numbers, members and
returned identities are not used twice; from any moment to any later one of the
same generation, everything acquired is kept and nothing that barred growth
allows it again; and only the clean close ends a generation. -/
theorem effects_not_replayed {authorityId daemonId : JsString} {start : CoordinatorSnapshot}
    (h : createInitialCoordinatorSnapshot authorityId daemonId = .ok start)
    (earlier later : List Call) :
    (∀ g, (JournalState.after start earlier).snapshot.generation = .dirty g →
      NoReplay g (JournalState.after start earlier).acts) ∧
    (∀ g g', (JournalState.after start earlier).snapshot.generation = .dirty g →
      (JournalState.after start (earlier ++ later)).snapshot.generation = .dirty g' →
      g'.identity.ordinal = g.identity.ordinal →
      ∃ new, (JournalState.after start (earlier ++ later)).acts =
          (JournalState.after start earlier).acts ++ new ∧ Kept g g' new) ∧
    (∀ g call, (JournalState.after start earlier).snapshot.generation = .dirty g →
      (∃ g', ((JournalState.after start earlier).step call).snapshot.generation = .dirty g' ∧
        g'.identity = g.identity) ∨
      call = .transition .clean_close ∧
        ∃ clean, ((JournalState.after start earlier).step call).snapshot.generation = .clean clean) := by
  have hsound := JournalState.run_sound h earlier
  refine ⟨fun g hg => ?_, (JournalState.run_later h earlier later).kept,
    fun g call hg => hsound.stays call hg⟩
  exact (hsound.history g hg).noReplay (hsound.valid.sound hg)

/-! ## A fenced generation that is recovered -/

namespace Sample

/-- A generation begins and is fenced. -/
def fence : List Call := [.begin_ identity basis, .transition (.fence .storage)]

/-- The initial snapshot leads to a fenced generation, and its recovery to one of
the same identity for cleanup only. -/
theorem recovers_run : ∃ start g g',
    createInitialCoordinatorSnapshot authorityId daemonId = .ok start ∧
      (JournalState.after start fence).snapshot.generation = .dirty g ∧
      (JournalState.after start (fence ++ [.transition .reopen_cleanup])).snapshot.generation =
        .dirty g' ∧ g.state.isFenced = true ∧ g'.state.isCleanupOnly = true ∧
      g'.identity = g.identity := by
  obtain ⟨start, hstart⟩ := exists_start
  obtain ⟨p1, -, hbegun⟩ := after_begin hstart
  have hplan : planDirtyTransition (snapshot 1 p1 begun) begun (.fence .storage) =
      commitDirty (snapshot 1 p1 begun) { begun with state := .fenced .storage 2 } := rfl
  obtain ⟨p2, -, hfenced⟩ := advance hstart hbegun (by omega) (.inl hplan) fun digest hdigest =>
    valid_of_state ⟨by omega, by omega⟩ hdigest (.inr rfl)
  have hstate : (JournalState.after start fence).snapshot =
      snapshot 2 p2 { begun with state := .fenced .storage 2 } := hfenced
  have hg : (JournalState.after start fence).snapshot.generation =
      .dirty { begun with state := .fenced .storage 2 } := by
    rw [hstate]
    rfl
  have hroom : (JournalState.after start fence).snapshot.sequence < MAX_SAFE_INTEGER := by
    rw [hstate]
    show 2 < MAX_SAFE_INTEGER
    decide
  have hheld := JournalState.run_held hstart fence
  have hslot := (hheld.sound.history _ hg).slot
  obtain ⟨digest, -, hreopen⟩ := planReopenCleanup_accepted hheld.sound.valid hg hslot
    (hheld.openings _ hg) rfl hroom
  have hrecovered : Recovered { begun with state := .fenced .storage 2 }
      (({ begun with state := .fenced .storage 2 } : DirtyGeneration).recoveredWith digest) :=
    recovered_kept hslot (hheld.sound.valid.sound hg)
  refine ⟨start, _, _, hstart, hg, ?_, rfl, hrecovered.cleanup, hrecovered.identity⟩
  rw [JournalState.after, Machine.run_append]
  show ((JournalState.after start fence).step (.transition .reopen_cleanup)).snapshot.generation = _
  simp only [JournalState.step, hreopen]
  rfl


end Sample

/-- The theorem at a generation that was fenced and then recovered. -/
theorem effects_not_replayed_recovery : ∃ start g g',
    (JournalState.after start Sample.fence).snapshot.generation = .dirty g ∧
      (JournalState.after start (Sample.fence ++ [.transition .reopen_cleanup])).snapshot.generation =
        .dirty g' ∧ NoReplay g (JournalState.after start Sample.fence).acts ∧
      ∃ new, Kept g g' new := by
  obtain ⟨start, g, g', hstart, hg, hg', -, -, hidentity⟩ := Sample.recovers_run
  obtain ⟨hmoment, hkept, -⟩ :=
    effects_not_replayed hstart Sample.fence [.transition .reopen_cleanup]
  obtain ⟨new, -, hsame⟩ := hkept g g' hg hg' (by rw [hidentity])
  exact ⟨start, g, g', hg, hg', hmoment g hg, new, hsame⟩

/-- **A fenced generation is left before its clean close**: recovery makes it one
for cleanup only, of the same identity. -/
theorem fenced_left_by_recovery :
    ¬∀ (authorityId daemonId : JsString) (start : CoordinatorSnapshot),
      createInitialCoordinatorSnapshot authorityId daemonId = .ok start →
      ∀ (earlier later : List Call) (g g' : DirtyGeneration),
        (JournalState.after start earlier).snapshot.generation = .dirty g →
        (JournalState.after start (earlier ++ later)).snapshot.generation = .dirty g' →
        g'.identity = g.identity → g.state.isFenced = true → g'.state.isFenced = true := by
  intro hclaim
  obtain ⟨start, g, g', hstart, hg, hg', hfenced, hcleanup, hidentity⟩ := Sample.recovers_run
  have hstays := hclaim _ _ start hstart Sample.fence [.transition .reopen_cleanup] g g' hg hg'
    hidentity hfenced
  cases hstate : g'.state with
  | fenced fault atSequence => simp [hstate, GenerationState.isCleanupOnly] at hcleanup
  | _ => simp [hstate, GenerationState.isFenced] at hstays

end AgentSdk.Journal
