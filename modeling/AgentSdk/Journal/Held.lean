import AgentSdk.Journal.Reopen

/-!
# What every run holds

The invariant of a run of the journal, an event that is planned is committed, and
the first steps of a generation that begins.

## Main results

* `JournalState.run_held` — the obligations and the open creates of every run.
* `JournalState.step_commits` — an event whose plan leads to a valid snapshot is
  committed.
-/

namespace AgentSdk.Journal

open AgentSdk.Text AgentSdk.Outcome AgentSdk.Json

/-- The invariant of a run: its history is true, its obligations are held and few
creates are open. -/
structure JournalState.Held (journal : JournalState) : Prop where
  sound : journal.Sound
  obligations : ∀ g, journal.snapshot.generation = .dirty g → Obligations g journal.acts
  openings : ∀ g, journal.snapshot.generation = .dirty g → Openings g

theorem JournalState.Held.step {journal : JournalState} (held : journal.Held) (call : Call) :
    (journal.step call).Held := by
  have hsound := held.sound.step call
  cases call with
  | begin_ identity basis =>
    cases hplan : beginCoordinatorGeneration journal.snapshot identity basis with
    | error refusal =>
      have hsame : journal.step (.begin_ identity basis) = journal := by
        simp only [JournalState.step, hplan]
      rw [hsame]
      exact held
    | ok plan =>
      obtain ⟨previous, g, -, -, -, members, -, -, -, hcommitted⟩ :=
        beginCoordinatorGeneration_ok hplan
      have hstep : journal.step (.begin_ identity basis) =
          { snapshot := plan.snapshot, acts := [] } := by
        simp only [JournalState.step, hplan]
      rw [hstep] at hsound ⊢
      refine ⟨hsound, fun g' _ => .of_empty, fun g' hg' => ?_⟩
      have hsame := hcommitted.generation.symm.trans hg'
      cases hsame
      exact .of_empty members
  | transition event =>
    rcases journal.step_transition event with hsame | haccepted
    · rw [hsame]
      exact held
    · obtain ⟨g, hg, houtcome⟩ := haccepted
      generalize journal.step (.transition event) = next at houtcome hsound
      cases houtcome with
      | unchanged => exact held
      | changed generation valid acts change =>
        have hhistory := held.sound.history g hg
        refine ⟨hsound, fun g' hg' => ?_, fun g' hg' => ?_⟩
        · rw [generation] at hg'
          cases hg'
          rw [acts]
          exact (held.obligations g hg).change hhistory (held.sound.valid.sound hg) change
            (valid.sound generation)
        · rw [generation] at hg'
          cases hg'
          exact (held.openings g hg).change hhistory.slot change
      | closed closing admission members queue entered generation valid ordinal acts =>
        refine ⟨hsound, fun g' hg' => ?_, fun g' hg' => ?_⟩
        · rw [generation] at hg'
          cases hg'
        · rw [generation] at hg'
          cases hg'

theorem JournalState.run_held {authorityId daemonId : JsString} {start : CoordinatorSnapshot}
    (h : createInitialCoordinatorSnapshot authorityId daemonId = .ok start) (calls : List Call) :
    (JournalState.after start calls).Held := by
  refine Machine.run_invariant JournalState.step (fun _ call held => held.step call) ?_ calls
  obtain ⟨-, hclean⟩ := createInitialCoordinatorSnapshot_ok h
  refine ⟨JournalState.initial_sound h, fun g hg => ?_, fun g hg => ?_⟩
  · rw [hclean] at hg
    cases hg
  · rw [hclean] at hg
    cases hg

/-! ## Events that are committed -/

/-- The next snapshot of a commit. -/
def CoordinatorSnapshot.next (snapshot : CoordinatorSnapshot) (digest : JsString)
    (g : DirtyGeneration) : CoordinatorSnapshot :=
  { snapshot with
    sequence := snapshot.sequence + 1, previousDigest := some digest, generation := .dirty g }

theorem JournalState.step_commits {journal : JournalState} {g g' : DirtyGeneration}
    {event : CoordinatorEvent} (hg : journal.snapshot.generation = .dirty g)
    (valid : journal.snapshot.Valid) (room : journal.snapshot.sequence < MAX_SAFE_INTEGER)
    (hplan : planDirtyTransition journal.snapshot g event = commitDirty journal.snapshot g' ∨
      planDirtyTransition journal.snapshot g event = commitArmed journal.snapshot g' ∧
        g'.entered.isSome = true)
    (hnext : ∀ digest, isDigest digest = true → (journal.snapshot.next digest g').Valid) :
    ∃ digest, isDigest digest = true ∧
      (journal.step (.transition event)).snapshot = journal.snapshot.next digest g' := by
  obtain ⟨digest, hdigest, hisDigest⟩ := valid.digest
  have hcommit : commit journal.snapshot (.dirty g') = .ok (journal.snapshot.next digest g') :=
    commit_accepted room hdigest _ rfl (hnext digest hisDigest)
  refine ⟨digest, hisDigest, ?_⟩
  have hroom : ¬MAX_SAFE_INTEGER < journal.snapshot.sequence + 1 := by omega
  rcases hplan with hdirty | harmed
  · have hplanned : planCoordinatorTransition journal.snapshot event =
        .ok (.commit (journal.snapshot.next digest g')) := by
      simp only [planCoordinatorTransition, hg, hdirty]
      refine failIf_bind_eq_ok.2 ⟨hroom, ?_⟩
      unfold commitDirty
      exact bind_eq_ok.2 ⟨_, hcommit, rfl⟩
    simp only [JournalState.step, hplanned]
    rfl
  · obtain ⟨entered, hentered⟩ := Option.isSome_iff_exists.1 harmed.2
    have hplanned : planCoordinatorTransition journal.snapshot event =
        .ok (.arm (journal.snapshot.next digest g') entered) := by
      simp only [planCoordinatorTransition, hg, harmed.1]
      refine failIf_bind_eq_ok.2 ⟨hroom, ?_⟩
      unfold commitArmed
      refine bind_eq_ok.2 ⟨_, hcommit, ?_⟩
      obtain ⟨identity, state, basis, nextMember, nextEffect, members, queue, slot, retired⟩ := g'
      subst hentered
      rfl
    simp only [JournalState.step, hplanned]
    rfl

/-! ## A generation that begins -/

namespace Sample

def digest (letter : UInt16) : JsString := js "sha256:" ++ List.replicate 64 letter

def authorityId : JsString := js "00000000-0000-4000-8000-000000000001"

def daemonId : JsString := js "daemon"

def identity : GenerationIdentity :=
  { generationId := js "00000000-0000-4000-8000-000000000002"
    ordinal := 1
    coordinationPolicyDigest := digest 97
    engineBindingDigest := digest 98
    endpointBindingDigest := digest 99
    hostPreparationDigest := digest 100
    nativeAssetDigest := digest 101 }

def basis : AuthorityBasis :=
  .host_engine_only
    { hostDigest := digest 97, engineDigest := digest 98, exclusionDigest := digest 99
      atSequence := 1 }

def snapshot (sequence : Nat) (previous : JsString) (g : DirtyGeneration) : CoordinatorSnapshot :=
  { authorityId, engineKey := engineKeyOf daemonId, daemonId, sequence
    previousDigest := some previous, generation := .dirty g }

theorem digests_shape : isDigest (digest 97) = true ∧ isDigest (digest 98) = true ∧
    isDigest (digest 99) = true ∧ isDigest (digest 100) = true ∧ isDigest (digest 101) = true := by
  decide

variable {sequence : Nat} {previous : JsString} {g : DirtyGeneration}

/-- The generation as it begins. -/
def begun : DirtyGeneration :=
  { identity, state := .awaiting_first_observer, basis, nextMemberSequence := 1
    nextEffectSequence := 1, members := [], queue := [], entered := none, retired := [] }

/-- The generation as it begins or as it is fenced is valid. -/
theorem valid_of_state {gstate : GenerationState} (hsequence : 1 ≤ sequence ∧ sequence ≤ 9)
    (hprevious : isDigest previous = true)
    (hgstate : gstate = .awaiting_first_observer ∨ gstate = .fenced .storage sequence) :
    (snapshot sequence previous { begun with state := gstate }).Valid := by
  have hauthority : isUuid authorityId = true := by decide
  have hdaemon : isId daemonId = true := by decide
  have hdistinct : identity.generationId ≠ authorityId := by decide
  have hkey : isDigest (engineKeyOf daemonId) = true := isDigest_coordinatorDigest _ _
  have hcount : isSequence sequence = true := decide_eq_true (hsequence.2.trans (by decide))
  have hbegun : begun.shape = true := by decide
  have hstate : gstate.shape = true := by
    rcases hgstate with hawaiting | hfenced
    · rw [hawaiting]; rfl
    · rw [hfenced]; exact hcount
  have hgeneration : ({ begun with state := gstate } : DirtyGeneration).shape = true := by
    simp only [DirtyGeneration.shape, Bool.and_eq_true] at hbegun ⊢
    simp only [hbegun, hstate, and_self]
  have hshape : (snapshot sequence previous { begun with state := gstate }).shape = true := by
    simp only [CoordinatorSnapshot.shape, snapshot, Generation.shape, hauthority, hkey, hdaemon,
      hprevious, hgeneration, hcount, Option.all_some, Bool.and_true]
  have hdirty : validateDirty (snapshot sequence previous { begun with state := gstate })
      { begun with state := gstate } = .ok () := by
    unfold validateDirty
    refine bind_eq_ok.2 ⟨(), ?_, bind_eq_ok.2 ⟨{}, rfl, failIf_bind_eq_ok.2 ⟨by
      simp [begun, DirtyGeneration.effects], failIf_bind_eq_ok.2 ⟨by simp [begun],
      bind_eq_ok.2 ⟨(), rfl, bind_eq_ok.2 ⟨(), rfl, bind_eq_ok.2 ⟨(), rfl, bind_eq_ok.2 ⟨(), rfl,
      failIf_eq_ok.2 (Nat.not_lt.2 (envelope_fits hshape hgeneration))⟩⟩⟩⟩⟩⟩⟩⟩
    have hbasis : basis.atSequence = 1 := rfl
    have hordinal : identity.ordinal = 1 := rfl
    have hfull : basis.isFull = false := rfl
    have hpositive : sequence ≠ 0 := by omega
    unfold validateCounters
    refine failIf_bind_eq_ok.2 ⟨?_, failIf_bind_eq_ok.2 ⟨?_, failIf_bind_eq_ok.2 ⟨by simp [begun],
      failIf_bind_eq_ok.2 ⟨by simp [begun, sortedUnique], failIf_bind_eq_ok.2 ⟨by
      simp [begun, DirtyGeneration.everyone],
      failIf_eq_ok.2 (by simp [begun, DirtyGeneration.slots])⟩⟩⟩⟩⟩
    · rcases hgstate with hawaiting | hfenced
      · simp [snapshot, begun, hbasis, hordinal, hdistinct, hpositive, hawaiting]
      · simp [snapshot, begun, hbasis, hordinal, hdistinct, hpositive, hfenced]
    · rcases hgstate with hawaiting | hfenced
      · simp [begun, hfull, hawaiting]
      · simp [hfenced]
  refine ⟨framed_of_validated hshape rfl hdirty, hshape, ?_⟩
  unfold validateSnapshot
  refine bind_eq_ok.2 ⟨engineKeyOf daemonId, failIf_bind_eq_ok.2 ⟨by simp [snapshot, hdaemon], rfl⟩,
    failIf_bind_eq_ok.2 ⟨not_not.2 rfl, failIf_bind_eq_ok.2 ⟨?_, hdirty⟩⟩⟩
  have hpositive : sequence ≠ 0 := by omega
  simp [snapshot, hpositive]

theorem valid_begun (hprevious : isDigest previous = true) : (snapshot 1 previous begun).Valid :=
  valid_of_state ⟨by omega, by omega⟩ hprevious (.inl rfl)

/-- There is an initial snapshot. -/
theorem exists_start :
    ∃ start, createInitialCoordinatorSnapshot authorityId daemonId = .ok start := by
  have hauthority : isUuid authorityId = true := by decide
  have hdaemon : isId daemonId = true := by decide
  have hkey : isDigest (engineKeyOf daemonId) = true := isDigest_coordinatorDigest _ _
  let initial : CoordinatorSnapshot :=
    { authorityId, engineKey := engineKeyOf daemonId, daemonId, sequence := 0
      previousDigest := none
      generation := .clean { generationOrdinal := 0, lastGenerationId := none
                             settledAtSequence := 0 } }
  have hshape : initial.shape = true := by
    simp only [initial, CoordinatorSnapshot.shape, hauthority, hdaemon, hkey, Option.all_none]
    decide
  have hclean : jsonBytes initial.generation.json ≤ 200 := by decide
  have hframed : jsonBytes initial.json ≤ 2100 + 200 :=
    CoordinatorSnapshot.jsonWith_le hshape hclean
  have hvalid : initial.Valid := by
    refine ⟨(Nat.add_le_add_right hframed _).trans (Nat.le_of_ble_eq_true rfl), hshape, ?_⟩
    unfold validateSnapshot
    refine bind_eq_ok.2 ⟨engineKeyOf daemonId,
      failIf_bind_eq_ok.2 ⟨by simp [initial, hdaemon], rfl⟩,
      failIf_bind_eq_ok.2 ⟨not_not.2 rfl, failIf_bind_eq_ok.2 ⟨by simp [initial], rfl⟩⟩⟩
  refine ⟨initial, ?_⟩
  unfold createInitialCoordinatorSnapshot
  refine bind_eq_ok.2 ⟨engineKeyOf daemonId, failIf_bind_eq_ok.2 ⟨by simp [hdaemon], rfl⟩, ?_⟩
  exact hvalid.parsed

variable {start : CoordinatorSnapshot}

theorem after_begin (h : createInitialCoordinatorSnapshot authorityId daemonId = .ok start) :
    ∃ digest, isDigest digest = true ∧
      (JournalState.after start [.begin_ identity basis]).snapshot = snapshot 1 digest begun := by
  have hvalid := (createInitialCoordinatorSnapshot_ok h).1
  have hstart : start = { authorityId, engineKey := engineKeyOf daemonId, daemonId, sequence := 0
                          previousDigest := none
                          generation := .clean { generationOrdinal := 0, lastGenerationId := none
                                                 settledAtSequence := 0 } } := by
    unfold createInitialCoordinatorSnapshot at h
    obtain ⟨engineKey, hkey, h⟩ := bind_eq_ok.1 h
    obtain ⟨-, hkey⟩ := failIf_bind_eq_ok.1 hkey
    cases hkey
    exact (parseCoordinatorSnapshot_ok h).1
  obtain ⟨digest, hdigest, hisDigest⟩ := hvalid.digest
  have hcommit : commit start (.dirty begun) = .ok (start.next digest begun) := by
    refine commit_accepted ?_ hdigest _ rfl ?_
    · rw [hstart]
      decide
    · rw [hstart]
      exact valid_begun hisDigest
  have hplan : beginCoordinatorGeneration start identity basis =
      .ok (.commit (start.next digest begun)) := by
    have hclean := (createInitialCoordinatorSnapshot_ok h).2
    have hsequence : start.sequence = 0 := by rw [hstart]
    unfold beginCoordinatorGeneration
    simp only [hclean, hsequence]
    refine failIf_bind_eq_ok.2 ⟨by decide, failIf_bind_eq_ok.2 ⟨by decide, ?_⟩⟩
    unfold commitDirty
    exact bind_eq_ok.2 ⟨_, hcommit, rfl⟩
  refine ⟨digest, hisDigest, ?_⟩
  simp only [JournalState.after, Machine.run_cons, Machine.run_nil, JournalState.step, hplan]
  rw [hstart]
  rfl

/-- One more event of the sample. -/
theorem advance (h : createInitialCoordinatorSnapshot authorityId daemonId = .ok start)
    {calls : List Call} {g' : DirtyGeneration} {event : CoordinatorEvent}
    (hstate : (JournalState.after start calls).snapshot = snapshot sequence previous g)
    (hsequence : sequence ≤ 9)
    (hplan : planDirtyTransition (snapshot sequence previous g) g event =
        commitDirty (snapshot sequence previous g) g' ∨
      planDirtyTransition (snapshot sequence previous g) g event =
        commitArmed (snapshot sequence previous g) g' ∧ g'.entered.isSome = true)
    (hnext : ∀ digest, isDigest digest = true → (snapshot (sequence + 1) digest g').Valid) :
    ∃ digest, isDigest digest = true ∧
      (JournalState.after start (calls ++ [.transition event])).snapshot =
        snapshot (sequence + 1) digest g' := by
  have hvalid := (JournalState.run_sound h calls).valid
  have hg : (JournalState.after start calls).snapshot.generation = .dirty g := by
    rw [hstate]
    rfl
  have hroom : (JournalState.after start calls).snapshot.sequence < MAX_SAFE_INTEGER := by
    rw [hstate]
    exact Nat.lt_of_le_of_lt hsequence (by decide)
  rw [← hstate] at hplan
  obtain ⟨digest, hdigest, hstep⟩ := JournalState.step_commits hg hvalid hroom hplan
    fun digest hdigest => by
      rw [hstate]
      exact hnext digest hdigest
  refine ⟨digest, hdigest, ?_⟩
  rw [JournalState.after, Machine.run_append]
  rw [hstate] at hstep
  exact hstep

end Sample

end AgentSdk.Journal
