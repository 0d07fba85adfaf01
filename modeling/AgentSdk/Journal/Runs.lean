import AgentSdk.Journal.Continuity
import AgentSdk.Lib.Machine

/-!
# Runs of the journal

The journal holds the last committed snapshot and the acts of its generation.  A
call that is refused changes nothing; so does a plan that was never committed.
A crash leaves the last committed snapshot, so a run goes on after it with
whatever calls the next owner makes, `reopen_cleanup` among them.

## Main results

* `JournalState.run_sound` — every run keeps the snapshot valid and the history true.
* `JournalState.run_later` — what any two moments of a run have to do with each other.
-/

namespace AgentSdk.Journal

open AgentSdk.Text AgentSdk.Outcome

/-- The last committed snapshot, and the acts of its generation so far. -/
structure JournalState where
  snapshot : CoordinatorSnapshot
  acts : List Act

/-- A request to the journal. -/
inductive Call
  | begin_ (identity : GenerationIdentity) (basis : AuthorityBasis)
  | transition (event : CoordinatorEvent)

/-- The acts of an event that a snapshot accepted. -/
def eventActs (snapshot : CoordinatorSnapshot) (plan : CoordinatorPlan) (event : CoordinatorEvent) :
    List Act :=
  match snapshot.generation with
  | .dirty generation => actsOf snapshot generation plan event
  | .clean _ => []

/-- Apply a call: commit what it plans, or change nothing. -/
def JournalState.step (journal : JournalState) : Call → JournalState
  | .begin_ identity basis =>
    match beginCoordinatorGeneration journal.snapshot identity basis with
    | .ok plan => { snapshot := plan.snapshot, acts := [] }
    | .error _ => journal
  | .transition event =>
    match planCoordinatorTransition journal.snapshot event with
    | .ok plan =>
      { snapshot := plan.snapshot
        acts := journal.acts ++ eventActs journal.snapshot plan event }
    | .error _ => journal

/-- The journal after calls from an initial snapshot. -/
def JournalState.after (start : CoordinatorSnapshot) (calls : List Call) : JournalState :=
  Machine.run JournalState.step { snapshot := start, acts := [] } calls

/-- The number of the generation, or of the last one. -/
def Generation.ordinal : Generation → Nat
  | .clean generation => generation.generationOrdinal
  | .dirty generation => generation.identity.ordinal

/-! ## The history of a generation -/

/-- What the acts of a generation tell about it. -/
structure History (g : DirtyGeneration) (acts : List Act) : Prop where
  slot : Slot g
  numbers : Numbers g acts
  roll : Roll g acts
  arms : Arms g acts
  identities : Identities g acts

theorem History.change {snapshot later : CoordinatorSnapshot} {g g' : DirtyGeneration}
    {acts new : List Act} (history : History g acts) (sound : GenerationSound snapshot g)
    (sound' : GenerationSound later g') (h : Change snapshot g g' new) :
    History g' (acts ++ new) :=
  ⟨history.slot.change h, history.numbers.change history.slot h,
    history.roll.change history.slot sound h, history.arms.change history.slot sound h,
    history.identities.change history.slot sound sound' h⟩

/-- A generation without members, as it begins. -/
theorem History.of_empty {g : DirtyGeneration} (members : g.members = []) (queue : g.queue = [])
    (entered : g.entered = none) (retired : g.retired = []) : History g [] := by
  have hmember : ∀ memberId, g.member? memberId = none := by
    intro memberId
    rw [DirtyGeneration.member?, members, List.find?_nil]
  have hcell : ∀ owner, g.cell? owner = none := by
    intro owner
    rw [DirtyGeneration.cell?, hmember, Option.bind_none]
  have heffects : g.effects = [] := by simp [DirtyGeneration.effects, queue, entered]
  refine ⟨⟨by simp [entered], by simp [hcell]⟩, ⟨by simp [numberedEffects], by simp [numberedEffects],
    by simp [heffects], by simp, by simp [hcell]⟩, ?_, ⟨List.nodup_nil, by simp [growthArms],
    by simp [growthArms]⟩, ⟨by simp [hmember], by simp, by simp⟩⟩
  simp [Roll, registrations, DirtyGeneration.everyone, members, retired]

/-- The snapshot is valid, and the acts tell about its generation. -/
structure JournalState.Sound (journal : JournalState) : Prop where
  valid : journal.snapshot.Valid
  history : ∀ g, journal.snapshot.generation = .dirty g → History g journal.acts

theorem createInitialCoordinatorSnapshot_ok {authorityId daemonId : JsString}
    {start : CoordinatorSnapshot} (h : createInitialCoordinatorSnapshot authorityId daemonId = .ok start) :
    start.Valid ∧ start.generation = .clean
      { generationOrdinal := 0, lastGenerationId := none, settledAtSequence := 0 } := by
  unfold createInitialCoordinatorSnapshot at h
  obtain ⟨engineKey, -, h⟩ := bind_eq_ok.1 h
  obtain ⟨rfl, hvalid⟩ := parseCoordinatorSnapshot_ok h
  exact ⟨hvalid, rfl⟩

theorem JournalState.initial_sound {authorityId daemonId : JsString} {start : CoordinatorSnapshot}
    (h : createInitialCoordinatorSnapshot authorityId daemonId = .ok start) :
    JournalState.Sound { snapshot := start, acts := [] } := by
  obtain ⟨hvalid, hclean⟩ := createInitialCoordinatorSnapshot_ok h
  refine ⟨hvalid, fun g hg => ?_⟩
  rw [hclean] at hg
  cases hg

/-- An accepted begin opens an empty generation with the next ordinal. -/
theorem beginCoordinatorGeneration_ok {snapshot : CoordinatorSnapshot} {identity : GenerationIdentity}
    {basis : AuthorityBasis} {plan : CoordinatorPlan}
    (h : beginCoordinatorGeneration snapshot identity basis = .ok plan) :
    ∃ previous g, snapshot.generation = .clean previous ∧
      identity.ordinal = previous.generationOrdinal + 1 ∧ g.identity = identity ∧ g.members = [] ∧
      g.queue = [] ∧ g.entered = none ∧ g.retired = [] ∧
      Committed snapshot (.dirty g) plan.snapshot := by
  unfold beginCoordinatorGeneration at h
  cases hgeneration : snapshot.generation with
  | dirty g => simp [hgeneration] at h
  | clean previous =>
    simp only [hgeneration] at h
    obtain ⟨-, h⟩ := failIf_bind_eq_ok.1 h
    obtain ⟨hidentity, h⟩ := failIf_bind_eq_ok.1 h
    obtain ⟨next, rfl, hcommitted⟩ := commitDirty_ok h
    simp only [not_or, not_not] at hidentity
    exact ⟨previous, _, rfl, hidentity.1, rfl, rfl, rfl, rfl, rfl, hcommitted⟩

/-- What an accepted event leads to: the generation it changed, or its end. -/
inductive JournalState.Outcome (journal : JournalState) (event : CoordinatorEvent)
    (g : DirtyGeneration) : JournalState → Prop
  | unchanged : Outcome journal event g journal
  | changed {next : JournalState} {g' : DirtyGeneration} {new : List Act}
      (generation : next.snapshot.generation = .dirty g') (valid : next.snapshot.Valid)
      (acts : next.acts = journal.acts ++ new) (change : Change journal.snapshot g g' new) :
      Outcome journal event g next
  | closed {next : JournalState} {clean : CleanGeneration} (closing : event = .clean_close)
      (admission : g.admissionOpen = false)
      (members : g.members = []) (queue : g.queue = []) (entered : g.entered = none)
      (generation : next.snapshot.generation = .clean clean) (valid : next.snapshot.Valid)
      (ordinal : clean.generationOrdinal = g.identity.ordinal)
      (acts : next.acts = journal.acts) : Outcome journal event g next

/-- An event meets a dirty generation, or changes nothing. -/
theorem JournalState.step_transition (journal : JournalState) (event : CoordinatorEvent) :
    journal.step (.transition event) = journal ∨
      ∃ g, journal.snapshot.generation = .dirty g ∧
        JournalState.Outcome journal event g (journal.step (.transition event)) := by
  simp only [JournalState.step]
  cases hplan : planCoordinatorTransition journal.snapshot event with
  | error refusal => exact .inl rfl
  | ok plan =>
    obtain ⟨g, hg, htransition⟩ := planCoordinatorTransition_ok hplan
    refine .inr ⟨g, hg, ?_⟩
    have hacts : eventActs journal.snapshot plan event = actsOf journal.snapshot g plan event := by
      simp [eventActs, hg]
    simp only [hacts]
    cases htransition with
    | inr hclosed =>
      obtain ⟨rfl, hclosing⟩ := hclosed
      exact .closed rfl hclosing.admission hclosing.members hclosing.queue hclosing.entered
        hclosing.committed.generation hclosing.committed.valid rfl (List.append_nil _)
    | inl hchange =>
      generalize actsOf journal.snapshot g plan event = new at hchange
      cases hchange with
      | unchanged =>
        have hsame : ({ snapshot := (CoordinatorPlan.commit journal.snapshot).snapshot
                        acts := journal.acts ++ [] } : JournalState) = journal := by
          simp [CoordinatorPlan.snapshot]
        rw [hsame]
        exact .unchanged
      | changes change committed =>
        exact .changed committed.generation committed.valid rfl change

/-- A begin meets a clean generation, or changes nothing. -/
theorem JournalState.step_begin (journal : JournalState) (identity : GenerationIdentity)
    (basis : AuthorityBasis) :
    journal.step (.begin_ identity basis) = journal ∨
      ∃ previous g, journal.snapshot.generation = .clean previous ∧
        (journal.step (.begin_ identity basis)).snapshot.generation = .dirty g ∧
        (journal.step (.begin_ identity basis)).snapshot.Valid ∧
        (journal.step (.begin_ identity basis)).acts = [] ∧
        g.identity.ordinal = previous.generationOrdinal + 1 ∧ History g [] := by
  simp only [JournalState.step]
  cases hplan : beginCoordinatorGeneration journal.snapshot identity basis with
  | error refusal => exact .inl rfl
  | ok plan =>
    obtain ⟨previous, g, hclean, hordinal, rfl, members, queue, entered, retired, hcommitted⟩ :=
      beginCoordinatorGeneration_ok hplan
    exact .inr ⟨previous, g, hclean, hcommitted.generation, hcommitted.valid, rfl, hordinal,
      .of_empty members queue entered retired⟩

theorem JournalState.Sound.step {journal : JournalState} (sound : journal.Sound) (call : Call) :
    (journal.step call).Sound := by
  cases call with
  | begin_ identity basis =>
    rcases journal.step_begin identity basis with hsame | hbegun
    · rw [hsame]; exact sound
    · obtain ⟨previous, g, -, hg, hvalid, hacts, -, hhistory⟩ := hbegun
      refine ⟨hvalid, fun g' hg' => ?_⟩
      rw [hg] at hg'
      cases hg'
      rw [hacts]
      exact hhistory
  | transition event =>
    rcases journal.step_transition event with hsame | haccepted
    · rw [hsame]; exact sound
    · obtain ⟨g, hg, houtcome⟩ := haccepted
      generalize journal.step (.transition event) = next at houtcome
      cases houtcome with
      | unchanged => exact sound
      | changed generation valid acts change =>
        refine ⟨valid, fun g' hg' => ?_⟩
        rw [generation] at hg'
        cases hg'
        rw [acts]
        exact (sound.history g hg).change (sound.valid.sound hg) (valid.sound generation) change
      | closed closing admission members queue entered generation valid ordinal acts =>
        refine ⟨valid, fun g' hg' => ?_⟩
        rw [generation] at hg'
        cases hg'

/-! ## Two moments of a run -/

/-- A later moment of a run: it is in the same generation or in a later one, and
within one generation acts are appended and what was acquired is kept. -/
structure JournalState.Later (earlier later : JournalState) : Prop where
  ordinal : earlier.snapshot.generation.ordinal ≤ later.snapshot.generation.ordinal
  reopened : ∀ clean g, earlier.snapshot.generation = .clean clean →
    later.snapshot.generation = .dirty g → clean.generationOrdinal < g.identity.ordinal
  kept : ∀ g g', earlier.snapshot.generation = .dirty g → later.snapshot.generation = .dirty g' →
    g'.identity.ordinal = g.identity.ordinal →
    ∃ new, later.acts = earlier.acts ++ new ∧ Kept g g' new

theorem JournalState.Later.refl (journal : JournalState) : JournalState.Later journal journal := by
  refine ⟨Nat.le_refl _, fun clean g hclean hg => ?_, fun g g' hg hg' _ => ⟨[], by simp, ?_⟩⟩
  · rw [hclean] at hg
    cases hg
  · rw [hg] at hg'
    cases hg'
    exact .refl g

theorem JournalState.Later.trans {a b c : JournalState} (hab : JournalState.Later a b)
    (hbc : JournalState.Later b c) : JournalState.Later a c := by
  refine ⟨hab.ordinal.trans hbc.ordinal, fun clean g hclean hg => ?_, fun g g' hg hg' hsame => ?_⟩
  · have hfirst := hab.ordinal
    have hsecond := hbc.ordinal
    rw [hclean] at hfirst
    rw [hg] at hsecond
    cases hb : b.snapshot.generation with
    | clean middle =>
      have hlast := hbc.reopened middle g hb hg
      rw [hb] at hfirst
      exact Nat.lt_of_le_of_lt hfirst hlast
    | dirty middle =>
      have hopened := hab.reopened clean middle hclean hb
      rw [hb] at hsecond
      exact Nat.lt_of_lt_of_le hopened hsecond
  · have hfirst := hab.ordinal
    have hsecond := hbc.ordinal
    rw [hg] at hfirst
    rw [hg'] at hsecond
    cases hb : b.snapshot.generation with
    | clean middle =>
      have hlast := hbc.reopened middle g' hb hg'
      rw [hb] at hfirst
      simp only [Generation.ordinal] at hfirst
      omega
    | dirty middle =>
      rw [hb] at hfirst hsecond
      simp only [Generation.ordinal] at hfirst hsecond
      have hmiddle : middle.identity.ordinal = g.identity.ordinal := by omega
      obtain ⟨first, hacts, hkept⟩ := hab.kept g middle hg hb hmiddle
      obtain ⟨second, hacts', hkept'⟩ := hbc.kept middle g' hb hg' (hsame.trans hmiddle.symm)
      exact ⟨first ++ second, by rw [hacts', hacts, List.append_assoc], hkept.trans hkept'⟩

theorem JournalState.Sound.later {journal : JournalState} (sound : journal.Sound) (call : Call) :
    JournalState.Later journal (journal.step call) := by
  cases call with
  | begin_ identity basis =>
    rcases journal.step_begin identity basis with hsame | hbegun
    · rw [hsame]; exact .refl journal
    · obtain ⟨previous, g, hclean, hg, -, -, hordinal, -⟩ := hbegun
      refine ⟨?_, fun clean g' hclean' hg' => ?_, fun g' _ hg' => ?_⟩
      · rw [hclean, hg]
        simp only [Generation.ordinal]
        omega
      · rw [hclean] at hclean'
        rw [hg] at hg'
        cases hclean'
        cases hg'
        omega
      · rw [hclean] at hg'
        cases hg'
  | transition event =>
    rcases journal.step_transition event with hsame | haccepted
    · rw [hsame]; exact .refl journal
    · obtain ⟨g, hg, houtcome⟩ := haccepted
      generalize journal.step (.transition event) = next at houtcome
      cases houtcome with
      | unchanged => exact .refl journal
      | @changed _ g' new generation valid acts change =>
        have hhistory := sound.history g hg
        have hkept := change.kept hhistory.slot hhistory.identities (sound.valid.sound hg)
          (valid.sound generation)
        refine ⟨?_, fun clean g₁ hclean => ?_, fun g₁ g₂ hg₁ hg₂ _ => ⟨new, acts, ?_⟩⟩
        · rw [hg, generation]
          simp only [Generation.ordinal]
          rw [hkept.identity]
        · rw [hg] at hclean
          cases hclean
        · rw [hg] at hg₁
          rw [generation] at hg₂
          cases hg₁
          cases hg₂
          exact hkept
      | closed closing admission members queue entered generation valid ordinal acts =>
        refine ⟨?_, fun clean g₁ hclean => ?_, fun g₁ g₂ _ hg₂ => ?_⟩
        · rw [hg, generation]
          simp only [Generation.ordinal]
          rw [ordinal]
        · rw [hg] at hclean
          cases hclean
        · rw [generation] at hg₂
          cases hg₂

section Runs

variable {authorityId daemonId : JsString} {start : CoordinatorSnapshot}

theorem JournalState.run_sound (h : createInitialCoordinatorSnapshot authorityId daemonId = .ok start)
    (calls : List Call) : (JournalState.after start calls).Sound :=
  Machine.run_invariant JournalState.step (fun _ call sound => sound.step call)
    (JournalState.initial_sound h) calls

theorem JournalState.run_later (h : createInitialCoordinatorSnapshot authorityId daemonId = .ok start)
    (earlier later : List Call) :
    JournalState.Later (JournalState.after start earlier)
      (JournalState.after start (earlier ++ later)) := by
  unfold JournalState.after
  rw [Machine.run_append]
  exact Machine.run_related JournalState.Later.refl (fun _ _ _ => JournalState.Later.trans)
    (fun _ call sound => sound.step call) (fun _ call sound => sound.later call)
    (JournalState.run_sound h earlier) later

end Runs

end AgentSdk.Journal
