import AgentSdk.Coordinator.Cuts

/-!
# The slot, the queue and the turn

The invariant of a sequence between two of its private steps, and what
dispatching does to it.

## Main results

* `dispatch_stable` — dispatching leaves a sequence stable: the work it enters
  is the one the law asks for.
* `dispatch_enters` — a free slot is filled as soon as some work is queued.
-/

namespace AgentSdk.Coordinator

namespace Sequence

/-! ## The invariant -/

/-- The fields of a sequence, read off its history. -/
structure Sound (s : Sequence) : Prop where
  lawful : Lawful s.history
  cuts : Cuts s.history s.frontiers
  queue : ∀ work, work ∈ s.queued ↔ work.IsCaller ∧ Waiting s.history work
  sorted : s.queued.Pairwise fun v work => v.id < work.id
  slot : ∀ work, s.entered = some work ↔ work ∈ started s.history ∧ work ∉ finished s.history
  observing : ∀ work, s.observation = some work ↔
    work.kind = .observation ∧ Owned s.history work
  turn : s.observationBeforeCaller = true ↔
    ∃ v, lastStarted s.history = some v ∧ v.kind = .observation
  completions : ∀ work, work ∈ s.completed ↔ Done s.history work
  numbered : ∀ work ∈ submitted s.history, work.id < s.nextWork
  ordinaryRoom : (s.queued.filter fun work => work.kind == .ordinary).length ≤ 12
  room : s.queued.length ≤ 16
  /-- An observation that would have to let a caller pass is in no cut. -/
  spared : ∀ work, s.observation = some work → s.entered = none →
    s.observationBeforeCaller = true → ∀ owned u, .settling owned :: u <:+ s.history → work ∉ owned

/-- A sequence between two events: whoever waits for a free slot is served by a
pending microtask, and an observation that waits goes next. -/
structure Stable (s : Sequence) : Prop extends s.Sound where
  driven : s.entered = none → (s.queued = [] ∧ s.observation = none) ∨ 0 < s.microtasks
  fresh : s.entered = none → s.observation.isSome → s.observationBeforeCaller = false

variable {s : Sequence}

variable {work : SequenceWork}

theorem Sound.waiting_owned {t : List Entry} (hlawful : Lawful t) (h : Waiting t work) :
    Owned t work :=
  ⟨h.1, fun hdone => hdone.elim (fun hfinished => h.2.1 (hlawful.finished_started work hfinished))
    h.2.2⟩

/-- A free slot: every owned work of a caller still waits in the queue. -/
theorem Sound.queued_of_owned (h : s.Sound) (hfree : s.entered = none)
    (howned : Owned s.history work) (hcaller : work.IsCaller) : work ∈ s.queued := by
  refine (h.queue work).2 ⟨hcaller, howned.1, fun hstarted => ?_, fun hcancelled => ?_⟩
  · have hin := (h.slot work).2 ⟨hstarted, fun hfinished => howned.2 (.inl hfinished)⟩
    rw [hfree] at hin
    cases hin
  · exact howned.2 (.inr hcancelled)

/-- A free slot: everything performed has ended. -/
theorem Sound.ended (h : s.Sound) (hfree : s.entered = none) :
    ∀ work ∈ started s.history, work ∈ finished s.history := by
  intro work hwork
  by_contra hnot
  have hin := (h.slot work).2 ⟨hwork, hnot⟩
  rw [hfree] at hin
  cases hin

theorem Sound.nodup_queued (h : s.Sound) : s.queued.Nodup :=
  h.sorted.imp fun hlt heq => by
    rw [heq] at hlt
    exact Nat.lt_irrefl _ hlt

/-! ## Who is next -/

theorem eligible_iff (s : Sequence) (work : SequenceWork) :
    s.eligible work = true ↔ ∀ f ∈ s.frontiers.head?, work ∈ f := by
  unfold eligible
  cases s.frontiers.head? with
  | none | some => simp

/-- What the first cut holds, every cut holds. -/
theorem Sound.head_within (h : s.Sound) (heligible : s.eligible work = true)
    {f : List SequenceWork} (hf : f ∈ s.frontiers) : work ∈ f := by
  rw [eligible_iff] at heligible
  have hpair := h.cuts.strict
  cases hfrontiers : s.frontiers with
  | nil =>
    rw [hfrontiers] at hf
    cases hf
  | cons g frontiers =>
    rw [hfrontiers] at hf hpair heligible
    have hhead : work ∈ g := heligible g rfl
    rcases List.mem_cons.1 hf with rfl | hf
    · exact hhead
    · exact ((List.pairwise_cons.1 hpair).1 f hf).1 work hhead

/-- A waiting work that no pending call of `settle` keeps back may enter. -/
theorem Sound.eligible_of (h : s.Sound) (hwork : work ∈ s.queued)
    (heligible : Eligible s.history work) : s.eligible work = true := by
  rw [eligible_iff]
  intro f hhead
  have hf : f ∈ s.frontiers := List.mem_of_head? hhead
  obtain ⟨owned, u, hu, hleft⟩ := h.cuts.origin f hf
  obtain ⟨v, hv⟩ := List.exists_mem_of_ne_nil f (h.cuts.nonempty f hf)
  obtain ⟨hmem, hcaller, hnot⟩ := (hleft v).1 hv
  have hwaiting := (h.queue work).1 hwork
  exact (hleft work).2 ⟨heligible owned u hu ⟨v, hmem, hcaller, hnot⟩, hwaiting.1,
    (waiting_owned h.lawful hwaiting.2).2⟩

/-- What was submitted before an eligible work is eligible. -/
theorem Sound.eligible_earlier (h : s.Sound) {v : SequenceWork} (hv : v ∈ s.queued)
    (heligible : s.eligible work = true) (hlt : v.id < work.id) : s.eligible v = true := by
  rw [eligible_iff] at heligible ⊢
  intro f hhead
  obtain ⟨owned, u, hu, hleft⟩ := h.cuts.origin f (List.mem_of_head? hhead)
  have hwork := ((hleft work).1 (heligible f hhead)).1
  have hsubmitted := ((h.lawful.settling hu work).1 hwork).1
  obtain ⟨hcaller, hwaiting⟩ := (h.queue v).1 hv
  have howned := waiting_owned h.lawful hwaiting
  refine (hleft v).2 ⟨(h.lawful.settling hu v).2 ⟨?_, fun hdone => ?_⟩, hcaller, howned.2⟩
  · exact h.lawful.earlier (settling_suffix hu) hsubmitted hwaiting.1 hlt
  · exact howned.2 (hdone.suffix (settling_suffix hu))

private theorem find_first {p : SequenceWork → Bool} {queued : List SequenceWork}
    (hsorted : queued.Pairwise fun v w => v.id < w.id) (h : queued.find? p = some work) :
    work ∈ queued ∧ p work = true ∧ ∀ v ∈ queued, v.id < work.id → p v = false := by
  obtain ⟨hp, before, behind, rfl, hbefore⟩ := List.find?_eq_some_iff_append.1 h
  refine ⟨by simp, hp, fun v hv hlt => ?_⟩
  rw [List.pairwise_append, List.pairwise_cons] at hsorted
  rcases List.mem_append.1 hv with hv | hv
  · simpa using hbefore v hv
  · rcases List.mem_cons.1 hv with rfl | hv
    · exact absurd hlt (Nat.lt_irrefl _)
    · exact absurd (hsorted.2.1.1 v hv) (by omega)

/-- The work that is next among those of callers. -/
theorem Sound.caller_spec (h : s.Sound) (hnext : s.caller = some work) :
    work ∈ s.queued ∧ s.eligible work = true ∧
      (∀ v ∈ s.queued, v.kind = work.kind → v.id < work.id → s.eligible v = false) ∧
      (work.kind ≠ .cleanup → ∀ v ∈ s.queued, v.kind = .cleanup → s.eligible v = false) := by
  unfold caller at hnext
  cases hcleanup : s.queued.find? fun work => work.kind == .cleanup && s.eligible work with
  | some v =>
    rw [hcleanup] at hnext
    cases hnext
    obtain ⟨hmem, hp, hfirst⟩ := find_first h.sorted hcleanup
    simp only [Bool.and_eq_true, beq_iff_eq] at hp
    refine ⟨hmem, hp.2, fun v hv hkind hlt => ?_, fun hkind => absurd hp.1 hkind⟩
    have := hfirst v hv hlt
    simpa [hkind, hp.1] using this
  | none =>
    rw [hcleanup] at hnext
    obtain ⟨hmem, hp, hfirst⟩ := find_first h.sorted (by simpa using hnext)
    refine ⟨hmem, hp, fun v hv _ hlt => hfirst v hv hlt, fun _ v hv hkind => ?_⟩
    have := List.find?_eq_none.1 hcleanup v hv
    simpa [hkind] using this

/-- Some work of a caller is next whenever one is queued: the first cut is made
of queued works. -/
theorem Sound.caller_isSome (h : s.Sound) (hfree : s.entered = none) (hqueued : s.queued ≠ []) :
    ∃ work, s.caller = some work := by
  have hsome : ∃ work ∈ s.queued, s.eligible work = true := by
    cases hfrontiers : s.frontiers with
    | nil =>
      obtain ⟨work, hwork⟩ := List.exists_mem_of_ne_nil _ hqueued
      exact ⟨work, hwork, (eligible_iff s work).2 (by simp [hfrontiers])⟩
    | cons f frontiers =>
      have hf : f ∈ s.frontiers := by simp [hfrontiers]
      obtain ⟨work, hwork⟩ := List.exists_mem_of_ne_nil f (h.cuts.nonempty f hf)
      obtain ⟨owned, u, hu, hleft⟩ := h.cuts.origin f hf
      obtain ⟨hmem, hcaller, hnot⟩ := (hleft work).1 hwork
      have hsubmitted := ((h.lawful.settling hu work).1 hmem).1
      refine ⟨work, h.queued_of_owned hfree
        ⟨submitted_suffix (settling_suffix hu) hsubmitted, hnot⟩ hcaller, ?_⟩
      rw [eligible_iff, hfrontiers]
      simpa using hwork
  obtain ⟨work, hwork, heligible⟩ := hsome
  unfold caller
  cases hcleanup : s.queued.find? fun work => work.kind == .cleanup && s.eligible work with
  | some v => exact ⟨v, rfl⟩
  | none =>
    cases hfind : s.queued.find? s.eligible with
    | some v => exact ⟨v, rfl⟩
    | none => exact absurd heligible (List.find?_eq_none.1 hfind work hwork)

/-! ## Dispatching -/

theorem Sound.enterCaller (h : s.Sound) (hfree : s.entered = none) (hnext : s.caller = some work)
    (hturn : s.observation = none ∨ s.observationBeforeCaller = true) :
    (s.enterCaller work).Sound := by
  obtain ⟨hmem, heligible, hfirst, hcleanup⟩ := h.caller_spec hnext
  obtain ⟨hcaller, hwaiting⟩ := (h.queue work).1 hmem
  have hbehind : ∀ owned u, .settling owned :: u <:+ s.history → work ∉ submitted u →
      ∀ v ∈ owned, Done s.history v := by
    intro owned u hu hlate v hv
    by_contra hnot
    have howned : Owned s.history v :=
      ⟨submitted_suffix (settling_suffix hu) ((h.lawful.settling hu v).1 hv).1, hnot⟩
    by_cases hkind : v.IsCaller
    · -- a caller's work is left of the cut, so every retained cut holds `work`
      rcases h.cuts.kept owned u hu with hall | ⟨f, hf, hleft⟩
      · exact hnot (hall v hv hkind)
      · have hin := ((hleft work).1 (h.head_within heligible hf)).1
        exact hlate ((h.lawful.settling hu work).1 hin).1
    · have hobserving := (h.observing v).2 ⟨not_not.1 hkind, howned⟩
      rcases hturn with hnone | hturn
      · rw [hnone] at hobserving
        cases hobserving
      · exact h.spared v hobserving hfree hturn owned u hu hv
  have hadmissible : Admissible s.history (.started work) := by
    refine ⟨hwaiting, h.ended hfree, fun _ => ⟨?_, ?_, hbehind⟩, fun hkind => absurd hkind hcaller⟩
    · intro v _ hkind hlt hwait
      have hqueued := (h.queue v).2 ⟨fun hobs => hcaller (hkind ▸ hobs), hwait⟩
      have heligible' := h.eligible_earlier hqueued heligible hlt
      rw [hfirst v hqueued hkind hlt] at heligible'
      cases heligible'
    · intro hkind v hwait hvkind hin
      have hqueued := (h.queue v).2 ⟨by simp [SequenceWork.IsCaller, hvkind], hwait⟩
      have heligible' := h.eligible_of hqueued hin
      rw [hcleanup (by simp [hkind]) v hqueued hvkind] at heligible'
      cases heligible'
  refine ⟨⟨hadmissible, h.lawful⟩, ?_, ?_, ?_, ?_, ?_, ?_, ?_, ?_, ?_, ?_, ?_⟩
  · exact h.cuts.cons (by simp [Done]) (by simp)
  · intro v
    show v ∈ s.queued.erase work ↔ _
    rw [h.nodup_queued.mem_erase_iff, h.queue v]
    simp only [Sequence.enterCaller, Waiting, submitted_started, started_started,
      cancelled_started, List.mem_cons, not_or]
    tauto
  · exact h.sorted.sublist List.erase_sublist
  · intro v
    simp only [Sequence.enterCaller, started_started, finished_started, Option.some.injEq,
      List.mem_cons]
    constructor
    · rintro rfl
      exact ⟨.inl rfl, fun hfinished => hwaiting.2.1 (h.lawful.finished_started work hfinished)⟩
    · rintro ⟨rfl | hstarted, hnot⟩
      · rfl
      · exact absurd (h.ended hfree v hstarted) hnot
  · exact h.observing
  · have : work.kind ≠ .observation := hcaller
    simp [Sequence.enterCaller, lastStarted, this]
  · exact h.completions
  · exact h.numbered
  · exact (List.erase_sublist.filter _).length_le.trans h.ordinaryRoom
  · exact List.erase_sublist.length_le.trans h.room
  · intro v _ hnone
    cases hnone

theorem Sound.enterObservation (h : s.Sound) (hfree : s.entered = none)
    (hobservation : s.observation = some work)
    (hturn : s.caller = none ∨ s.observationBeforeCaller = false) :
    (s.enterObservation work).Sound := by
  obtain ⟨hkind, howned⟩ := (h.observing work).1 hobservation
  have hnot : work ∉ started s.history := fun hstarted =>
    howned.2 (.inl (h.ended hfree work hstarted))
  have hwaiting : Waiting s.history work :=
    ⟨howned.1, hnot, fun hcancelled => howned.2 (.inr hcancelled)⟩
  have hadmissible : Admissible s.history (.started work) := by
    refine ⟨hwaiting, h.ended hfree, fun hcaller => absurd hkind hcaller, ?_⟩
    intro _ hlast v hwait hcaller _
    have hqueued := (h.queue v).2 ⟨hcaller, hwait⟩
    rcases hturn with hnone | hturn
    · obtain ⟨w, hw⟩ := h.caller_isSome hfree (List.ne_nil_of_mem hqueued)
      rw [hnone] at hw
      cases hw
    · rw [h.turn.2 hlast] at hturn
      cases hturn
  refine ⟨⟨hadmissible, h.lawful⟩, ?_, ?_, h.sorted, ?_, h.observing, ?_, h.completions,
    h.numbered, h.ordinaryRoom, h.room, ?_⟩
  · exact h.cuts.cons (by simp [Done]) (by simp)
  · intro v
    show v ∈ s.queued ↔ _
    rw [h.queue v]
    simp only [Sequence.enterObservation, Waiting, submitted_started, started_started,
      cancelled_started, List.mem_cons, not_or]
    constructor
    · rintro ⟨hcaller, hsubmitted, hv⟩
      exact ⟨hcaller, hsubmitted, ⟨fun heq => hcaller (heq ▸ hkind), hv.1⟩, hv.2⟩
    · rintro ⟨hcaller, hsubmitted, hv⟩
      exact ⟨hcaller, hsubmitted, hv.1.2, hv.2⟩
  · intro v
    simp only [Sequence.enterObservation, started_started, finished_started, Option.some.injEq,
      List.mem_cons]
    constructor
    · rintro rfl
      exact ⟨.inl rfl, fun hfinished => howned.2 (.inl hfinished)⟩
    · rintro ⟨rfl | hstarted, hunfinished⟩
      · rfl
      · exact absurd (h.ended hfree v hstarted) hunfinished
  · simp [Sequence.enterObservation, lastStarted, hkind]
  · intro v _ hnone
    cases hnone

/-- An occupied slot: its work is the newest performed. -/
theorem Sound.last_of_entered (h : s.Sound) (hentered : s.entered = some work) :
    lastStarted s.history = some work :=
  have hslot := (h.slot work).1 hentered
  h.lawful.unfinished_last work hslot.1 hslot.2

/-- Dispatching makes a sound sequence stable, whatever came before. -/
theorem dispatch_stable (h : s.Sound) : s.dispatch.Stable := by
  have hentered : ∀ {r : Sequence} {work : SequenceWork}, r.Sound → r.entered = some work →
      r.Stable := by
    intro r work hr hwork
    refine ⟨hr, fun hnone => ?_, fun hnone => ?_⟩
    · rw [hwork] at hnone
      cases hnone
    · rw [hwork] at hnone
      cases hnone
  unfold dispatch
  split
  · rename_i hsome
    obtain ⟨work, hwork⟩ := Option.isSome_iff_exists.1 hsome
    exact hentered h hwork
  · rename_i hnone
    have hfree : s.entered = none := by simpa using hnone
    split
    · rename_i observation hobservation hcaller
      exact hentered (h.enterObservation hfree hobservation (.inl hcaller)) rfl
    · rename_i observation work hobservation hcaller
      split
      · rename_i hturn
        exact hentered (h.enterCaller hfree hcaller (.inr hturn)) rfl
      · rename_i hturn
        exact hentered (h.enterObservation hfree hobservation (.inr (by simpa using hturn))) rfl
    · rename_i work hobservation hcaller
      exact hentered (h.enterCaller hfree hcaller (.inl hobservation)) rfl
    · rename_i hobservation hcaller
      refine ⟨h, fun _ => .inl ⟨?_, hobservation⟩, fun _ hsome => ?_⟩
      · by_contra hqueued
        obtain ⟨work, hwork⟩ := h.caller_isSome hfree hqueued
        rw [hcaller] at hwork
        cases hwork
      · rw [hobservation] at hsome
        cases hsome

/-- A free slot is filled as soon as some work is queued. -/
theorem dispatch_enters (h : s.Sound) (hqueued : s.queued ≠ []) :
    ∃ work, s.dispatch.entered = some work := by
  unfold dispatch
  split
  · rename_i hsome
    exact Option.isSome_iff_exists.1 hsome
  · rename_i hnone
    obtain ⟨next, hnext⟩ := h.caller_isSome (by simpa using hnone) hqueued
    rw [hnext]
    cases s.observation with
    | none => exact ⟨next, rfl⟩
    | some observation =>
      simp only
      split
      · exact ⟨next, rfl⟩
      · exact ⟨observation, rfl⟩

end Sequence

end AgentSdk.Coordinator
