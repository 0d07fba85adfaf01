import AgentSdk.Coordinator.Slot

/-!
# What a physical sequence promises

Every operation of the class keeps the invariant of `Slot`, so the history of
every run is lawful and the retained cuts never block the queue.

## Main results

* `Stable.step` — every event keeps the sequence stable.
* `physical_sequencing` — what holds after every run.
-/

namespace AgentSdk.Coordinator

namespace Sequence

variable {s : Sequence}

/-! ## Admission -/

theorem Sound.fresh_cell (h : s.Sound) (kind : WorkKind) (signal : Bool) :
    s.createWork kind signal ∉ submitted s.history := fun hmem =>
  Nat.lt_irrefl _ (h.numbered _ hmem)

theorem Sound.fresh_started (h : s.Sound) (kind : WorkKind) (signal : Bool) :
    s.createWork kind signal ∉ started s.history := fun hmem =>
  h.fresh_cell kind signal (h.lawful.started_submitted _ hmem)

theorem Sound.fresh_cancelled (h : s.Sound) (kind : WorkKind) (signal : Bool) :
    s.createWork kind signal ∉ cancelled s.history := fun hmem =>
  h.fresh_cell kind signal (h.lawful.cancelled_submitted _ hmem)

theorem Sound.numbered_next (h : s.Sound) (kind : WorkKind) (signal : Bool) :
    ∀ v ∈ submitted (.submitted (s.createWork kind signal) :: s.history), v.id < s.nextWork + 1 := by
  intro v hv
  rcases List.mem_cons.1 hv with rfl | hv
  · exact Nat.lt_succ_self _
  · exact (h.numbered v hv).trans (Nat.lt_succ_self _)

theorem Sound.enqueue (h : s.Sound) {kind : WorkKind} (signal : Bool)
    (hcaller : kind ≠ .observation)
    (hordinary : ¬(kind = .ordinary ∧
      12 ≤ (s.queued.filter fun work => work.kind == .ordinary).length))
    (hroom : ¬16 ≤ s.queued.length) : (s.enqueue kind signal).Sound := by
  have hstarted := h.fresh_started kind signal
  have hcancelled := h.fresh_cancelled kind signal
  refine ⟨⟨h.numbered, h.lawful⟩, h.cuts.cons (by simp [Done]) (by simp), ?_, ?_, h.slot, ?_,
    h.turn, h.completions, h.numbered_next kind signal, ?_, ?_, ?_⟩
  · intro v
    show v ∈ s.queued ++ [s.createWork kind signal] ↔ _
    rw [List.mem_append, List.mem_singleton, h.queue v]
    simp only [Sequence.enqueue, Waiting, submitted_submitted, started_submitted,
      cancelled_submitted, List.mem_cons]
    constructor
    · rintro (⟨hv, hsubmitted, hrest⟩ | rfl)
      · exact ⟨hv, .inr hsubmitted, hrest⟩
      · exact ⟨hcaller, .inl rfl, hstarted, hcancelled⟩
    · rintro ⟨hv, rfl | hsubmitted, hrest⟩
      · exact .inr rfl
      · exact .inl ⟨hv, hsubmitted, hrest⟩
  · show (s.queued ++ [s.createWork kind signal]).Pairwise _
    rw [List.pairwise_append]
    refine ⟨h.sorted, List.pairwise_singleton _ _, fun v hv w hw => ?_⟩
    rw [List.mem_singleton.1 hw]
    exact h.numbered v ((h.queue v).1 hv).2.1
  · intro v
    rw [show (s.enqueue kind signal).observation = s.observation from rfl, h.observing v]
    simp only [Sequence.enqueue, Owned, Done, submitted_submitted, finished_submitted,
      cancelled_submitted, List.mem_cons]
    constructor
    · rintro ⟨hkind, hsubmitted, hnot⟩
      exact ⟨hkind, .inr hsubmitted, hnot⟩
    · rintro ⟨hkind, rfl | hsubmitted, hnot⟩
      · exact absurd hkind hcaller
      · exact ⟨hkind, hsubmitted, hnot⟩
  · show ((s.queued ++ [s.createWork kind signal]).filter _).length ≤ 12
    rw [List.filter_append, List.length_append]
    have hold := h.ordinaryRoom
    by_cases hkind : kind = .ordinary
    · have hlt : ¬12 ≤ (s.queued.filter fun work => work.kind == .ordinary).length :=
        fun hfull => hordinary ⟨hkind, hfull⟩
      have hone := List.length_filter_le (fun work : SequenceWork => work.kind == .ordinary)
        [s.createWork kind signal]
      simp only [List.length_singleton] at hone
      omega
    · simpa [Sequence.createWork, hkind] using hold
  · show (s.queued ++ [s.createWork kind signal]).length ≤ 16
    rw [List.length_append, List.length_singleton]
    omega
  · intro v hv hfree hturn owned u hu
    rcases List.suffix_cons_iff.1 hu with heq | hu
    · exact absurd (List.cons.inj heq).1 (by simp)
    · exact h.spared v hv hfree hturn owned u hu

theorem Stable.refuse (h : s.Stable) (kind : WorkKind) (failure : SequenceFailure) :
    (s.refuse kind failure).Stable := by
  refine
    { h with
      lawful := ⟨trivial, h.lawful⟩
      cuts := h.cuts.cons (by simp [Done]) (by simp)
      spared := ?_ }
  intro v hv hfree hturn owned u hu
  rcases List.suffix_cons_iff.1 hu with heq | hu
  · exact absurd (List.cons.inj heq).1 (by simp)
  · exact h.spared v hv hfree hturn owned u hu

theorem Stable.run (h : s.Stable) {kind : WorkKind} (hcaller : kind ≠ .observation)
    (signal : Option Bool) : (s.run kind signal).Stable := by
  unfold Sequence.run
  split
  · exact h.refuse kind .cancelled
  · split
    · exact h.refuse kind (.capacityExhausted .ordinary)
    · rename_i hordinary
      split
      · exact h.refuse kind (.capacityExhausted .queue)
      · rename_i hroom
        exact dispatch_stable (h.toSound.enqueue signal.isSome hcaller hordinary hroom)

theorem Stable.observe (h : s.Stable) : s.observe.Stable := by
  unfold Sequence.observe
  split
  · exact h
  · rename_i hnone
    refine dispatch_stable ?_
    have hcell := h.fresh_cell .observation false
    refine ⟨⟨h.numbered, h.lawful⟩, h.cuts.cons (by simp [Done]) (by simp), ?_, h.sorted, h.slot, ?_,
      h.turn, h.completions, h.numbered_next .observation false, h.ordinaryRoom, h.room, ?_⟩
    · intro v
      rw [h.queue v]
      simp only [Waiting, submitted_submitted, started_submitted, cancelled_submitted,
        List.mem_cons]
      constructor
      · rintro ⟨hcaller, hsubmitted, hrest⟩
        exact ⟨hcaller, .inr hsubmitted, hrest⟩
      · rintro ⟨hcaller, rfl | hsubmitted, hrest⟩
        · exact absurd rfl hcaller
        · exact ⟨hcaller, hsubmitted, hrest⟩
    · intro v
      simp only [Option.some.injEq, Owned, Done, submitted_submitted, finished_submitted,
        cancelled_submitted, List.mem_cons]
      constructor
      · rintro rfl
        refine ⟨rfl, .inl rfl, ?_⟩
        rintro (hfinished | hcancelled)
        · exact h.fresh_started _ _ (h.lawful.finished_started _ hfinished)
        · exact h.fresh_cancelled _ _ hcancelled
      · rintro ⟨hkind, rfl | hsubmitted, hnot⟩
        · rfl
        · have hobserving := (h.observing v).2 ⟨hkind, hsubmitted, hnot⟩
          rw [hnone] at hobserving
          cases hobserving
    · -- the new cell is younger than every cut
      intro v hv _ _ owned u hu hmem
      cases hv
      rcases List.suffix_cons_iff.1 hu with heq | hu
      · exact absurd (List.cons.inj heq).1 (by simp)
      · exact hcell (submitted_suffix (settling_suffix hu) ((h.lawful.settling hu _).1 hmem).1)

/-! ## Settling -/

/-- `settle` waits for the works that are submitted and not done. -/
theorem Sound.mem_owned (h : s.Sound) (work : SequenceWork) :
    work ∈ s.owned ↔ Owned s.history work := by
  have hslot : s.entered = some work → Owned s.history work := by
    intro hentered
    obtain ⟨hstarted, hunfinished⟩ := (h.slot work).1 hentered
    refine ⟨h.lawful.started_submitted work hstarted, ?_⟩
    rintro (hfinished | hcancelled)
    · exact hunfinished hfinished
    · exact h.lawful.cancelled_not_started work hcancelled hstarted
  unfold Sequence.owned
  simp only [List.mem_append, Option.mem_toList]
  constructor
  · rintro ((hqueued | hentered) | hobservation)
    · exact waiting_owned h.lawful ((h.queue work).1 hqueued).2
    · exact hslot hentered
    · split at hobservation
      · rename_i observation hsome
        split at hobservation
        · cases hobservation
        · rw [List.mem_singleton.1 hobservation]
          exact ((h.observing observation).1 hsome).2
      · cases hobservation
  · intro howned
    by_cases hkind : work.kind = .observation
    · have hobserving := (h.observing work).2 ⟨hkind, howned⟩
      rw [hobserving]
      by_cases hentered : s.entered = some work
      · exact .inl (.inr hentered)
      · exact .inr (by simp [hentered])
    · by_cases hstarted : work ∈ started s.history
      · exact .inl (.inr ((h.slot work).2 ⟨hstarted, fun hf => howned.2 (.inl hf)⟩))
      · exact .inl (.inl ((h.queue work).2
          ⟨hkind, howned.1, hstarted, fun hc => howned.2 (.inr hc)⟩))

theorem Sound.nodup_owned (h : s.Sound) : s.owned.Nodup := by
  unfold Sequence.owned
  rw [List.nodup_append', List.nodup_append']
  refine ⟨⟨h.nodup_queued, by cases s.entered <;> simp, ?_⟩, ?_, ?_⟩
  · intro work hqueued hentered
    have hslot := (h.slot work).1 (by simpa using hentered)
    exact ((h.queue work).1 hqueued).2.2.1 hslot.1
  · split
    · split
      · exact .nil
      · exact List.nodup_singleton _
    · exact .nil
  · intro work hmem hobservation
    split at hobservation
    · rename_i observation hsome
      split at hobservation
      · cases hobservation
      · rename_i hentered
        rw [List.mem_singleton] at hobservation
        subst hobservation
        rcases List.mem_append.1 hmem with hqueued | hin
        · exact ((h.queue work).1 hqueued).1 ((h.observing work).1 hsome).1
        · exact hentered (by simpa using hin)
    · cases hobservation

theorem Stable.settle (h : s.Stable) : s.settle.Stable := by
  refine
    { h with
      lawful := ⟨h.mem_owned, h.lawful⟩
      cuts := h.cuts.settle h.lawful h.mem_owned h.nodup_owned
      spared := ?_ }
  intro v hv hfree hturn
  have hlate : s.settle.observationBeforeCaller = false :=
    h.fresh hfree (Option.isSome_iff_exists.2 ⟨v, hv⟩)
  rw [hlate] at hturn
  cases hturn

/-! ## Works that end -/

theorem Stable.cancel (h : s.Stable) (work : SequenceWork) : (s.cancel work).Stable := by
  unfold Sequence.cancel
  split
  · rename_i hin
    refine dispatch_stable ?_
    obtain ⟨hcaller, hwaiting⟩ := (h.queue work).1 hin.1
    have hobservation : s.observation ≠ some work := fun hsome =>
      hcaller ((h.observing work).1 hsome).1
    have hdone : ∀ v, Done (.cancelled work :: s.history) v ↔ Done s.history v ∨ v = work := by
      intro v
      simp only [Done, finished_cancelled, cancelled_cancelled, List.mem_cons]
      tauto
    unfold Sequence.retire
    rw [if_neg hobservation]
    refine ⟨⟨⟨hwaiting, hcaller⟩, h.lawful⟩, h.cuts.retire work hdone (by simp), ?_, ?_, h.slot, ?_,
      h.turn, ?_, h.numbered, ?_, ?_, ?_⟩
    · intro v
      rw [h.nodup_queued.mem_erase_iff, h.queue v]
      simp only [Waiting, submitted_cancelled, started_cancelled, cancelled_cancelled,
        List.mem_cons, not_or]
      tauto
    · exact h.sorted.sublist List.erase_sublist
    · intro v
      show s.observation = some v ↔ v.kind = .observation ∧ v ∈ submitted s.history ∧
        ¬Done (.cancelled work :: s.history) v
      rw [h.observing v, hdone v, Owned]
      constructor
      · rintro ⟨hkind, hsubmitted, hnot⟩
        refine ⟨hkind, hsubmitted, ?_⟩
        rintro (hdone | rfl)
        · exact hnot hdone
        · exact hcaller hkind
      · rintro ⟨hkind, hsubmitted, hnot⟩
        exact ⟨hkind, hsubmitted, fun hv => hnot (.inl hv)⟩
    · intro v
      rw [List.mem_cons, h.completions v, hdone v, or_comm]
    · exact (List.erase_sublist.filter _).length_le.trans h.ordinaryRoom
    · exact List.erase_sublist.length_le.trans h.room
    · intro v hv hfree hturn
      rw [h.fresh hfree (by rw [show s.observation = some v from hv]; rfl)] at hturn
      cases hturn
  · exact h

theorem Stable.finish (h : s.Stable) : s.finish.Stable := by
  unfold Sequence.finish
  split
  · exact h
  · rename_i work hentered
    obtain ⟨hstarted, hunfinished⟩ := (h.slot work).1 hentered
    have hdone : ∀ v, Done (.finished work :: s.history) v ↔ Done s.history v ∨ v = work := by
      intro v
      simp only [Done, finished_finished, cancelled_finished, List.mem_cons]
      tauto
    have howned : Owned s.history work :=
      (h.mem_owned work).1 (by simp [Sequence.owned, hentered])
    -- an observation that is left over was not the one performed
    have hleft : ∀ v, (if s.observation = some work then none else s.observation) = some v →
        s.observationBeforeCaller = false := by
      intro v hv
      by_contra hturn
      obtain ⟨last, hlast, hkind⟩ := h.turn.1 (by simpa using hturn)
      rw [h.last_of_entered hentered] at hlast
      cases hlast
      rw [if_pos ((h.observing work).2 ⟨hkind, howned⟩)] at hv
      cases hv
    refine ⟨⟨⟨⟨hstarted, hunfinished⟩, h.lawful⟩, h.cuts.retire work hdone (by simp), h.queue,
      h.sorted, ?_, ?_, h.turn, ?_, h.numbered, h.ordinaryRoom, h.room, ?_⟩, ?_, ?_⟩
    · intro v
      refine ⟨fun hv => (by cases hv), fun hv => ?_⟩
      have hin := (h.slot v).2 ⟨hv.1, fun hf => hv.2 (List.mem_cons_of_mem _ hf)⟩
      rw [hentered, Option.some.injEq] at hin
      exact absurd (hin ▸ List.mem_cons_self) hv.2
    · intro v
      show (if s.observation = some work then none else s.observation) = some v ↔
        v.kind = .observation ∧ v ∈ submitted s.history ∧ ¬Done (.finished work :: s.history) v
      rw [hdone v]
      constructor
      · intro hv
        split at hv
        · cases hv
        · rename_i hother
          obtain ⟨hkind, hsubmitted, hnot⟩ := (h.observing v).1 hv
          refine ⟨hkind, hsubmitted, ?_⟩
          rintro (hv' | rfl)
          · exact hnot hv'
          · exact hother hv
      · rintro ⟨hkind, hsubmitted, hnot⟩
        have hobserving := (h.observing v).2 ⟨hkind, hsubmitted, fun hv => hnot (.inl hv)⟩
        rw [hobserving, if_neg]
        intro heq
        cases heq
        exact hnot (.inr rfl)
    · intro v
      show v ∈ work :: s.completed ↔ Done (.finished work :: s.history) v
      rw [List.mem_cons, h.completions v, hdone v, or_comm]
    · intro v hv _ hturn
      rw [show s.observationBeforeCaller = true from hturn] at hleft
      exact absurd (hleft v hv) (by simp)
    · exact fun _ => .inr (Nat.succ_pos _)
    · intro _ hsome
      obtain ⟨v, hv⟩ := Option.isSome_iff_exists.1 hsome
      exact hleft v hv

theorem Sound.drop_microtask (h : s.Sound) (n : Nat) : Sound { s with microtasks := n } :=
  { h with }

theorem Stable.tick (h : s.Stable) : s.tick.Stable := by
  unfold Sequence.tick
  split
  · exact h
  · exact dispatch_stable (h.toSound.drop_microtask _)

/-! ## Runs -/

theorem Stable.step (h : s.Stable) (event : Event) : (s.step event).Stable := by
  cases event with
  | run cleanup signal => exact h.run (by cases cleanup <;> simp) signal
  | observe => exact h.observe
  | settle => exact h.settle
  | abort work => exact h.cancel work
  | finish => exact h.finish
  | tick => exact h.tick

theorem Stable.empty : Sequence.empty.Stable := by
  refine ⟨⟨trivial, ⟨.nil, by simp [Sequence.empty], by simp [Sequence.empty],
    by simp [Sequence.empty], ?_⟩, ?_, .nil, ?_, ?_, ?_, ?_, ?_, by simp [Sequence.empty],
    by simp [Sequence.empty], ?_⟩, fun _ => .inl ⟨rfl, rfl⟩, fun _ hsome => by cases hsome⟩
  · intro owned u hu
    exact absurd (List.suffix_nil.1 hu) (by simp)
  · simp [Sequence.empty, Waiting]
  · simp [Sequence.empty]
  · simp [Sequence.empty, Owned]
  · simp [Sequence.empty, lastStarted]
  · simp [Sequence.empty, Done]
  · simp [Sequence.empty]
  · intro v hv
    cases hv

theorem Stable.after (events : List Event) : (Sequence.after events).Stable :=
  Machine.run_invariant Sequence.step (fun _ event h => h.step event) .empty events

end Sequence

/-! ## The promise -/

/-- What a sequence promises after every run. -/
structure PhysicalSequencing (s : Sequence) : Prop where
  /-- At most one work is being performed. -/
  single : ∀ v ∈ started s.history, ∀ work ∈ started s.history, v ∉ finished s.history →
    work ∉ finished s.history → v = work
  /-- Accepted works are performed at most once. -/
  once : (started s.history).Nodup ∧ ∀ work ∈ started s.history, work ∈ submitted s.history
  /-- The abort of a queued work cancels it, and it is never performed. -/
  aborted : (∀ work ∈ s.queued, work.signal = true →
      work ∈ cancelled (s.step (.abort work)).history) ∧
    ∀ work ∈ cancelled s.history, work ∉ started s.history
  capacity : (s.queued.filter fun work => work.kind == .ordinary).length ≤ 12 ∧
    s.queued.length ≤ 16
  /-- Ordinary works alone never keep cleanup out. -/
  cleanup_admitted : ∀ signal failure,
    (s.run .cleanup signal).history = .refused .cleanup failure :: s.history →
      signal = some true ∨ 4 ≤ (s.queued.filter fun work => work.kind == .cleanup).length
  /-- Whenever a caller's work starts it was its turn: in order within its kind,
  after eligible cleanup, behind every cut it came after. -/
  turns : ∀ work t, .started work :: t <:+ s.history → work.IsCaller → CallerTurn t work
  /-- `settle` waits for the works owned at its call, and for no others. -/
  settles : ∀ owned t, .settling owned :: t <:+ s.history →
    (∀ work, work ∈ owned ↔ Owned t work) ∧
      (s.settled owned = true ↔ ∀ work ∈ owned, Done s.history work)
  /-- The retained cuts grow strictly, none is empty, all are owned. -/
  retained : s.frontiers.Pairwise StrictlyWithin ∧
    ∀ f ∈ s.frontiers, f ≠ [] ∧ ∀ work ∈ f, work.IsCaller ∧ Owned s.history work
  /-- A free slot with a queued work: a dispatch is pending and fills it. -/
  dispatches : s.entered = none → s.queued ≠ [] →
    0 < s.microtasks ∧ ∃ work, (s.step .tick).entered = some work
  /-- The observation never starts twice in a row past an eligible caller. -/
  alternates : ∀ work t, .started work :: t <:+ s.history → work.kind = .observation →
    (∃ v, lastStarted t = some v ∧ v.kind = .observation) →
      ∀ v, Waiting t v → v.IsCaller → ¬Eligible t v

namespace Sequence

variable {s : Sequence}

/-- Dispatching submits and cancels nothing. -/
theorem dispatch_history (s : Sequence) : s.dispatch.history = s.history ∨
    ∃ work, s.dispatch.history = .started work :: s.history := by
  unfold dispatch
  split
  · exact .inl rfl
  · split
    · exact .inr ⟨_, rfl⟩
    · split
      · exact .inr ⟨_, rfl⟩
      · exact .inr ⟨_, rfl⟩
    · exact .inr ⟨_, rfl⟩
    · exact .inl rfl

theorem submitted_dispatch (s : Sequence) : submitted s.dispatch.history = submitted s.history := by
  rcases s.dispatch_history with hsame | ⟨work, hstarted⟩
  · rw [hsame]
  · rw [hstarted, submitted_started]

theorem cancelled_dispatch (s : Sequence) : cancelled s.dispatch.history = cancelled s.history := by
  rcases s.dispatch_history with hsame | ⟨work, hstarted⟩
  · rw [hsame]
  · rw [hstarted, cancelled_started]

theorem Sound.settled_iff (h : s.Sound) (owned : List SequenceWork) :
    s.settled owned = true ↔ ∀ work ∈ owned, Done s.history work := by
  unfold settled
  simp only [List.all_eq_true, List.contains_iff_mem, h.completions]

theorem Sound.queue_kinds (h : s.Sound) :
    (s.queued.filter fun work => work.kind == .ordinary).length +
      (s.queued.filter fun work => work.kind == .cleanup).length = s.queued.length := by
  have hkinds : ∀ work ∈ s.queued, (work.kind == .cleanup) = !(work.kind == .ordinary) := by
    intro work hwork
    have hcaller := ((h.queue work).1 hwork).1
    unfold SequenceWork.IsCaller at hcaller
    revert hcaller
    cases work.kind <;> decide
  rw [List.filter_congr hkinds, ← List.countP_eq_length_filter, ← List.countP_eq_length_filter]
  have hsplit := List.length_eq_countP_add_countP (fun work : SequenceWork => work.kind == .ordinary)
    (l := s.queued)
  simp only [Bool.not_eq_true] at hsplit
  rw [hsplit]
  congr 1
  exact List.countP_congr fun work _ => by cases work.kind == .ordinary <;> simp

end Sequence

theorem physical_sequencing (events : List Sequence.Event) :
    PhysicalSequencing (Sequence.after events) := by
  have h := Sequence.Stable.after events
  generalize Sequence.after events = s at h
  have hlawful := h.lawful
  refine ⟨?_, ⟨hlawful.started_nodup, hlawful.started_submitted⟩,
    ⟨?_, hlawful.cancelled_not_started⟩, ⟨h.ordinaryRoom, h.room⟩, ?_, ?_, ?_, ?_, ?_, ?_⟩
  · intro v hv work hwork hvrunning hrunning
    have hfirst := hlawful.unfinished_last v hv hvrunning
    rw [hlawful.unfinished_last work hwork hrunning] at hfirst
    exact (Option.some.inj hfirst).symm
  · intro work hwork hsignal
    show work ∈ cancelled (s.cancel work).history
    rw [Sequence.cancel, if_pos ⟨hwork, hsignal⟩, Sequence.cancelled_dispatch]
    exact List.mem_cons_self
  · intro signal failure hrefused
    unfold Sequence.run at hrefused
    split at hrefused
    · rename_i haborted
      exact .inl haborted
    · split at hrefused
      · rename_i hordinary
        exact absurd hordinary.1 (by simp)
      · split at hrefused
        · have hkinds := h.queue_kinds
          have hordinary := h.ordinaryRoom
          exact .inr (by omega)
        · have hcancelled := congrArg submitted hrefused
          have hdispatched : submitted (s.enqueue .cleanup signal.isSome).dispatch.history =
              s.createWork .cleanup signal.isSome :: submitted s.history := by
            rw [Sequence.submitted_dispatch]
            rfl
          rw [hdispatched, submitted_refused] at hcancelled
          exact absurd hcancelled (List.cons_ne_self _ _)
  · intro work t hsuffix hcaller
    exact (hlawful.admissible hsuffix).2.2.1 hcaller
  · intro owned t hsuffix
    exact ⟨hlawful.settling hsuffix, h.settled_iff owned⟩
  · refine ⟨h.cuts.strict, fun f hf => ⟨h.cuts.nonempty f hf, fun work hwork => ?_⟩⟩
    obtain ⟨owned, u, hu, hleft⟩ := h.cuts.origin f hf
    obtain ⟨hmem, hcaller, hnot⟩ := (hleft work).1 hwork
    exact ⟨hcaller, submitted_suffix (settling_suffix hu) ((hlawful.settling hu work).1 hmem).1,
      hnot⟩
  · intro hfree hqueued
    have hpending : 0 < s.microtasks := by
      rcases h.driven hfree with ⟨hempty, _⟩ | hpending
      · exact absurd hempty hqueued
      · exact hpending
    refine ⟨hpending, ?_⟩
    show ∃ work, s.tick.entered = some work
    rw [Sequence.tick, if_neg (by omega)]
    exact Sequence.dispatch_enters (h.toSound.drop_microtask _) hqueued
  · intro work t hsuffix hkind
    exact (hlawful.admissible hsuffix).2.2.2 hkind

/-- A cleanup overtakes an ordinary work only within its cut. -/
example :
    let works := (Sequence.after [.run false none, .run false none, .settle, .run true none,
      .finish, .tick, .finish, .tick]).history
    (started works).map SequenceWork.id = [2, 1, 0] := by decide

end AgentSdk.Coordinator
