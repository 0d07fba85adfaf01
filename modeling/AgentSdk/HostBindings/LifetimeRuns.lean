import AgentSdk.HostBindings.Lifetime

/-!
# Every run of a lease

## Main definitions

* `Sound` — what the invocations and the releases of a lease look like.

## Main results

* `sound_run` — every lease is sound.
* `host_binding_lifetime` — what the host sees of its bindings.
-/

namespace AgentSdk.HostBindings

namespace Lifetime

/-! ## The invariant -/

/-- The invocations of a lease: at most sixteen, under identities of their own. -/
structure Invoking (s : Lifetime) : Prop where
  entries : s.invocations = s.active.map fun i => (i.invocationId, i.promise)
  ids : (s.active.map Invocation.invocationId).Nodup
  promises : (s.active.map Invocation.promise).Nodup
  fresh : ∀ i ∈ s.active, i.promise < s.nextPromise
  few : s.active.length ≤ 16

/-- What a stage of a release says: behind the snapshot there are no invocations but those of the
snapshot, and behind the call there are none. -/
inductive StageSound (s : Lifetime) : ReleaseStage → Prop
  | queued (h : s.released = false) : StageSound s .queued
  | waiting (snapshot : List Nat) (h : s.released = false)
      (hsnapshot : ∀ i ∈ s.active, i.promise ∈ snapshot) : StageSound s (.waiting snapshot)
  | calling (h : s.released = false) (hnone : s.active = []) : StageSound s .calling
  | succeeded (h : s.released = true) : StageSound s .succeeded
  | failed (h : s.released = false) (hnone : s.active = []) : StageSound s .failed

/-- The releases of a lease: at most one, and the lease is stopped by then. -/
structure Releasing (s : Lifetime) : Prop where
  shared : (s.releasePromise = none ∧ s.releases = []) ∨ ∃ promise stage,
    s.releasePromise = some promise ∧ s.releases = [(promise, stage)] ∧ s.aborted = true ∧
      StageSound s stage
  stopped : s.released = true → s.aborted = true
  done : s.released = true → s.active = []

structure Sound (s : Lifetime) : Prop where
  invoking : Invoking s
  releasing : Releasing s

theorem sound_claimed : Sound claimed where
  invoking := ⟨rfl, List.nodup_nil, List.nodup_nil, nofun, Nat.zero_le _⟩
  releasing := ⟨Or.inl ⟨rfl, rfl⟩, nofun, nofun⟩

/-! ## Frames -/

variable {s s' : Lifetime}

theorem StageSound.frame {stage : ReleaseStage} (h : StageSound s stage)
    (hreleased : s'.released = s.released)
    (hactive : ∀ i ∈ s'.active, ∃ j ∈ s.active, j.promise = i.promise) : StageSound s' stage := by
  have hnone (hempty : s.active = []) : s'.active = [] := by
    rw [List.eq_nil_iff_forall_not_mem]
    intro i hi
    obtain ⟨j, hj, -⟩ := hactive i hi
    rw [hempty] at hj
    cases hj
  cases h with
  | queued h => exact .queued (hreleased.trans h)
  | waiting snapshot h hsnapshot =>
    refine .waiting snapshot (hreleased.trans h) fun i hi => ?_
    obtain ⟨j, hj, heq⟩ := hactive i hi
    exact heq ▸ hsnapshot j hj
  | calling h hempty => exact .calling (hreleased.trans h) (hnone hempty)
  | succeeded h => exact .succeeded (hreleased.trans h)
  | failed h hempty => exact .failed (hreleased.trans h) (hnone hempty)

/-- Steps that start no invocation and leave the releases alone. -/
theorem Releasing.frame (h : Releasing s) (hreleased : s'.released = s.released)
    (hpromise : s'.releasePromise = s.releasePromise) (hreleases : s'.releases = s.releases)
    (haborted : s.aborted = true → s'.aborted = true)
    (hactive : ∀ i ∈ s'.active, ∃ j ∈ s.active, j.promise = i.promise) : Releasing s' := by
  refine ⟨?_, fun hr => haborted (h.stopped (hreleased ▸ hr)), fun hr => ?_⟩
  · rw [hpromise, hreleases]
    rcases h.shared with hnone | ⟨promise, stage, hp, hr, ha, hstage⟩
    · exact Or.inl hnone
    · exact Or.inr ⟨promise, stage, hp, hr, haborted ha, hstage.frame hreleased hactive⟩
  · rw [List.eq_nil_iff_forall_not_mem]
    intro i hi
    obtain ⟨j, hj, -⟩ := hactive i hi
    rw [h.done (hreleased ▸ hr)] at hj
    cases hj

theorem same_active (h : s'.active = s.active) :
    ∀ i ∈ s'.active, ∃ j ∈ s.active, j.promise = i.promise :=
  fun i hi => ⟨i, h ▸ hi, rfl⟩

/-- Invocations that keep their promises and identities. -/
theorem Sound.change (h : Sound s) (promise : Nat) {f : Invocation → Invocation}
    (hf : ∀ i, (f i).promise = i.promise ∧ (f i).invocationId = i.invocationId) :
    Sound (s.change promise f) := by
  have hsame : ∀ i : Invocation, (if i.promise = promise then f i else i).promise = i.promise ∧
      (if i.promise = promise then f i else i).invocationId = i.invocationId := by
    intro i
    split
    · exact hf i
    · exact ⟨rfl, rfl⟩
  have hpromises : (s.change promise f).active.map Invocation.promise =
      s.active.map Invocation.promise := by
    rw [Lifetime.change, List.map_map]
    exact List.map_congr_left fun i _ => (hsame i).1
  have hids : (s.change promise f).active.map Invocation.invocationId =
      s.active.map Invocation.invocationId := by
    rw [Lifetime.change, List.map_map]
    exact List.map_congr_left fun i _ => (hsame i).2
  have hfrom : ∀ i ∈ (s.change promise f).active, ∃ j ∈ s.active, j.promise = i.promise := by
    intro i hi
    obtain ⟨j, hj, rfl⟩ := List.mem_map.1 hi
    exact ⟨j, hj, (hsame j).1.symm⟩
  refine ⟨⟨?_, hids ▸ h.invoking.ids, hpromises ▸ h.invoking.promises, fun i hi => ?_, ?_⟩,
    h.releasing.frame rfl rfl rfl id hfrom⟩
  · show s.invocations = _
    rw [h.invoking.entries, Lifetime.change, List.map_map]
    exact List.map_congr_left fun i _ => (Prod.ext (hsame i).2 (hsame i).1).symm
  · obtain ⟨j, hj, heq⟩ := hfrom i hi
    exact heq ▸ h.invoking.fresh j hj
  · rw [Lifetime.change, List.length_map]
    exact h.invoking.few

/-! ## Steps -/

theorem Sound.invoke (h : Sound s) (call : InvocationCall) : Sound (s.invoke call) := by
  unfold Lifetime.invoke
  cases hadmission : s.admission call with
  | error e => exact h
  | ok u =>
    unfold admission at hadmission
    split_ifs at hadmission with hfacade haborted hvalid hsignal hid hfull
    have hnot : s.aborted = false := Bool.eq_false_iff.2 haborted
    have hkeys : s.invocations.map Prod.fst = s.active.map Invocation.invocationId := by
      rw [h.invoking.entries, List.map_map]
      rfl
    have hlength : s.invocations.length = s.active.length := by
      rw [h.invoking.entries, List.length_map]
    refine ⟨⟨?_, ?_, ?_, ?_, ?_⟩, ?_, ?_, ?_⟩
    · simp only [List.map_append, List.map_cons, List.map_nil, h.invoking.entries]
    · rw [hkeys] at hid
      simp only [List.map_append, List.map_cons, List.map_nil]
      exact List.nodup_append.2 ⟨h.invoking.ids, List.nodup_singleton _, fun a ha b hb heq =>
        hid (List.mem_singleton.1 hb ▸ heq ▸ ha)⟩
    · simp only [List.map_append, List.map_cons, List.map_nil]
      refine List.nodup_append.2 ⟨h.invoking.promises, List.nodup_singleton _, ?_⟩
      intro a ha b hb heq
      obtain ⟨i, hi, rfl⟩ := List.mem_map.1 ha
      have hlt := h.invoking.fresh i hi
      have hb := List.mem_singleton.1 hb
      omega
    · intro i hi
      rcases List.mem_append.1 hi with hi | hi
      · exact Nat.lt_succ_of_lt (h.invoking.fresh i hi)
      · rw [List.mem_singleton.1 hi]
        exact Nat.lt_succ_self _
    · rw [List.length_append, List.length_singleton]
      omega
    · rcases h.releasing.shared with hnone | ⟨_, _, _, _, ha, _⟩
      · exact Or.inl hnone
      · exact absurd (ha.symm.trans hnot) nofun
    · exact h.releasing.stopped
    · intro hreleased
      exact absurd ((h.releasing.stopped hreleased).symm.trans hnot) nofun

theorem Sound.finish (h : Sound s) (promise : Nat) : Sound (s.finish promise) := by
  unfold Lifetime.finish
  cases hfind : s.active.find? fun i => i.promise = promise && i.stage = .finishing with
  | none => exact h
  | some i =>
    have hi := List.mem_of_find?_eq_some hfind
    have hpromise : i.promise = promise := by
      have := List.find?_some hfind
      simp only [Bool.and_eq_true, decide_eq_true_eq] at this
      exact this.1
    -- The identity of the invocation and its promise select the same entry.
    have hsame : ∀ j ∈ s.active, j.invocationId ≠ i.invocationId ↔ j.promise ≠ promise := by
      intro j hj
      constructor
      · rintro hid rfl
        exact hid (congrArg Invocation.invocationId
          (List.inj_on_of_nodup_map h.invoking.promises hj hi hpromise.symm))
      · rintro hp hid
        exact hp (congrArg Invocation.promise
          (List.inj_on_of_nodup_map h.invoking.ids hj hi hid) |>.trans hpromise)
    have hsub := List.filter_sublist (p := fun j : Invocation => decide (j.promise ≠ promise))
      (l := s.active)
    refine ⟨⟨?_, h.invoking.ids.sublist (hsub.map _), h.invoking.promises.sublist (hsub.map _),
      fun j hj => h.invoking.fresh j (List.mem_of_mem_filter hj),
      (List.length_filter_le _ _).trans h.invoking.few⟩,
      h.releasing.frame rfl rfl rfl id fun j hj => ⟨j, List.mem_of_mem_filter hj, rfl⟩⟩
    show s.invocations.filter _ = _
    rw [h.invoking.entries, List.filter_map]
    refine congrArg (List.map _) (List.filter_congr fun j hj => ?_)
    exact decide_eq_decide.2 (hsame j hj)

theorem Sound.stop (h : Sound s) : Sound s.stop :=
  ⟨⟨h.invoking.entries, h.invoking.ids, h.invoking.promises, h.invoking.fresh, h.invoking.few⟩,
    h.releasing.frame rfl rfl rfl (fun _ => rfl) (same_active rfl)⟩

theorem Sound.release (h : Sound s) : Sound s.release := by
  unfold Lifetime.release
  by_cases hbusy : s.released = true ∨ s.releasePromise.isSome = true
  · rw [if_pos hbusy]
    exact h
  · rw [if_neg hbusy]
    rw [not_or, Bool.not_eq_true] at hbusy
    rcases h.releasing.shared with ⟨-, hreleases⟩ | ⟨promise, _, hpromise, _⟩
    · refine ⟨⟨h.invoking.entries, h.invoking.ids, h.invoking.promises,
        fun i hi => Nat.lt_succ_of_lt (h.invoking.fresh i hi), h.invoking.few⟩,
        Or.inr ⟨s.nextPromise, .queued, rfl, ?_, rfl, .queued hbusy.1⟩, fun _ => rfl,
        h.releasing.done⟩
      rw [hreleases, List.nil_append]
    · rw [hpromise] at hbusy
      exact absurd rfl hbusy.2

/-- A release that moves to another sound stage. -/
theorem Sound.advance (h : Sound s) (promise : Nat) {next : ReleaseStage → ReleaseStage}
    (hnext : ∀ stage, StageSound s stage → s.aborted = true → StageSound s (next stage)) :
    Sound (s.advance promise next) := by
  refine ⟨⟨h.invoking.entries, h.invoking.ids, h.invoking.promises, h.invoking.fresh,
    h.invoking.few⟩, ?_, h.releasing.stopped, h.releasing.done⟩
  rcases h.releasing.shared with ⟨hpromise, hreleases⟩ | ⟨p, stage, hpromise, hreleases, ha, hstage⟩
  · refine Or.inl ⟨hpromise, ?_⟩
    show List.map _ s.releases = []
    rw [hreleases, List.map_nil]
  · refine Or.inr ⟨p, if p = promise then next stage else stage, hpromise, ?_, ha, ?_⟩
    · show List.map _ s.releases = _
      rw [hreleases, List.map_cons, List.map_nil]
      split <;> rfl
    · have hmoved : StageSound s (if p = promise then next stage else stage) := by
        split
        · exact hnext stage hstage ha
        · exact hstage
      exact hmoved.frame rfl (same_active rfl)

theorem Sound.look (h : Sound s) (promise : Nat) : Sound (s.advance promise s.looked) := by
  refine h.advance promise fun stage hstage _ => ?_
  cases hstage with
  | queued hreleased =>
    refine .waiting _ hreleased fun i hi => ?_
    rw [h.invoking.entries, List.map_map]
    exact List.mem_map.2 ⟨i, hi, rfl⟩
  | waiting snapshot hreleased hsnapshot => exact .waiting snapshot hreleased hsnapshot
  | calling hreleased hnone => exact .calling hreleased hnone
  | succeeded hreleased => exact .succeeded hreleased
  | failed hreleased hnone => exact .failed hreleased hnone

/-- Once a snapshot has settled, nothing is active. -/
theorem none_active {snapshot : List Nat} (hsnapshot : ∀ i ∈ s.active, i.promise ∈ snapshot)
    (hsettled : s.allSettled snapshot = true) : s.active = [] := by
  rw [List.eq_nil_iff_forall_not_mem]
  intro i hi
  have hout := List.all_eq_true.1 hsettled i hi
  exact absurd (hsnapshot i hi) (of_decide_eq_true hout)

theorem Sound.callRelease (h : Sound s) (promise : Nat) : Sound (s.advance promise s.called) := by
  refine h.advance promise fun stage hstage _ => ?_
  cases hstage with
  | queued hreleased => exact .queued hreleased
  | waiting snapshot hreleased hsnapshot =>
    by_cases hsettled : s.allSettled snapshot = true
    · rw [called, if_pos hsettled]
      exact .calling hreleased (none_active hsnapshot hsettled)
    · rw [called, if_neg hsettled]
      exact .waiting snapshot hreleased hsnapshot
  | calling hreleased hnone => exact .calling hreleased hnone
  | succeeded hreleased => exact .succeeded hreleased
  | failed hreleased hnone => exact .failed hreleased hnone

theorem releaseIs_nil (hreleases : s.releases = []) (promise : Nat) (p : ReleaseStage → Bool) :
    s.releaseIs promise p = false := by
  rw [releaseIs, hreleases]
  rfl

theorem releaseIs_single {promise : Nat} {stage : ReleaseStage}
    (hreleases : s.releases = [(promise, stage)]) (q : Nat) (p : ReleaseStage → Bool) :
    s.releaseIs q p = true ↔ promise = q ∧ p stage = true := by
  rw [releaseIs, hreleases, List.any_cons, List.any_nil, Bool.or_false, Bool.and_eq_true,
    decide_eq_true_eq]

/-- An answer to no callback of the release changes nothing. -/
theorem answer_other (promise : Nat) (succeeds : Bool)
    (h : ∀ r ∈ s.releases, r.1 = promise → isCalling r.2 = false) :
    s.answer promise succeeds = s := by
  have hcalling : s.releaseIs promise isCalling = false := by
    rw [releaseIs, List.any_eq_false]
    intro r hr
    rw [Bool.and_eq_true, decide_eq_true_eq]
    rintro ⟨hp, hc⟩
    rw [h r hr hp] at hc
    cases hc
  have hsame : s.releases.map (fun r =>
      if r.1 = promise then (r.1, answered succeeds r.2) else r) = s.releases := by
    refine (List.map_congr_left fun r hr => ?_).trans (List.map_id s.releases)
    split
    · rename_i hp
      have hc := h r hr hp
      obtain ⟨q, stage⟩ := r
      cases stage with
      | calling => cases hc
      | queued | waiting | succeeded | failed => rfl
    · rfl
  rw [answer, hcalling, Bool.and_false, Bool.or_false, advance, hsame]

theorem Sound.answer (h : Sound s) (promise : Nat) (succeeds : Bool) :
    Sound (s.answer promise succeeds) := by
  rcases h.releasing.shared with ⟨-, hreleases⟩ | ⟨p, stage, hpromise, hreleases, ha, hstage⟩
  · rw [answer_other promise succeeds (by rw [hreleases]; nofun)]
    exact h
  · by_cases hcalled : p = promise ∧ stage = .calling
    · obtain ⟨rfl, rfl⟩ := hcalled
      have hcalling : s.releaseIs p isCalling = true :=
        (releaseIs_single hreleases p _).2 ⟨rfl, rfl⟩
      obtain ⟨hreleased, hnone⟩ : s.released = false ∧ s.active = [] := by
        cases hstage with
        | calling hreleased hnone => exact ⟨hreleased, hnone⟩
      have hmoved : (s.advance p (answered succeeds)).releases =
          [(p, if succeeds then .succeeded else .failed)] := by
        show s.releases.map _ = _
        rw [hreleases, List.map_cons, List.map_nil, if_pos rfl]
        rfl
      refine ⟨⟨h.invoking.entries, h.invoking.ids, h.invoking.promises, h.invoking.fresh,
        h.invoking.few⟩, Or.inr ⟨p, _, hpromise, hmoved, ha, ?_⟩, fun _ => ha, fun _ => hnone⟩
      cases succeeds with
      | true =>
        refine .succeeded ?_
        show (s.released || (true && s.releaseIs p isCalling)) = true
        rw [hcalling, Bool.true_and, Bool.or_true]
      | false =>
        refine .failed ?_ hnone
        show (s.released || (false && s.releaseIs p isCalling)) = false
        rw [hreleased]
        rfl
    · rw [answer_other promise succeeds ?_]
      · exact h
      · rw [hreleases]
        intro r hr hp
        rw [List.mem_singleton.1 hr] at hp ⊢
        cases stage with
        | calling => exact absurd ⟨hp, rfl⟩ hcalled
        | queued | waiting | succeeded | failed => rfl

theorem Sound.finishRelease (h : Sound s) (promise : Nat) : Sound (s.finishRelease promise) := by
  unfold Lifetime.finishRelease
  by_cases hdone : s.releaseIs promise isDone = true
  · rw [if_pos hdone]
    rcases h.releasing.shared with ⟨-, hreleases⟩ | ⟨p, stage, -, hreleases, -, -⟩
    · rw [releaseIs_nil hreleases] at hdone
      cases hdone
    · obtain ⟨rfl, -⟩ := (releaseIs_single hreleases promise _).1 hdone
      refine ⟨⟨h.invoking.entries, h.invoking.ids, h.invoking.promises, h.invoking.fresh,
        h.invoking.few⟩, Or.inl ⟨rfl, ?_⟩, h.releasing.stopped, h.releasing.done⟩
      show s.releases.filter _ = []
      rw [hreleases]
      exact List.filter_cons_of_neg (by simp)
  · rw [if_neg hdone]
    exact h

theorem sound_step (s : Lifetime) (e : Event) (h : Sound s) : Sound (s.step e) := by
  cases e with
  | initializeFacade succeeds =>
    exact ⟨⟨h.invoking.entries, h.invoking.ids, h.invoking.promises, h.invoking.fresh,
      h.invoking.few⟩, h.releasing.frame rfl rfl rfl id (same_active rfl)⟩
  | invoke call => exact h.invoke call
  | abortCaller promise => exact h.change promise fun _ => ⟨rfl, rfl⟩
  | callHost promise throws =>
    refine h.change promise fun i => ?_
    unfold begun
    split
    · exact ⟨rfl, rfl⟩
    · exact ⟨rfl, rfl⟩
  | settle promise =>
    refine h.change promise fun i => ?_
    unfold settled
    split
    · exact ⟨rfl, rfl⟩
    · exact ⟨rfl, rfl⟩
  | finish promise => exact h.finish promise
  | stop => exact h.stop
  | release => exact h.release
  | look promise => exact h.look promise
  | callRelease promise => exact h.callRelease promise
  | answerRelease promise succeeds => exact h.answer promise succeeds
  | finishRelease promise => exact h.finishRelease promise

/-- **Every lease is sound**, whatever was called on it in whatever order. -/
theorem sound_run (events : List Event) : Sound (claimed.run events) :=
  Machine.run_invariant step sound_step sound_claimed events

/-! ## What never comes back -/

theorem aborted_step (e : Event) (h : s.aborted = true) : (s.step e).aborted = true := by
  cases e with
  | invoke call =>
    show (s.invoke call).aborted = true
    unfold Lifetime.invoke
    split <;> exact h
  | finish promise =>
    show (s.finish promise).aborted = true
    unfold Lifetime.finish
    split <;> exact h
  | stop => rfl
  | release =>
    show s.release.aborted = true
    unfold Lifetime.release
    split
    · exact h
    · rfl
  | finishRelease promise =>
    show (s.finishRelease promise).aborted = true
    unfold Lifetime.finishRelease
    split <;> exact h
  | _ => exact h

/-- A call that ends the admissions. -/
def ends : Event → Bool
  | .stop | .release => true
  | _ => false

theorem Sound.ended (h : Sound s) {e : Event} (he : ends e = true) : (s.step e).aborted = true := by
  cases e with
  | stop => rfl
  | release =>
    show s.release.aborted = true
    unfold Lifetime.release
    by_cases hbusy : s.released = true ∨ s.releasePromise.isSome = true
    · rw [if_pos hbusy]
      rcases hbusy with hreleased | hpromise
      · exact h.releasing.stopped hreleased
      · rcases h.releasing.shared with ⟨hnone, -⟩ | ⟨_, _, -, -, ha, -⟩
        · rw [hnone] at hpromise
          cases hpromise
        · exact ha
    · rw [if_neg hbusy]
      rfl
  | _ => cases he

theorem released_step (e : Event) (h : s.released = true) : (s.step e).released = true := by
  cases e with
  | invoke call =>
    show (s.invoke call).released = true
    unfold Lifetime.invoke
    split <;> exact h
  | finish promise =>
    show (s.finish promise).released = true
    unfold Lifetime.finish
    split <;> exact h
  | release =>
    show s.release.released = true
    unfold Lifetime.release
    rw [if_pos (Or.inl h)]
    exact h
  | answerRelease promise succeeds =>
    show (s.released || _) = true
    rw [h, Bool.true_or]
  | finishRelease promise =>
    show (s.finishRelease promise).released = true
    unfold Lifetime.finishRelease
    split <;> exact h
  | _ => exact h

theorem released_of_succeeds {e : Event} (h : s.succeeds e = true) :
    (s.step e).released = true := by
  cases e with
  | answerRelease promise flag =>
    cases flag with
    | true =>
      show (s.released || (true && s.releaseIs promise isCalling)) = true
      rw [show s.releaseIs promise isCalling = true from h, Bool.true_and, Bool.or_true]
    | false => cases h
  | _ => cases h

theorem aborted_run {events : List Event} (h : ∃ e ∈ events, ends e = true) :
    (claimed.run events).aborted = true := by
  obtain ⟨e, he, hends⟩ := h
  obtain ⟨before, after, rfl⟩ := List.append_of_mem he
  rw [Lifetime.run, Machine.run_append, Machine.run_cons]
  have hstep : ∀ (s : Lifetime) e, s.aborted = true → (s.step e).aborted = true :=
    fun _ e => aborted_step e
  exact Machine.run_invariant step hstep ((sound_run before).ended hends) after

/-- After a successful callback the lease is released. -/
theorem released_run {before after : List Event} {e : Event}
    (h : (claimed.run before).succeeds e = true) :
    (claimed.run (before ++ e :: after)).released = true := by
  rw [Lifetime.run, Machine.run_append, Machine.run_cons]
  have hstep : ∀ (s : Lifetime) e, s.released = true → (s.step e).released = true :=
    fun _ e => released_step e
  exact Machine.run_invariant step hstep (released_of_succeeds h) after

/-! ## What the host sees -/

theorem refused (h : s.aborted = true) (call : InvocationCall) :
    ∃ e, s.admission call = .error e := by
  unfold admission
  by_cases hfacade : s.facade = false
  · rw [if_pos hfacade]
    exact ⟨_, rfl⟩
  · rw [if_neg hfacade, if_pos h]
    exact ⟨_, rfl⟩

theorem no_invoke (h : s.aborted = true) (e : Event) : s.callsInvoke e = false := by
  cases e with
  | callHost promise throws =>
    refine List.any_eq_false.2 fun i _ => ?_
    rw [signalAborted, h, Bool.true_or, Bool.not_true, Bool.and_false]
    nofun
  | _ => rfl

/-- The callback is called on a lease that was not released, without active invocations and
without another call under way. -/
theorem Sound.callsRelease (h : Sound s) {e : Event} (he : s.callsRelease e = true) :
    s.released = false ∧ s.active = [] ∧ ∀ r ∈ s.releases, r.2 ≠ .calling := by
  cases e with
  | callRelease promise =>
    replace he : s.releaseIs promise s.isReady = true := he
    rcases h.releasing.shared with ⟨-, hreleases⟩ | ⟨p, stage, -, hreleases, -, hstage⟩
    · rw [releaseIs_nil hreleases] at he
      cases he
    · obtain ⟨-, hready⟩ := (releaseIs_single hreleases promise _).1 he
      cases hstage with
      | waiting snapshot hreleased hsnapshot =>
        refine ⟨hreleased, none_active hsnapshot hready, fun r hr => ?_⟩
        rw [hreleases] at hr
        rw [List.mem_singleton.1 hr]
        nofun
      | queued | calling | succeeded | failed => cases hready
  | _ => cases he

/-- While the callback runs nothing is active. -/
theorem Sound.calling (h : Sound s) {promise : Nat} (hr : (promise, .calling) ∈ s.releases) :
    s.active = [] := by
  rcases h.releasing.shared with ⟨-, hreleases⟩ | ⟨p, stage, -, hreleases, -, hstage⟩
  · rw [hreleases] at hr
    cases hr
  · rw [hreleases, List.mem_singleton, Prod.mk.injEq] at hr
    rw [← hr.2] at hstage
    cases hstage with
    | calling _ hnone => exact hnone

/-- A failed release can be repeated, up to another call of the callback. -/
structure Retryable (s : Lifetime) : Prop where
  unreleased : s.released = false
  again : (s.step .release).releases = [(s.nextPromise, .queued)]
  callback : ((s.step .release).step (.look s.nextPromise)).callsRelease
    (.callRelease s.nextPromise) = true
  refused : ∀ call, ∃ e, s.admission call = .error e

theorem Sound.retryable (h : Sound s) {promise : Nat} (hr : (promise, .failed) ∈ s.releases) :
    Retryable (s.step (.finishRelease promise)) := by
  rcases h.releasing.shared with ⟨-, hreleases⟩ | ⟨p, stage, -, hreleases, ha, hstage⟩
  · rw [hreleases] at hr
    cases hr
  · rw [hreleases, List.mem_singleton] at hr
    cases hr
    obtain ⟨hreleased, hnone⟩ : s.released = false ∧ s.active = [] := by
      cases hstage with
      | failed hreleased hnone => exact ⟨hreleased, hnone⟩
    have hcleared : s.step (.finishRelease promise) =
        { s with releasePromise := none, releases := [] } := by
      show s.finishRelease promise = _
      unfold Lifetime.finishRelease
      rw [if_pos ((releaseIs_single hreleases promise _).2 ⟨rfl, rfl⟩), hreleases]
      simp
    rw [hcleared]
    have hagain : ({ s with releasePromise := none, releases := [] } : Lifetime).step .release =
        { s with
          aborted := true, releasePromise := some s.nextPromise,
          releases := [(s.nextPromise, .queued)], nextPromise := s.nextPromise + 1 } := by
      show Lifetime.release _ = _
      unfold Lifetime.release
      rw [if_neg (by simp [hreleased])]
      rfl
    refine ⟨hreleased, by rw [hagain], ?_, refused ha⟩
    rw [hagain]
    have hlooked : ∀ t : Lifetime, t.releases = [(s.nextPromise, .queued)] →
        (t.step (.look s.nextPromise)).releases =
          [(s.nextPromise, .waiting (t.invocations.map Prod.snd))] := by
      intro t ht
      show t.releases.map _ = _
      rw [ht, List.map_cons, List.map_nil, if_pos rfl]
      rfl
    refine (releaseIs_single (hlooked _ rfl) _ _).2 ⟨rfl, ?_⟩
    rw [hnone]
    rfl

/-- What the host sees of a lease after some calls. -/
structure Safe (events : List Event) : Prop where
  few : (claimed.run events).active.length ≤ 16
  distinct : ((claimed.run events).active.map Invocation.invocationId).Nodup
  /-- Once a stop or a release began, the host is not invoked and nothing is admitted. -/
  ended : (∃ e ∈ events, ends e = true) → (∀ e, (claimed.run events).callsInvoke e = false) ∧
    ∀ call, ∃ error, (claimed.run events).admission call = .error error
  /-- The release callback is called with no active invocation, and not while it runs. -/
  alone : ∀ e, (claimed.run events).callsRelease e = true → (claimed.run events).active = [] ∧
    ∀ r ∈ (claimed.run events).releases, r.2 ≠ .calling
  idle : ∀ promise, (promise, .calling) ∈ (claimed.run events).releases →
    (claimed.run events).active = []
  /-- It is never called again after it succeeded. -/
  once : ∀ before e after, events = before ++ e :: after →
    (claimed.run before).succeeds e = true → ∀ f, (claimed.run events).callsRelease f = false
  retryable : ∀ promise, (promise, .failed) ∈ (claimed.run events).releases →
    Retryable ((claimed.run events).step (.finishRelease promise))

theorem safe (events : List Event) : Safe events where
  few := (sound_run events).invoking.few
  distinct := (sound_run events).invoking.ids
  ended h := ⟨no_invoke (aborted_run h), refused (aborted_run h)⟩
  alone _ he := ((sound_run events).callsRelease he).2
  idle _ hr := (sound_run events).calling hr
  once := by
    rintro before e after rfl hsucceeds f
    rw [← Bool.not_eq_true]
    intro hf
    have hreleased := ((sound_run _).callsRelease hf).1
    rw [released_run hsucceeds] at hreleased
    cases hreleased
  retryable _ hr := (sound_run events).retryable hr

end Lifetime

/-! ## Claims -/

namespace Runtime

variable {β ω : Type} [DecidableEq β] [DecidableEq ω]

/-- The claimed bindings are those of the leases, each of one; and every lease only made steps of a
lease. -/
structure Claimed (s : Runtime β ω) : Prop where
  bindings : s.claimedBindings = s.leases.map Lease.binding
  distinct : s.claimedBindings.Nodup
  runs : ∀ l ∈ s.leases, ∃ events, l.lifetime = Lifetime.claimed.run events

theorem claimed_step (s : Runtime β ω) (e : RuntimeEvent β ω) (h : Claimed s) :
    Claimed (s.step e) := by
  cases e with
  | claim binding opening valid =>
    simp only [step]
    cases hclaim : s.claimBinding binding opening valid with
    | error _ => exact h
    | ok s' =>
      unfold claimBinding at hclaim
      split_ifs at hclaim with hvalid hclaimed
      cases hclaim
      refine ⟨?_, ?_, fun l hl => ?_⟩
      · simp only [List.map_append, List.map_cons, List.map_nil, h.bindings]
      · exact List.nodup_append.2 ⟨h.distinct, List.nodup_singleton _, fun a ha b hb heq =>
          hclaimed (List.mem_singleton.1 hb ▸ heq ▸ ha)⟩
      · rcases List.mem_append.1 hl with hl | hl
        · exact h.runs l hl
        · rw [List.mem_singleton.1 hl]
          exact ⟨[], rfl⟩
  | lease binding opening event =>
    refine ⟨?_, h.distinct, fun l hl => ?_⟩
    · show s.claimedBindings = List.map _ (List.map _ s.leases)
      rw [List.map_map, h.bindings]
      refine List.map_congr_left fun l _ => ?_
      show l.binding = Lease.binding (if _ then _ else _)
      split <;> rfl
    · obtain ⟨l', hl', rfl⟩ := List.mem_map.1 hl
      obtain ⟨events, hevents⟩ := h.runs l' hl'
      split
      · refine ⟨events ++ [event], ?_⟩
        rw [hevents]
        exact (Machine.run_append Lifetime.step .claimed events [event]).symm
      · exact ⟨events, hevents⟩

theorem claimed_run (trace : List (RuntimeEvent β ω)) : Claimed (run trace) :=
  Machine.run_invariant step claimed_step
    ⟨rfl, List.nodup_nil, fun _ hl => absurd hl List.not_mem_nil⟩ trace

end Runtime

/-- **Host bindings live once.**  In every run no binding is claimed by two openings, and every
lease is safe at every moment: at most sixteen invocations under identities of their own, none that
reaches the host once a stop or a release began, and a release callback that is called alone, never
again after a success, and again after a failure. -/
theorem host_binding_lifetime {β ω : Type} [DecidableEq β] [DecidableEq ω]
    (trace : List (RuntimeEvent β ω)) :
    ((Runtime.run trace).leases.map Lease.binding).Nodup ∧
      ∀ l ∈ (Runtime.run trace).leases, ∃ events,
        l.lifetime = Lifetime.claimed.run events ∧ ∀ before, before <+: events →
          Lifetime.Safe before := by
  have hclaimed := Runtime.claimed_run trace
  refine ⟨hclaimed.bindings ▸ hclaimed.distinct, fun l hl => ?_⟩
  obtain ⟨events, hevents⟩ := hclaimed.runs l hl
  exact ⟨events, hevents, fun before _ => Lifetime.safe before⟩

end AgentSdk.HostBindings
