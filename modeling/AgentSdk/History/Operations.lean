import AgentSdk.History.Owner
import Mathlib.Tactic.Common

/-!
# The life of one operation

What the flags of an operation say about each other, and what no later
continuation changes.  Once the race of an operation is decided, its outcome is:
a receipt that arrives afterwards was not in time, and an aborted operation is
never dispatched.

## Main results

* `Operation.Sound` — what the flags of an operation say about each other.
* `Operation.Later` — what holds of an operation from one state to a later one.
-/

namespace AgentSdk.History

namespace Operation

/-! ## Sound operations -/

structure Sound (op : Operation) : Prop where
  refused : op.admitted = false → op.started = false ∧ op.aborted = none ∧ op.answer = none
  unstarted : op.started = false → op.dispatched = false ∧ op.receipt = none
  receipts : op.receipt.isSome = true → op.kind.isMutation = true
  answered : op.settled = true → op.answer.isSome = true
  joined : op.released = true → op.settled = true
  decided : op.race.isSome = true ↔ op.settled = true ∨ op.aborted.isSome = true
  uninterrupted : op.aborted = none → op.interruptedBeforeReceipt = false
  interrupted : op.aborted.isSome = true → op.receipt = none → op.interruptedBeforeReceipt = true
  resolved : ∀ v, op.race = some (.resolved v) → op.settled = true ∧
    op.answer = some (.resolved v) ∧
    (op.strayed = false → op.receipt.isSome = true → op.interruptedBeforeReceipt = false)
  value : ∀ v, op.answer = some (.resolved v) → op.kind.isMutation = true → ∃ r, v = .result r
  kept : ∀ v r, op.answer = some (.resolved v) → op.strayed = false → op.receipt = some r →
    v = .result r

/-- What a later state keeps of an operation. -/
structure Later (op op' : Operation) : Prop where
  kind : op'.kind = op.kind
  admitted : op'.admitted = op.admitted
  strayed : op'.strayed = false → op.strayed = false
  returned : op.returned.isSome = true → op'.returned = op.returned
  race : op.race.isSome = true → op'.race = op.race
  timely : ∀ r, op.timelyReceipt = some r → op'.timelyReceipt = some r
  steady : op'.strayed = false → op.race.isSome = true →
    op'.timelyReceipt = op.timelyReceipt ∧ op'.dispatched = op.dispatched

theorem Later.refl (op : Operation) : op.Later op :=
  ⟨rfl, rfl, id, fun _ => rfl, fun _ => rfl, fun _ => id, fun _ _ => ⟨rfl, rfl⟩⟩

theorem Later.trans {op op' op'' : Operation} (h : op.Later op') (h' : op'.Later op'') :
    op.Later op'' where
  kind := h'.kind.trans h.kind
  admitted := h'.admitted.trans h.admitted
  strayed hs := h.strayed (h'.strayed hs)
  returned hr := by
    have hmid := h.returned hr
    exact (h'.returned (hmid ▸ hr)).trans hmid
  race hr := by
    have hmid := h.race hr
    exact (h'.race (hmid ▸ hr)).trans hmid
  timely r hr := h'.timely r (h.timely r hr)
  steady hs hr := by
    have hmid := h.steady (h'.strayed hs) hr
    have hlast := h'.steady hs (h.race hr ▸ hr)
    exact ⟨hlast.1.trans hmid.1, hlast.2.trans hmid.2⟩

/-- What one continuation does to an operation, apart from releasing it and
settling the caller's promise. -/
structure Continues (op op' : Operation) : Prop where
  sound : op'.Sound
  later : op.Later op'
  released : op'.released = op.released
  returned : op'.returned = op.returned

theorem Continues.refl {op : Operation} (h : op.Sound) : op.Continues op :=
  ⟨h, .refl op, rfl, rfl⟩

/-! ## One continuation -/

variable {op : Operation}

theorem timelyReceipt_eq_some {r : AgentHistoryMutationResult} :
    op.timelyReceipt = some r ↔ op.interruptedBeforeReceipt = false ∧ op.receipt = some r := by
  unfold timelyReceipt
  cases op.interruptedBeforeReceipt <;> simp

/-- A decided race was decided by the driver or by an abort. -/
theorem Sound.answered_or_aborted (h : op.Sound) (hrace : op.race.isSome = true) :
    op.answer.isSome = true ∨ op.aborted.isSome = true :=
  (h.decided.mp hrace).imp_left h.answered

/-- An abort is the interruption unless the work has settled the race. -/
theorem Sound.aborts (h : op.Sound) (error : AgentHistoryError) (hadmitted : op.admitted = true) :
    Sound { op with
      aborted := some error
      interruptedBeforeReceipt := op.receipt.isNone
      race := op.race.or (some (.rejected (.history error))) } where
  __ := h
  refused hnot := by simp [hadmitted] at hnot
  decided := by simp
  uninterrupted hnot := by simp at hnot
  interrupted _ hnone := Option.isNone_iff_eq_none.mpr hnone
  resolved v hv := by
    have hsettled : op.race = some (.resolved v) := by
      cases hrace : op.race with
      | none => simp [hrace] at hv
      | some settled => simpa [hrace] using hv
    have ⟨hdone, hanswer, _⟩ := h.resolved v hsettled
    refine ⟨hdone, hanswer, fun _ hreceipt => ?_⟩
    cases hr : op.receipt with
    | none => simp [hr] at hreceipt
    | some receipt => rfl

theorem Sound.aborts_later (h : op.Sound) (error : AgentHistoryError)
    (haborted : op.aborted = none) : op.Later { op with
      aborted := some error
      interruptedBeforeReceipt := op.receipt.isNone
      race := op.race.or (some (.rejected (.history error))) } := by
  have hclear := h.uninterrupted haborted
  have htimely : ({ op with
      aborted := some error
      interruptedBeforeReceipt := op.receipt.isNone
      race := op.race.or (some (.rejected (.history error))) } : Operation).timelyReceipt =
        op.timelyReceipt := by
    cases hr : op.receipt <;> simp [timelyReceipt, hclear, hr]
  exact {
    kind := rfl
    admitted := rfl
    strayed := id
    returned := fun _ => rfl
    race := fun hsome => by
      cases hrace : op.race with
      | none => simp [hrace] at hsome
      | some settled => rfl
    timely := fun r hr => htimely.trans hr
    steady := fun _ _ => ⟨htimely, rfl⟩ }

theorem Sound.abort (h : op.Sound) (error : AgentHistoryError) :
    op.Continues (op.abort error) := by
  unfold Operation.abort
  split
  next hopen =>
    exact ⟨h.aborts error hopen.1, h.aborts_later error hopen.2.2, rfl, rfl⟩
  · exact .refl h

/-- A continuation that leaves the race, the receipt and the dispatch alone. -/
theorem Later.quiet {op' : Operation} (hkind : op'.kind = op.kind)
    (hadmitted : op'.admitted = op.admitted) (hstrayed : op'.strayed = op.strayed)
    (hreturned : op'.returned = op.returned) (hrace : op'.race = op.race)
    (hreceipt : op'.receipt = op.receipt)
    (hinterrupted : op'.interruptedBeforeReceipt = op.interruptedBeforeReceipt)
    (hdispatched : op'.dispatched = op.dispatched) : op.Later op' := by
  have htimely : op'.timelyReceipt = op.timelyReceipt := by
    simp [timelyReceipt, hreceipt, hinterrupted]
  exact ⟨hkind, hadmitted, fun hs => hstrayed ▸ hs, fun _ => hreturned, fun _ => hrace,
    fun r hr => htimely.trans hr, fun _ _ => ⟨htimely, hdispatched⟩⟩

theorem Sound.begin (h : op.Sound) : op.Continues op.begin := by
  unfold Operation.begin
  split
  next hidle =>
    have ⟨hadmitted, _, hanswer⟩ := hidle
    have hsettled : op.settled = false := by
      by_contra hnot
      have hsome := h.answered (by simpa using hnot)
      simp [hanswer] at hsome
    split
    next error _ =>
      refine ⟨?_, .quiet rfl rfl rfl rfl rfl rfl rfl rfl, rfl, rfl⟩
      exact { h with
        refused := fun hnot => by simp [hadmitted] at hnot
        answered := fun _ => rfl
        resolved := fun v hv => by
          have hdone := (h.resolved v hv).1
          simp [hsettled] at hdone
        value := fun v hv => by simp at hv
        kept := fun v r hv => by simp at hv }
    next _ =>
      refine ⟨?_, .quiet rfl rfl rfl rfl rfl rfl rfl rfl, rfl, rfl⟩
      exact { h with
        refused := fun hnot => by simp [hadmitted] at hnot
        unstarted := fun hnot => by simp at hnot }
  · exact .refl h

theorem Sound.markDispatched (h : op.Sound) : op.Continues op.markDispatched := by
  unfold Operation.markDispatched
  split
  next hrunning =>
    have ⟨hstarted, haborted⟩ := hrunning
    refine ⟨?_, ?_, rfl, rfl⟩
    · exact { h with
        unstarted := fun hnot => by simp [hstarted] at hnot
        resolved := fun v hv => by
          have ⟨hdone, hanswer, _⟩ := h.resolved v hv
          exact ⟨hdone, hanswer, fun hstrayed => by simp [hanswer] at hstrayed⟩
        kept := fun v r hv hstrayed => by
          have hanswer : op.answer = some (.resolved v) := hv
          simp [hanswer] at hstrayed }
    · -- a race that is decided without an abort was decided by the driver
      have hsteady : (op.strayed || op.answer.isSome) = false → op.race.isSome = true → False := by
        intro hstrayed hrace
        rcases h.answered_or_aborted hrace with hanswer | hno
        · simp [hanswer] at hstrayed
        · simp [haborted] at hno
      exact ⟨rfl, rfl, fun hs => (Bool.or_eq_false_iff.mp hs).1, fun _ => rfl, fun _ => rfl,
        fun _ hr => hr, fun hs hr => absurd (hsteady hs hr) not_false⟩
  · exact .refl h

theorem Sound.recordResult (h : op.Sound) (hstarted : op.started = true)
    (hkind : op.kind.isMutation = true) (value : AgentHistoryMutationResult) :
    op.Continues (op.recordResult value) := by
  unfold Operation.recordResult
  split
  next hnone =>
    refine ⟨?_, ?_, rfl, rfl⟩
    · exact { h with
        unstarted := fun hnot => by simp [hstarted] at hnot
        receipts := fun _ => hkind
        interrupted := fun _ hnot => by simp at hnot
        resolved := fun v hv => by
          have ⟨hdone, hanswer, _⟩ := h.resolved v hv
          exact ⟨hdone, hanswer, fun hstrayed => by simp [hanswer] at hstrayed⟩
        kept := fun v r hv hstrayed => by
          have hanswer : op.answer = some (.resolved v) := hv
          simp [hanswer] at hstrayed }
    · have hbefore : op.timelyReceipt = none := by simp [timelyReceipt, hnone]
      refine ⟨rfl, rfl, fun hs => (Bool.or_eq_false_iff.mp hs).1, fun _ => rfl, fun _ => rfl,
        fun r hr => by simp [hbefore] at hr, fun hstrayed hrace => ⟨?_, rfl⟩⟩
      -- the receipt comes after the interruption
      rcases h.answered_or_aborted hrace with hanswer | haborted
      · simp [hanswer] at hstrayed
      · have hlate := h.interrupted haborted hnone
        simp [timelyReceipt, hlate]
  · exact .refl h

theorem Sound.answers (h : op.Sound) {value : Settled Thrown}
    (hvalue : ∀ v, value = .resolved v → op.kind.isMutation = true →
      ∃ r, v = .result r ∧ ∀ receipt, op.receipt = some receipt → r = receipt) :
    op.Continues (op.answers value) := by
  unfold Operation.answers Operation.running
  split
  next hrunning =>
    have ⟨hstarted, hnone⟩ : op.started = true ∧ op.answer = none := by simpa using hrunning
    refine ⟨?_, .quiet rfl rfl rfl rfl rfl rfl rfl rfl, rfl, rfl⟩
    exact { h with
      refused := fun hnot => by simp [(h.refused hnot).1] at hstarted
      answered := fun _ => rfl
      resolved := fun v hv => by
        have hanswer := (h.resolved v hv).2.1
        simp [hnone] at hanswer
      value := fun v hv hkind => by
        have ⟨r, hr, _⟩ := hvalue v (Option.some.inj hv) hkind
        exact ⟨r, hr⟩
      kept := fun v r hv _ hreceipt => by
        have ⟨recorded, heq, hsame⟩ := hvalue v (Option.some.inj hv) (h.receipts (by
          have hrecorded : op.receipt = some r := hreceipt
          simp [hrecorded]))
        rw [heq, hsame r hreceipt] }
  · exact .refl h

theorem Sound.settle (h : op.Sound) : op.Continues op.settle := by
  unfold Operation.settle
  split
  next hdue =>
    have ⟨hanswer, _⟩ := hdue
    have hrest : ∀ race, (∀ v, race = some (.resolved v) → op.answer = some (.resolved v) ∧
        (op.strayed = false → op.receipt.isSome = true → op.interruptedBeforeReceipt = false)) →
        race.isSome = true → Sound { op with settled := true, race := race } := by
      intro race hresolved hsome
      exact { h with
        answered := fun _ => hanswer
        joined := fun _ => rfl
        decided := by simp [hsome]
        resolved := fun v hv => ⟨rfl, hresolved v hv⟩ }
    cases hrace : op.race with
    | none =>
      have haborted : op.aborted = none := by
        by_contra hnot
        have hsome := h.decided.mpr (.inr (Option.isSome_iff_ne_none.mpr hnot))
        simp [hrace] at hsome
      have hclear := h.uninterrupted haborted
      rw [Option.none_or]
      refine ⟨hrest op.answer (fun v hv => ⟨hv, fun _ _ => hclear⟩) hanswer, ?_, rfl, rfl⟩
      exact ⟨rfl, rfl, id, fun _ => rfl, fun hs => by simp [hrace] at hs, fun _ hr => hr,
        fun _ _ => ⟨rfl, rfl⟩⟩
    | some settled =>
      rw [Option.some_or]
      refine ⟨hrest _ (fun v hv => ?_) rfl, ?_, rfl, rfl⟩
      · exact (h.resolved v (hrace.trans hv)).2
      · exact ⟨rfl, rfl, id, fun _ => rfl, fun _ => hrace.symm, fun _ hr => hr,
          fun _ _ => ⟨rfl, rfl⟩⟩
  · exact .refl h

end Operation

end AgentSdk.History
