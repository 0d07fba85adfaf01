import AgentSdk.Lib.Outcome

/-!
# Computations on a budget

A computation that adds to a running total and ends with an overrun once the
total is above a limit.  It is metered when what it spends and how it ends do not
depend on the limit, but for the overrun: then the limit decides nothing else.

## Main definitions

* `Metered` — the limit only decides whether a computation is overrun.

## Main results

* `Metered.bind` — one metered computation behind another.
* `Metered.outcome` — the end of a computation from its cost and the limit.
-/

namespace AgentSdk

open AgentSdk.Outcome

variable {σ ε α β : Type} {overrun : ε → Prop} {total : σ → Nat}

/-- What a computation spends from a state, and how it ends on a limit that is high enough. -/
structure Spends (overrun : ε → Prop) (total : σ → Nat) (run : Nat → σ → Except ε (σ × α)) (s : σ)
    (cost : Nat) (outcome : Except ε (σ × α)) : Prop where
  enough : ∀ limit, total s + cost ≤ limit → run limit s = outcome
  short : ∀ limit, total s ≤ limit → limit < total s + cost →
    ∃ e, run limit s = .error e ∧ overrun e
  own : ∀ e, outcome = .error e → ¬overrun e
  spent : ∀ s' a, outcome = .ok (s', a) → total s' = total s + cost

/-- The limit only decides whether the computation is overrun; its values are related to what they
cost. -/
def Metered (overrun : ε → Prop) (total : σ → Nat) (related : α → Nat → Prop)
    (run : Nat → σ → Except ε (σ × α)) : Prop :=
  ∀ s, ∃ cost outcome, Spends overrun total run s cost outcome ∧
    ∀ s' a, outcome = .ok (s', a) → related a cost

namespace Metered

variable {related : α → Nat → Prop} {run : Nat → σ → Except ε (σ × α)}

/-- A computation that does not look at the limit and spends nothing. -/
theorem free {step : σ → Except ε (σ × α)}
    (herror : ∀ s e, step s = .error e → ¬overrun e)
    (hok : ∀ s s' a, step s = .ok (s', a) → total s' = total s ∧ related a 0) :
    Metered overrun total related fun _ s => step s := by
  intro s
  refine ⟨0, step s, ⟨fun _ _ => rfl, fun limit hle hlt => ?_, herror s, fun s' a h => ?_⟩,
    fun s' a h => (hok s s' a h).2⟩
  · omega
  · exact (hok s s' a h).1

/-- The end of a computation that returns what it is given. -/
theorem pure {a : α} (h : related a 0) : Metered overrun total related fun _ s => .ok (s, a) :=
  free nofun fun s s' b heq => by
    cases heq
    exact ⟨rfl, h⟩

/-- A failure that is no overrun. -/
theorem fail {e : ε} (h : ¬overrun e) :
    Metered overrun total related fun _ (_ : σ) => .error e :=
  free (fun _ e' heq => by
    cases heq
    exact h) nofun

/-- **One computation behind another.** -/
theorem bind {other : β → Nat → Prop} {next : Nat → σ × α → Except ε (σ × β)}
    (h : Metered overrun total related run)
    (hnext : ∀ a cost, related a cost →
      Metered overrun total (fun b more => other b (cost + more))
        fun limit s => next limit (s, a)) :
    Metered overrun total other fun limit s => run limit s >>= next limit := by
  intro s
  obtain ⟨cost, outcome, hspends, hrelated⟩ := h s
  cases houtcome : outcome with
  | error e =>
    refine ⟨cost, .error e, ⟨fun limit hle => ?_, fun limit hle hlt => ?_, fun e' heq => ?_,
      nofun⟩, nofun⟩
    · rw [hspends.enough limit hle, houtcome, error_bind]
    · obtain ⟨e', hrun, hover⟩ := hspends.short limit hle hlt
      exact ⟨e', by rw [hrun, error_bind], hover⟩
    · cases heq
      exact hspends.own e houtcome
  | ok result =>
    obtain ⟨s₁, a⟩ := result
    have hspent := hspends.spent s₁ a houtcome
    obtain ⟨more, end₁, hmore, hother⟩ := hnext a cost (hrelated s₁ a houtcome) s₁
    refine ⟨cost + more, end₁, ⟨fun limit hle => ?_, fun limit hle hlt => ?_, hmore.own,
      fun s' b heq => ?_⟩, hother⟩
    · rw [hspends.enough limit (by omega), houtcome, ok_bind]
      exact hmore.enough limit (by omega)
    · by_cases hfirst : limit < total s + cost
      · obtain ⟨e, hrun, hover⟩ := hspends.short limit hle hfirst
        exact ⟨e, by rw [hrun, error_bind], hover⟩
      · rw [hspends.enough limit (by omega), houtcome, ok_bind]
        exact hmore.short limit (by omega) (by omega)
    · rw [hmore.spent s' b heq, hspent]
      omega

/-- **The end of a computation** from a state whose total is within the limit. -/
theorem outcome (h : Metered overrun total related run) (s : σ) :
    ∃ cost end₁, (∀ limit, total s + cost ≤ limit → run limit s = end₁) ∧
      (∀ limit, total s ≤ limit → (limit < total s + cost ↔
        ∃ e, run limit s = .error e ∧ overrun e)) ∧
      ∀ s' a, end₁ = .ok (s', a) → total s' = total s + cost ∧ related a cost := by
  obtain ⟨cost, end₁, hspends, hrelated⟩ := h s
  refine ⟨cost, end₁, hspends.enough, fun limit hle => ⟨hspends.short limit hle, ?_⟩,
    fun s' a heq => ⟨hspends.spent s' a heq, hrelated s' a heq⟩⟩
  rintro ⟨e, hrun, hover⟩
  by_cases hshort : limit < total s + cost
  · exact hshort
  · rw [hspends.enough limit (by omega)] at hrun
    exact absurd hover (hspends.own e hrun)

end Metered

end AgentSdk
