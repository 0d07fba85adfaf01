import Mathlib.Logic.Relation

/-!
# Runs of a deterministic machine

A machine is a state type and a total step function; a rejected input is a step
that changes nothing.  Invariants and step relations are proved for one step
and transported to whole runs by the rules below.

## Main results

* `run_invariant` — what every step preserves holds after every run.
* `run_invariant_of` — the same for runs whose inputs all meet a condition.
* `run_related` — a reflexive and transitive relation between the states
  before and after each step relates the two ends of a run.
-/

namespace AgentSdk.Machine

variable {σ ε : Type} (step : σ → ε → σ)

/-- The state after a list of inputs. -/
def run (s : σ) (es : List ε) : σ := es.foldl step s

@[simp] theorem run_nil (s : σ) : run step s [] = s := rfl

@[simp] theorem run_cons (s : σ) (e : ε) (es : List ε) :
    run step s (e :: es) = run step (step s e) es := rfl

theorem run_append (s : σ) (es fs : List ε) :
    run step s (es ++ fs) = run step (run step s es) fs := List.foldl_append

variable {step}

theorem run_invariant_of {P : σ → Prop} {C : ε → Prop}
    (hstep : ∀ s e, C e → P s → P (step s e)) {s : σ} (hs : P s) (es : List ε)
    (hes : ∀ e ∈ es, C e) : P (run step s es) := by
  induction es generalizing s with
  | nil => exact hs
  | cons e es ih =>
    exact ih (hstep s e (hes e (by simp)) hs) fun f hf => hes f (by simp [hf])

variable (step) in
theorem run_invariant {P : σ → Prop} (hstep : ∀ s e, P s → P (step s e)) {s : σ} (hs : P s)
    (es : List ε) : P (run step s es) :=
  run_invariant_of (C := fun _ => True) (fun s e _ => hstep s e) hs es fun _ _ => trivial

/-- The two ends of a run are related when the two ends of every step are. -/
theorem run_related {P : σ → Prop} {R : σ → σ → Prop} (hrefl : ∀ s, R s s)
    (htrans : ∀ s t u, R s t → R t u → R s u)
    (hinv : ∀ s e, P s → P (step s e)) (hstep : ∀ s e, P s → R s (step s e))
    {s : σ} (hs : P s) (es : List ε) : R s (run step s es) := by
  induction es generalizing s with
  | nil => exact hrefl s
  | cons e es ih => exact htrans _ _ _ (hstep s e hs) (ih (hinv s e hs))

end AgentSdk.Machine
