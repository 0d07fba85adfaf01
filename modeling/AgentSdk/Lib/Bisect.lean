import AgentSdk.Lib.Outcome

/-!
# Bisection

The search of a loop for the last number of an interval that still satisfies a
test.  The test may fail with an error.  For a test that is true up to some number
and false from there on, the search finds that number.

## Main results

* `bisect_ok` — the search of a test that never fails ends at the last number.
-/

namespace AgentSdk.Bisect

open AgentSdk.Outcome

variable {ε : Type}

/-- The last number from `low` to `high` that passes the test; `low` is not tested. -/
def bisect (fits : Nat → Except ε Bool) (low high : Nat) : Except ε Nat :=
  if low < high then do
    let middle := (low + high + 1) / 2
    let fitting ← fits middle
    if fitting then bisect fits middle high else bisect fits low (middle - 1)
  else pure low
termination_by high - low

/-- What the search has found. -/
structure Last (p : Nat → Prop) (low high n : Nat) : Prop where
  low_le : low ≤ n
  le_high : n ≤ high
  fits : n = low ∨ p n
  above : ∀ k, n < k → k ≤ high → ¬p k

/-- **The search ends at the last number** that passes a test which is true up to
some number. -/
theorem bisect_ok {fits : Nat → Except ε Bool} {p : Nat → Prop} [DecidablePred p]
    {low high : Nat} (hle : low ≤ high)
    (hfits : ∀ n, low < n → n ≤ high → fits n = .ok (decide (p n)))
    (mono : ∀ m n, m ≤ n → n ≤ high → p n → p m) :
    ∃ n, bisect fits low high = .ok n ∧ Last p low high n := by
  induction hsize : high - low using Nat.strongRecOn generalizing low high with
  | ind size ih =>
    unfold bisect
    by_cases hlt : low < high
    · have hmiddle : low < (low + high + 1) / 2 ∧ (low + high + 1) / 2 ≤ high := by omega
      simp only [hlt, if_true, hfits _ hmiddle.1 hmiddle.2, ok_bind]
      by_cases hp : p ((low + high + 1) / 2)
      · obtain ⟨n, hn, hlast⟩ := ih _ (by omega) hmiddle.2
          (fun n hlow hhigh => hfits n (by omega) hhigh) mono rfl
        refine ⟨n, by simpa [hp] using hn, by have := hlast.low_le; omega, hlast.le_high, ?_,
          hlast.above⟩
        rcases hlast.fits with hsame | hyes
        · rw [hsame]
          exact .inr hp
        · exact .inr hyes
      · obtain ⟨n, hn, hlast⟩ := ih ((low + high + 1) / 2 - 1 - low) (by omega) (by omega)
          (fun n hlow hhigh => hfits n hlow (by omega))
          (fun m n hmn hhigh => mono m n hmn (by omega)) rfl
        refine ⟨n, by simpa [hp] using hn, hlast.low_le, by have := hlast.le_high; omega,
          hlast.fits, fun k hk hhigh hyes => ?_⟩
        by_cases hbelow : k ≤ (low + high + 1) / 2 - 1
        · exact hlast.above k hk hbelow hyes
        · exact hp (mono _ k (by omega) hhigh hyes)
    · simp only [hlt, if_false, pure_eq_ok]
      refine ⟨low, rfl, Nat.le_refl low, hle, .inl rfl, fun k hk hhigh => ?_⟩
      omega

end AgentSdk.Bisect
