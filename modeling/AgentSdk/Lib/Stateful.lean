import Mathlib.Tactic.Basic

/-!
# Computations on a state that failures keep

`Stateful ε σ` is a computation on a state of type `σ` that may fail with an
error of type `ε`; the state reached is kept either way.  `Coupled R E` relates
the ends of two runs: equal results, states related by `R` after success and by
`E` after failure.

## Main results

* `Stateful.bind_ok`, `Stateful.bind_error` — how a sequence runs.
* `Stateful.ok_of_bind` — a sequence that succeeds does so part by part.
* `Stateful.Coupled.bind` — coupled parts make a coupled sequence.
* `Stateful.Keeps.bind` — what every part keeps the sequence keeps.
-/

namespace AgentSdk

/-- Computations on a state that may fail; a failure keeps the state. -/
abbrev Stateful (ε σ : Type) := ExceptT ε (StateM σ)

/-- Fail when a condition holds. -/
def refuseIf {ε : Type} {m : Type → Type} [Monad m] [MonadExcept ε m] (c : Prop) [Decidable c]
    (e : ε) : m Unit :=
  if c then throw e else pure ()

variable {c : Prop}

theorem refuseIf_of_not {ε : Type} {m : Type → Type} [Monad m] [MonadExcept ε m] [Decidable c]
    (e : ε) (h : ¬c) : (refuseIf c e : m Unit) = pure () := if_neg h

theorem refuseIf_of {ε : Type} {m : Type → Type} [Monad m] [MonadExcept ε m] [Decidable c] (e : ε)
    (h : c) : (refuseIf c e : m Unit) = throw e := if_pos h

/-- In a fallible sequence that succeeds, the first part does. -/
theorem ok_of_except_bind {ε α β : Type} {x : Except ε α} {f : α → Except ε β} {b : β}
    (h : x >>= f = .ok b) : ∃ a, x = .ok a ∧ f a = .ok b := by
  cases x with
  | error e => exact absurd h (by intro h; cases h)
  | ok a => exact ⟨a, rfl, h⟩

theorem except_bind_ok {ε α β : Type} {x : Except ε α} {f : α → Except ε β} {a : α}
    (h : x = .ok a) : x >>= f = f a := by
  rw [h]
  rfl

theorem except_refuseIf_bind {ε α : Type} [Decidable c] {e : ε} {f : Unit → Except ε α} (h : ¬c) :
    (refuseIf c e : Except ε Unit) >>= f = f () := by
  rw [refuseIf_of_not e h]
  rfl

/-- A check that passed did not find its condition. -/
theorem not_of_refuseIf {ε : Type} [Decidable c] {e : ε} {u : Unit}
    (h : (refuseIf c e : Except ε Unit) = .ok u) : ¬c := by
  intro hc
  rw [refuseIf_of e hc] at h
  cases h

/-- A sequence behind a check that passes. -/
theorem ok_of_refuseIf_bind {ε α : Type} [Decidable c] {e : ε} {f : Unit → Except ε α} {a : α}
    (h : (refuseIf c e : Except ε Unit) >>= f = .ok a) : ¬c ∧ f () = .ok a := by
  obtain ⟨u, hcheck, hrest⟩ := ok_of_except_bind h
  exact ⟨not_of_refuseIf hcheck, hrest⟩

namespace Stateful

variable {ε σ τ α β : Type}

/-- A result that needs no state. -/
def lift (r : Except ε α) : Stateful ε σ α := fun s => (r, s)

/-- A computation on one component of the state. -/
def zoom (get : σ → τ) (set : σ → τ → σ) (m : Stateful ε τ α) : Stateful ε σ α := fun s =>
  ((m (get s)).1, set s (m (get s)).2)

/-! ### Sequences -/

variable {m : Stateful ε σ α} {f : α → Stateful ε σ β} {s s' : σ} {e : ε} {b : β}
  {E R : σ → τ → Prop} {t : τ} {I : σ → Prop}

theorem bind_ok {a : α} (hm : m s = (.ok a, s')) : (m >>= f) s = f a s' := by
  show (match m s with | (x, t) => ExceptT.bindCont f x t) = _
  rw [hm]
  rfl

theorem bind_error (hm : m s = (.error e, s')) : (m >>= f) s = (.error e, s') := by
  show (match m s with | (x, t) => ExceptT.bindCont f x t) = _
  rw [hm]
  rfl

@[simp] theorem pure_run (a : α) (s : σ) : (pure a : Stateful ε σ α) s = (.ok a, s) := rfl

@[simp] theorem throw_run (e : ε) (s : σ) : (throw e : Stateful ε σ α) s = (.error e, s) := rfl

/-- A sequence that succeeds does so part by part. -/
theorem ok_of_bind {s'' : σ} (h : (m >>= f) s = (.ok b, s'')) :
    ∃ a s', m s = (.ok a, s') ∧ f a s' = (.ok b, s'') := by
  cases hm : m s with
  | mk r s' =>
    cases r with
    | error e =>
      rw [bind_error hm] at h
      cases h
    | ok a =>
      rw [bind_ok hm] at h
      exact ⟨a, s', rfl, h⟩

/-- A sequence behind a check that passes. -/
theorem ok_of_refuseIf {c : Prop} [Decidable c] {f : Unit → Stateful ε σ β}
    (h : ((refuseIf c e : Stateful ε σ Unit) >>= f) s = (.ok b, s')) :
    ¬c ∧ f () s = (.ok b, s') := by
  by_cases hc : c
  · rw [refuseIf_of e hc, bind_error (throw_run e s)] at h
    cases h
  · rw [refuseIf_of_not e hc, bind_ok (pure_run () s)] at h
    exact ⟨hc, h⟩

theorem refuseIf_bind {c : Prop} [Decidable c] {f : Unit → Stateful ε σ β} (h : ¬c) :
    ((refuseIf c e : Stateful ε σ Unit) >>= f) s = f () s := by
  rw [refuseIf_of_not e h, bind_ok (pure_run () s)]

theorem lift_bind {a : α} {r : Except ε α} (h : r = .ok a) : (lift r >>= f) s = f a s :=
  bind_ok (by rw [h]; rfl)

theorem ok_of_lift {r : Except ε α} (h : (lift r >>= f) s = (.ok b, s')) :
    ∃ a, r = .ok a ∧ f a s = (.ok b, s') := by
  obtain ⟨a, t, hr, hf⟩ := ok_of_bind h
  obtain ⟨rfl, rfl⟩ := Prod.mk.inj hr
  exact ⟨a, rfl, hf⟩

/-! ### Two runs side by side -/

/-- Two runs end alike: with the same result, in states related by `R` after
success and by `E` after failure. -/
inductive Coupled (R E : σ → τ → Prop) : Except ε α × σ → Except ε α × τ → Prop
  | ok {a : α} {s : σ} {t : τ} (h : R s t) : Coupled R E (.ok a, s) (.ok a, t)
  | error {e : ε} {s : σ} {t : τ} (h : E s t) : Coupled R E (.error e, s) (.error e, t)

theorem Coupled.result_eq {x : Except ε α × σ} {y : Except ε α × τ} (h : Coupled R E x y) :
    x.1 = y.1 := by
  cases h <;> rfl

/-- Coupled parts make a coupled sequence. -/
theorem Coupled.bind {R' : σ → τ → Prop} {m' : Stateful ε τ α} {f' : α → Stateful ε τ β}
    (hm : Coupled R E (m s) (m' t)) (hf : ∀ a s' t', R s' t' → Coupled R' E (f a s') (f' a t')) :
    Coupled R' E ((m >>= f) s) ((m' >>= f') t) := by
  cases hs : m s with
  | mk r s' =>
    cases ht : m' t with
    | mk r' t' =>
      rw [hs, ht] at hm
      cases hm with
      | ok h =>
        rw [bind_ok hs, bind_ok ht]
        exact hf _ _ _ h
      | error h =>
        rw [bind_error hs, bind_error ht]
        exact .error h

theorem Coupled.lift (r : Except ε α) (hR : R s t) (hE : E s t) :
    Coupled R E ((Stateful.lift r : Stateful ε σ α) s)
      ((Stateful.lift r : Stateful ε τ α) t) := by
  cases r with
  | ok a => exact .ok hR
  | error e => exact .error hE

theorem Coupled.refuseIf (c : Prop) [Decidable c] (e : ε) (hR : R s t) (hE : E s t) :
    Coupled R E ((AgentSdk.refuseIf c e : Stateful ε σ Unit) s)
      ((AgentSdk.refuseIf c e : Stateful ε τ Unit) t) := by
  by_cases hc : c
  · rw [refuseIf_of e hc, refuseIf_of e hc]
    exact .error hE
  · rw [refuseIf_of_not e hc, refuseIf_of_not e hc]
    exact .ok hR

/-! ### What a successful run keeps -/

/-- A computation keeps a property of the state whenever it succeeds. -/
def Keeps (I : σ → Prop) (m : Stateful ε σ α) : Prop :=
  ∀ s a s', m s = (.ok a, s') → I s → I s'

theorem Keeps.pure (a : α) : Keeps I (pure a : Stateful ε σ α) := by
  intro s b s' h hI
  cases h
  exact hI

theorem Keeps.throw (e : ε) : Keeps I (throw e : Stateful ε σ α) := by
  intro s a s' h
  cases h

theorem Keeps.bind (hm : Keeps I m) (hf : ∀ a, Keeps I (f a)) : Keeps I (m >>= f) := by
  intro s b s'' h hI
  obtain ⟨a, s', hrun, hrest⟩ := ok_of_bind h
  exact hf a s' b s'' hrest (hm s a s' hrun hI)

theorem Keeps.refuseIf (c : Prop) [Decidable c] (e : ε) :
    Keeps I (AgentSdk.refuseIf c e : Stateful ε σ Unit) := by
  by_cases hc : c
  · rw [refuseIf_of e hc]
    exact Keeps.throw e
  · rw [refuseIf_of_not e hc]
    exact Keeps.pure ()

theorem Keeps.lift (r : Except ε α) : Keeps I (Stateful.lift r : Stateful ε σ α) := by
  intro s a s' h hI
  obtain ⟨_, rfl⟩ := Prod.mk.inj h
  exact hI

theorem Keeps.zoom {I : τ → Prop} {get : σ → τ} {set : σ → τ → σ} {m : Stateful ε τ α}
    (hget : ∀ s t, get (set s t) = t) (hm : Keeps I m) :
    Keeps (fun s => I (get s)) (Stateful.zoom get set m) := by
  intro s a s' h hI
  obtain ⟨hresult, rfl⟩ := Prod.mk.inj h
  rw [hget]
  exact hm (get s) a _ (Prod.ext hresult rfl) hI

end Stateful

end AgentSdk
