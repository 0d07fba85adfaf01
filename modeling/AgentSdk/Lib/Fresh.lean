import Mathlib.Data.List.Nodup
import Mathlib.Data.List.Perm.Subperm

/-!
# The first free name

Names come from a numbered supply without repetition, and the search takes the
first one that a list does not hold.  The list has finitely many names, so one
of the first `length + 1` names of the supply is free.

## Main results

* `firstFree_not_mem` — with as many spare tries as there are names taken, the
  name found is free.
-/

namespace AgentSdk

variable {α : Type} [DecidableEq α]

/-- The first name from `start` on that is not taken, with `tries` spare tries. -/
def firstFree (taken : List α) (name : Nat → α) : (tries start : Nat) → α
  | 0, start => name start
  | tries + 1, start =>
    if name start ∈ taken then firstFree taken name tries (start + 1) else name start

/-- The search returns a name of the supply, no further on than it has tries. -/
theorem firstFree_eq (taken : List α) (name : Nat → α) (tries start : Nat) :
    ∃ n ≤ start + tries, firstFree taken name tries start = name n := by
  induction tries generalizing start with
  | zero => exact ⟨start, Nat.le_refl start, rfl⟩
  | succ tries ih =>
    by_cases h : name start ∈ taken
    · obtain ⟨n, hn, heq⟩ := ih (start + 1)
      exact ⟨n, by omega, by rw [firstFree, if_pos h, heq]⟩
    · exact ⟨start, by omega, by rw [firstFree, if_neg h]⟩

/-- A search that ends on a taken name has met taken names only. -/
theorem mem_of_firstFree_mem {taken : List α} {name : Nat → α} {tries start : Nat}
    (h : firstFree taken name tries start ∈ taken) :
    ∀ n ≤ tries, name (start + n) ∈ taken := by
  induction tries generalizing start with
  | zero =>
    intro n hn
    obtain rfl := Nat.le_zero.1 hn
    exact h
  | succ tries ih =>
    intro n hn
    have hstart : name start ∈ taken := by
      by_contra hfree
      rw [firstFree, if_neg hfree] at h
      exact hfree h
    rw [firstFree, if_pos hstart] at h
    cases n with
    | zero => exact hstart
    | succ n =>
      rw [show start + (n + 1) = start + 1 + n by omega]
      exact ih h n (by omega)

/-- **The name found is free** when there is a try for every name taken. -/
theorem firstFree_not_mem {taken : List α} {name : Nat → α} (hname : Function.Injective name)
    {tries : Nat} (htries : taken.length ≤ tries) : firstFree taken name tries 0 ∉ taken := by
  intro h
  have hall := mem_of_firstFree_mem h
  have hnodup : ((List.range (tries + 1)).map name).Nodup := List.nodup_range.map hname
  have hsub : (List.range (tries + 1)).map name ⊆ taken := by
    intro x hx
    obtain ⟨n, hn, rfl⟩ := List.mem_map.1 hx
    have hle : n ≤ tries := by
      have := List.mem_range.1 hn
      omega
    simpa using hall n hle
  have hlength := (List.subperm_of_subset hnodup hsub).length_le
  rw [List.length_map, List.length_range] at hlength
  omega

end AgentSdk
