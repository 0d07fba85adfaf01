import Mathlib.Data.List.Nodup
import Mathlib.Algebra.BigOperators.Group.List.Basic
import Mathlib.Algebra.Order.BigOperators.Group.List
import Mathlib.Algebra.Order.Ring.Nat
import Mathlib.Tactic.Common

/-!
# Keyed tables

A map whose keys are computed from its rows, in insertion order: writing a row
replaces the row with its key where it stands, or appends.  The keys of a table
are pairwise different by construction, so no lemma below carries that as a
hypothesis.

## Main results

* `get_put`, `mem_put` — what a write changes, and that it changes nothing
  else.
* `total_put_new`, `total_put_old` — how a sum over the rows moves with one
  write.
-/

namespace AgentSdk

variable {α κ : Type}

/-- Rows with pairwise different keys, in insertion order. -/
structure Table (key : α → κ) where
  rows : List α
  distinct : (rows.map key).Nodup

namespace Table

variable {key : α → κ}

/-- The table without rows. -/
def empty : Table key := ⟨[], List.nodup_nil⟩

@[simp] theorem rows_empty : (empty : Table key).rows = [] := rfl

variable {t : Table key} {v w : α} {k : κ}

/-- Rows with one key are one row. -/
theorem eq_of_key_eq (hv : v ∈ t.rows) (hw : w ∈ t.rows) (h : key v = key w) : v = w :=
  List.inj_on_of_nodup_map t.distinct hv hw h

/-- A table is its rows. -/
theorem eq_of_rows {s : Table key} (h : s.rows = t.rows) : s = t := by
  cases s
  cases t
  cases h
  rfl

/-- The sum of a measure over all rows. -/
def total (f : α → Nat) (t : Table key) : Nat := (t.rows.map f).sum

/-- The number of rows with a property. -/
def count (p : α → Bool) (t : Table key) : Nat := t.rows.countP p

@[simp] theorem total_empty (f : α → Nat) : total f (empty : Table key) = 0 := rfl

@[simp] theorem count_empty (p : α → Bool) : count p (empty : Table key) = 0 := rfl

theorem count_eq_total (p : α → Bool) (t : Table key) :
    count p t = total (fun r => if p r then 1 else 0) t := by
  obtain ⟨rows, _⟩ := t
  simp only [count, total]
  induction rows with
  | nil => rfl
  | cons r rest ih => by_cases h : p r <;> simp_all [Nat.add_comm]

/-- Disjoint properties count at most every row. -/
theorem count_add_count_le {p q : α → Bool} (t : Table key)
    (h : ∀ r ∈ t.rows, p r = true → q r = false) : count p t + count q t ≤ t.rows.length := by
  have hle : count p t ≤ t.rows.countP (fun r => !q r) :=
    List.countP_mono_left fun r hr hp => by rw [h r hr hp]; rfl
  have hsum := List.length_eq_countP_add_countP (l := t.rows) q
  simp only [count, Bool.not_eq_true, Bool.decide_eq_false] at hle hsum ⊢
  omega

/-- The rows of a table are pairwise different. -/
theorem nodup_rows (t : Table key) : t.rows.Nodup := List.Nodup.of_map key t.distinct

variable [DecidableEq κ]

/-- Replace the row with the key of `v`, or append `v`. -/
def upsert (key : α → κ) (v : α) : List α → List α
  | [] => [v]
  | r :: rest => if key r = key v then v :: rest else r :: upsert key v rest

private theorem mem_keys_upsert {rows : List α} (h : k ∈ (upsert key v rows).map key) :
    k = key v ∨ k ∈ rows.map key := by
  induction rows with
  | nil => simpa [upsert] using h
  | cons r rest ih =>
    unfold upsert at h
    split at h
    · rw [List.map_cons, List.mem_cons] at h
      rcases h with hk | hk
      · exact Or.inl hk
      · exact Or.inr (List.mem_cons_of_mem _ hk)
    · rw [List.map_cons, List.mem_cons] at h
      rcases h with rfl | hk
      · exact Or.inr List.mem_cons_self
      · rcases ih hk with hk | hk
        · exact Or.inl hk
        · exact Or.inr (List.mem_cons_of_mem _ hk)

private theorem nodup_upsert {rows : List α} (h : (rows.map key).Nodup) :
    ((upsert key v rows).map key).Nodup := by
  induction rows with
  | nil => simp [upsert]
  | cons r rest ih =>
    rw [List.map_cons, List.nodup_cons] at h
    unfold upsert
    split
    · rename_i hkey
      rw [List.map_cons, List.nodup_cons, ← hkey]
      exact h
    · rename_i hkey
      rw [List.map_cons, List.nodup_cons]
      refine ⟨fun hmem => ?_, ih h.2⟩
      rcases mem_keys_upsert hmem with hk | hk
      · exact hkey hk
      · exact h.1 hk

/-- Write one row. -/
def put (t : Table key) (v : α) : Table key := ⟨upsert key v t.rows, nodup_upsert t.distinct⟩

/-- Write a row if there is one. -/
def putOption (t : Table key) (v : Option α) : Table key :=
  match v with
  | some v => t.put v
  | none => t

/-- The row with a key. -/
def get (t : Table key) (k : κ) : Option α := t.rows.find? fun r => decide (key r = k)

/-! ## Reading -/

theorem key_of_get (h : t.get k = some v) : key v = k := by
  simpa using List.find?_some h

theorem mem_of_get (h : t.get k = some v) : v ∈ t.rows :=
  List.mem_of_find?_eq_some h

theorem get_of_mem (h : v ∈ t.rows) : t.get (key v) = some v := by
  cases hget : t.get (key v) with
  | none => simpa using List.find?_eq_none.1 hget v h
  | some w => rw [eq_of_key_eq (mem_of_get hget) h (key_of_get hget)]

theorem get_eq_some : t.get k = some v ↔ v ∈ t.rows ∧ key v = k := by
  constructor
  · intro h
    exact ⟨mem_of_get h, key_of_get h⟩
  · rintro ⟨hmem, rfl⟩
    exact get_of_mem hmem

theorem get_eq_none : t.get k = none ↔ ∀ v ∈ t.rows, key v ≠ k := by
  simp [get]

@[simp] theorem get_empty (k : κ) : (empty : Table key).get k = none := rfl

/-! ## Writing -/

/-- After a write: the row written, and every row with another key. -/
theorem mem_put : w ∈ (t.put v).rows ↔ w = v ∨ (w ∈ t.rows ∧ key w ≠ key v) := by
  obtain ⟨rows, hdistinct⟩ := t
  simp only [put]
  induction rows with
  | nil => simp [upsert]
  | cons r rest ih =>
    rw [List.map_cons, List.nodup_cons] at hdistinct
    have htail := ih hdistinct.2
    unfold upsert
    split
    · rename_i hkey
      have hne : ∀ x ∈ rest, key x ≠ key v := by
        intro x hx heq
        exact hdistinct.1 (List.mem_map.2 ⟨x, hx, heq.trans hkey.symm⟩)
      constructor
      · intro h
        rcases List.mem_cons.1 h with rfl | h
        · exact Or.inl rfl
        · exact Or.inr ⟨List.mem_cons_of_mem _ h, hne w h⟩
      · rintro (rfl | ⟨h, hk⟩)
        · exact List.mem_cons_self
        · rcases List.mem_cons.1 h with rfl | h
          · exact absurd hkey hk
          · exact List.mem_cons_of_mem _ h
    · rename_i hkey
      rw [List.mem_cons, List.mem_cons, htail]
      constructor
      · rintro (rfl | rfl | ⟨h, hk⟩)
        · exact Or.inr ⟨Or.inl rfl, hkey⟩
        · exact Or.inl rfl
        · exact Or.inr ⟨Or.inr h, hk⟩
      · rintro (rfl | ⟨rfl | h, hk⟩)
        · exact Or.inr (Or.inl rfl)
        · exact Or.inl rfl
        · exact Or.inr (Or.inr ⟨h, hk⟩)

theorem mem_put_self (t : Table key) (v : α) : v ∈ (t.put v).rows := mem_put.2 (Or.inl rfl)

theorem get_put (t : Table key) (v : α) (k : κ) :
    (t.put v).get k = if k = key v then some v else t.get k := by
  split
  · rename_i h
    subst h
    exact get_of_mem (mem_put_self t v)
  · rename_i h
    cases hget : t.get k with
    | none =>
      refine get_eq_none.2 fun w hw heq => ?_
      rcases mem_put.1 hw with rfl | ⟨hold, _⟩
      · exact h heq.symm
      · exact get_eq_none.1 hget w hold heq
    | some w =>
      obtain ⟨hmem, rfl⟩ := get_eq_some.1 hget
      exact get_of_mem (mem_put.2 (Or.inr ⟨hmem, h⟩))

theorem mem_putOption {v : Option α} :
    w ∈ (t.putOption v).rows ↔ w ∈ v ∨ (w ∈ t.rows ∧ ∀ u ∈ v, key w ≠ key u) := by
  cases v with
  | none => simp [putOption]
  | some v =>
    simp only [putOption, mem_put, Option.mem_some_iff, forall_eq']
    rw [eq_comm]

/-- A row under a new key is appended. -/
theorem rows_put_new (h : t.get (key v) = none) : (t.put v).rows = t.rows ++ [v] := by
  have hne := get_eq_none.1 h
  obtain ⟨rows, hdistinct⟩ := t
  simp only [put] at hne ⊢
  clear h hdistinct
  induction rows with
  | nil => rfl
  | cons r rest ih =>
    rw [upsert, if_neg (hne r List.mem_cons_self),
      ih fun w hw => hne w (List.mem_cons_of_mem r hw), List.cons_append]

/-- A row under an old key takes the place of the row replaced. -/
theorem rows_put_old (h : t.get (key v) = some w) :
    (t.put v).rows = t.rows.map fun r => if key r = key v then v else r := by
  obtain ⟨rows, hdistinct⟩ := t
  obtain ⟨hmem, hkey⟩ := get_eq_some.1 h
  simp only [put] at hmem ⊢
  clear h
  induction rows with
  | nil => simp at hmem
  | cons r rest ih =>
    rw [List.map_cons, List.nodup_cons] at hdistinct
    by_cases hr : key r = key v
    · have hrest : rest.map (fun r => if key r = key v then v else r) = rest := by
        refine (List.map_congr_left fun x hx => ?_).trans (List.map_id rest)
        have hne : key x ≠ key v := fun hx' =>
          hdistinct.1 (hr.trans hx'.symm ▸ List.mem_map_of_mem hx)
        rw [if_neg hne, id]
      rw [upsert, if_pos hr, List.map_cons, if_pos hr, hrest]
    · have hwrest : w ∈ rest := by
        rcases List.mem_cons.1 hmem with rfl | hmem
        · exact absurd hkey hr
        · exact hmem
      rw [upsert, if_neg hr, List.map_cons, if_neg hr, ih hdistinct.2 hwrest]

/-! ## Sums -/

/-- A row under a new key adds its measure. -/
theorem total_put_new (f : α → Nat) (h : t.get (key v) = none) :
    total f (t.put v) = total f t + f v := by
  obtain ⟨rows, hdistinct⟩ := t
  have hne := get_eq_none.1 h
  simp only [total, put] at hne ⊢
  clear h hdistinct
  induction rows with
  | nil => simp [upsert]
  | cons r rest ih =>
    have hr : key r ≠ key v := hne r (by simp)
    have htail := ih fun w hw => hne w (by simp [hw])
    simp only [upsert, if_neg hr, List.map_cons, List.sum_cons, htail]
    omega

/-- A row under an old key exchanges its measure for the one replaced. -/
theorem total_put_old (f : α → Nat) (h : t.get (key v) = some w) :
    total f (t.put v) + f w = total f t + f v := by
  obtain ⟨rows, hdistinct⟩ := t
  obtain ⟨hmem, hkey⟩ := get_eq_some.1 h
  simp only [total, put] at hmem ⊢
  clear h
  induction rows with
  | nil => simp at hmem
  | cons r rest ih =>
    rw [List.map_cons, List.nodup_cons] at hdistinct
    by_cases hr : key r = key v
    · have hrw : r = w := by
        rcases List.mem_cons.1 hmem with rfl | hmem
        · rfl
        · exact absurd (List.mem_map.2 ⟨w, hmem, hkey.trans hr.symm⟩) hdistinct.1
      subst hrw
      simp only [upsert, if_pos hr, List.map_cons, List.sum_cons]
      omega
    · have hwrest : w ∈ rest := by
        rcases List.mem_cons.1 hmem with rfl | hmem
        · exact absurd hkey hr
        · exact hmem
      have htail := ih hdistinct.2 hwrest
      simp only [upsert, if_neg hr, List.map_cons, List.sum_cons]
      omega

theorem length_put_new (h : t.get (key v) = none) : (t.put v).rows.length = t.rows.length + 1 := by
  rw [rows_put_new h, List.length_append, List.length_singleton]

theorem length_put_old (h : t.get (key v) = some w) : (t.put v).rows.length = t.rows.length := by
  rw [rows_put_old h, List.length_map]

theorem count_put_new (p : α → Bool) (h : t.get (key v) = none) :
    count p (t.put v) = count p t + if p v then 1 else 0 := by
  rw [count_eq_total, count_eq_total, total_put_new _ h]

theorem count_put_old (p : α → Bool) (h : t.get (key v) = some w) :
    (count p (t.put v) + if p w then 1 else 0) = count p t + if p v then 1 else 0 := by
  rw [count_eq_total, count_eq_total]
  exact total_put_old _ h

end Table

end AgentSdk
