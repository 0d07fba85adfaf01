import Mathlib.Data.List.Nodup
import Mathlib.Algebra.BigOperators.Group.List.Basic
import Mathlib.Tactic.Ring

/-!
# Records with tickets

A list of records holds at most one record for each ticket.  Removing the record
of a ticket takes its size from the sum of the sizes and one from the length,
whatever else the list holds.

## Main results

* `eq_of_ticket` — a ticket names one record.
* `sum_remove`, `length_remove` — what the removal of a record takes away.
-/

namespace AgentSdk.Tickets

variable {α : Type} {ticket : α → Nat}

/-- A ticket names one record. -/
theorem eq_of_ticket {l : List α} (h : (l.map ticket).Nodup) {x y : α} (hx : x ∈ l) (hy : y ∈ l)
    (hxy : ticket x = ticket y) : x = y :=
  List.inj_on_of_nodup_map h hx hy hxy

theorem remove_of_not_mem {l : List α} {t : Nat} (h : ∀ x ∈ l, ticket x ≠ t) :
    (l.filter fun x => ticket x ≠ t) = l :=
  List.filter_eq_self.2 fun x hx => by simpa using h x hx

/-- The size of a record is taken from the sum when the record is removed. -/
theorem sum_remove (size : α → Int) {l : List α} (h : (l.map ticket).Nodup) {x : α} (hx : x ∈ l) :
    ((l.filter fun y => ticket y ≠ ticket x).map size).sum = (l.map size).sum - size x := by
  induction l with
  | nil => cases hx
  | cons y l ih =>
    rw [List.map_cons, List.nodup_cons] at h
    by_cases hxy : ticket y = ticket x
    · have hrest : ∀ z ∈ l, ticket z ≠ ticket x := by
        intro z hz hzx
        exact h.1 (hxy ▸ hzx ▸ List.mem_map_of_mem hz)
      have hyx : x = y := by
        rcases List.mem_cons.1 hx with hxy' | hx'
        · exact hxy'
        · exact absurd rfl (hrest x hx')
      rw [List.filter_cons_of_neg (by simpa using hxy), remove_of_not_mem hrest, List.map_cons,
        List.sum_cons, hyx]
      ring
    · have hx' : x ∈ l := by
        rcases List.mem_cons.1 hx with rfl | hx'
        · exact absurd rfl hxy
        · exact hx'
      rw [List.filter_cons_of_pos (by simpa using hxy), List.map_cons, List.sum_cons,
        ih h.2 hx', List.map_cons, List.sum_cons]
      ring

theorem length_remove {l : List α} (h : (l.map ticket).Nodup) {x : α} (hx : x ∈ l) :
    ((l.filter fun y => ticket y ≠ ticket x).length : Int) = l.length - 1 := by
  have hsum := sum_remove (fun _ => 1) h hx
  simpa using hsum

theorem nodup_filter {l : List α} (h : (l.map ticket).Nodup) (p : α → Bool) :
    ((l.filter p).map ticket).Nodup :=
  h.sublist (List.filter_sublist.map ticket)

/-- A new ticket behind the old ones. -/
theorem nodup_append_new {l : List α} (h : (l.map ticket).Nodup) {x : α}
    (hx : ∀ y ∈ l, ticket y < ticket x) : ((l ++ [x]).map ticket).Nodup := by
  rw [List.map_append, List.map_singleton, List.nodup_append]
  refine ⟨h, List.nodup_singleton _, ?_⟩
  rintro a ha b hb rfl
  obtain ⟨y, hy, rfl⟩ := List.mem_map.1 ha
  rw [List.mem_singleton] at hb
  exact absurd (hx y hy) (by omega)

end AgentSdk.Tickets
