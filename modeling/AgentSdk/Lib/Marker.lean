import Mathlib.Data.List.Infix

/-!
# The first occurrence of a marker

A text is cut behind the first occurrence of a marker.  The cut depends on the
text up to there alone: more text behind it changes only what is left over.

## Main results

* `cutAfter_eq_some` — the cut is the shortest beginning that ends in the marker.
-/

namespace AgentSdk.Marker

variable {α : Type}

/-- The shortest beginning of a text that ends in a marker. -/
structure Heads (mark head text : List α) : Prop where
  starts : head <+: text
  ends : mark <:+ head
  first : ∀ other, other <+: text → mark <:+ other → head.length ≤ other.length

/-- Text that arrives later leaves the beginning alone. -/
theorem Heads.append {mark head text : List α} (h : Heads mark head text) (more : List α) :
    Heads mark head (text ++ more) where
  starts := h.starts.trans (List.prefix_append text more)
  ends := h.ends
  first := by
    intro other hother hends
    by_cases hlong : head.length ≤ other.length
    · exact hlong
    · have hinside : other <+: text :=
        (List.prefix_of_prefix_length_le hother
          (h.starts.trans (List.prefix_append text more)) (by omega)).trans h.starts
      exact h.first other hinside hends

/-- A beginning that ends in the marker at the front is at least the marker. -/
theorem heads_of_prefix {mark text : List α} (h : mark <+: text) : Heads mark mark text where
  starts := h
  ends := List.suffix_refl mark
  first := fun _ _ hends => hends.length_le

theorem suffix_of_suffix_cons {mark other : List α} {x : α} {text : List α}
    (hno : ¬mark <+: x :: text) (hstart : x :: other <+: x :: text) (h : mark <:+ x :: other) :
    mark <:+ other := by
  rcases List.suffix_cons_iff.1 h with heq | h
  · exact absurd (heq ▸ hstart) hno
  · exact h

variable [DecidableEq α]

/-- The text up to and with the first marker, and the rest. -/
def cutAfter (mark : List α) : List α → Option (List α × List α)
  | [] => if mark = [] then some ([], []) else none
  | x :: s =>
    if mark <+: x :: s then some ((x :: s).take mark.length, (x :: s).drop mark.length)
    else (cutAfter mark s).map fun cut => (x :: cut.1, cut.2)

theorem cutAfter_eq_some {mark text head rest : List α}
    (h : cutAfter mark text = some (head, rest)) :
    text = head ++ rest ∧ Heads mark head text := by
  induction text generalizing head with
  | nil =>
    simp only [cutAfter, Option.ite_none_right_eq_some, Option.some.injEq, Prod.mk.injEq] at h
    have ⟨hmark, hhead, hrest⟩ := h
    subst hmark hhead hrest
    exact ⟨rfl, heads_of_prefix (List.prefix_refl [])⟩
  | cons x text ih =>
    rw [cutAfter] at h
    by_cases hmark : mark <+: x :: text
    · rw [if_pos hmark] at h
      simp only [Option.some.injEq, Prod.mk.injEq] at h
      have hhead : mark = head := (List.prefix_iff_eq_take.1 hmark).trans h.1
      refine ⟨?_, hhead ▸ heads_of_prefix hmark⟩
      rw [← h.1, ← h.2, List.take_append_drop]
    · rw [if_neg hmark, Option.map_eq_some_iff] at h
      have ⟨cut, hcut, heq⟩ := h
      simp only [Prod.mk.injEq] at heq
      have hrest : cutAfter mark text = some (cut.1, rest) := by rw [hcut, ← heq.2]
      have ⟨htext, hheads⟩ := ih hrest
      rw [← heq.1]
      refine ⟨congrArg (x :: ·) htext, List.cons_prefix_cons.2 ⟨rfl, hheads.starts⟩,
        hheads.ends.trans (List.suffix_cons x cut.1), ?_⟩
      intro other hother hends
      cases other with
      | nil =>
        rw [List.suffix_nil] at hends
        exact absurd (hends ▸ List.nil_prefix) hmark
      | cons y other =>
        have ⟨hsame, hinside⟩ := List.cons_prefix_cons.1 hother
        subst hsame
        have hlength := hheads.first other hinside (suffix_of_suffix_cons hmark hother hends)
        simp only [List.length_cons]
        omega

end AgentSdk.Marker
