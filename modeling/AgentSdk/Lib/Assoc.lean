import Mathlib.Data.List.Nodup

/-!
# Lists of members looked up by their key

The lookup of a key in a list of members, and what it has to do with membership
when no two members share a key.

## Main results

* `lookup_of_mem` — the lookup of a member.
-/

namespace AgentSdk.Assoc

variable {κ β : Type} [BEq κ] [LawfulBEq κ] {l : List (κ × β)} {k : κ} {b : β}

theorem lookup_of_mem (hkeys : (l.map Prod.fst).Nodup) (h : (k, b) ∈ l) : l.lookup k = some b := by
  induction l with
  | nil => cases h
  | cons head rest ih =>
    rw [List.map_cons, List.nodup_cons] at hkeys
    rcases List.mem_cons.1 h with rfl | hin
    · exact List.lookup_cons_self
    · have hother : k ≠ head.1 := fun heq => hkeys.1 (List.mem_map.2 ⟨(k, b), hin, heq⟩)
      have hskip : (k == head.1) = false := by simpa using hother
      rw [List.lookup_cons, hskip]
      exact ih hkeys.2 hin

end AgentSdk.Assoc
