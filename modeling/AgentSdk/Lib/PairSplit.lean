import Mathlib.Data.List.Basic

/-!
# Lists split at a pair

`s.split("ab")` for a mark of two elements: the parts between its occurrences,
found from the left without overlap.

## Main results

* `intercalate_splitPair` — the parts joined by the mark give the list back.
* `splitPair_intercalate` — parts without the first element of the mark are
  found again.
-/

namespace AgentSdk.PairSplit

variable {α : Type} [DecidableEq α] {a b : α}

/-- The parts of a list between the occurrences of `a, b`. -/
def splitPair (a b : α) : List α → List (List α)
  | [] => [[]]
  | [x] => [[x]]
  | x :: y :: rest =>
    if x = a ∧ y = b then [] :: splitPair a b rest
    else (splitPair a b (y :: rest)).modifyHead (List.cons x)

theorem splitPair_ne_nil (s : List α) : splitPair a b s ≠ [] := by
  match s with
  | [] => simp [splitPair]
  | [x] => simp [splitPair]
  | x :: y :: rest =>
    have ih := splitPair_ne_nil (y :: rest)
    unfold splitPair
    split
    · simp
    · simpa using ih

omit [DecidableEq α] in
theorem intercalate_cons_head (mark : List α) (x : α) {parts : List (List α)} (h : parts ≠ []) :
    mark.intercalate (parts.modifyHead (List.cons x)) = x :: mark.intercalate parts := by
  cases parts with
  | nil => exact absurd rfl h
  | cons part parts =>
    cases parts with
    | nil => simp
    | cons next parts => simp [List.intercalate_cons_cons]

theorem intercalate_splitPair (s : List α) : [a, b].intercalate (splitPair a b s) = s := by
  match s with
  | [] => simp [splitPair]
  | [x] => simp [splitPair]
  | x :: y :: rest =>
    have hrest := intercalate_splitPair rest
    have hnext := intercalate_splitPair (y :: rest)
    unfold splitPair
    split
    next hmark =>
      rw [List.intercalate_cons_of_ne_nil (splitPair_ne_nil rest), hrest, hmark.1, hmark.2]
      rfl
    · rw [intercalate_cons_head _ _ (splitPair_ne_nil _), hnext]

/-- A part without the mark's first element is passed over. -/
theorem splitPair_append {part : List α} (h : a ∉ part) (s : List α) :
    splitPair a b (part ++ s) = (splitPair a b s).modifyHead (part ++ ·) := by
  induction part with
  | nil =>
    cases hparts : splitPair a b s with
    | nil => exact absurd hparts (splitPair_ne_nil s)
    | cons head tail => simp [hparts]
  | cons x part ih =>
    have hx : x ≠ a := fun heq => h (heq ▸ List.mem_cons_self)
    have hpart := ih fun hmem => h (List.mem_cons_of_mem _ hmem)
    have hcons : splitPair a b (x :: (part ++ s)) =
        (splitPair a b (part ++ s)).modifyHead (List.cons x) := by
      cases part ++ s with
      | nil => simp [splitPair]
      | cons y rest => rw [splitPair, if_neg fun hmark => hx hmark.1]
    rw [List.cons_append, hcons, hpart]
    cases splitPair a b s with
    | nil | cons => rfl

theorem splitPair_of_not_mem {part : List α} (h : a ∉ part) : splitPair a b part = [part] := by
  have hsplit := splitPair_append (b := b) h []
  simpa [splitPair] using hsplit

theorem splitPair_intercalate {parts : List (List α)} (hne : parts ≠ [])
    (h : ∀ part ∈ parts, a ∉ part) : splitPair a b ([a, b].intercalate parts) = parts := by
  induction parts with
  | nil => exact absurd rfl hne
  | cons part rest ih =>
    have hpart := h part (by simp)
    cases rest with
    | nil => simpa using splitPair_of_not_mem (b := b) hpart
    | cons next rest =>
      have hrest := ih (by simp) fun part hmem => h part (List.mem_cons_of_mem _ hmem)
      rw [List.intercalate_cons_cons, List.append_assoc, splitPair_append hpart]
      have hmark : splitPair a b ([a, b] ++ [a, b].intercalate (next :: rest)) =
          [] :: splitPair a b ([a, b].intercalate (next :: rest)) := by
        show splitPair a b (a :: b :: _) = _
        rw [splitPair, if_pos ⟨rfl, rfl⟩]
        rfl
      rw [hmark, hrest]
      simp

end AgentSdk.PairSplit
