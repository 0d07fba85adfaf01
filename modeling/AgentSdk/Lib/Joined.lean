import Mathlib.Order.Lattice
import Mathlib.Data.List.Lex

/-!
# Lists joined by a separator

`[z].intercalate xs` with a separator `z` that is below every element of the
parts: the joined lists are ordered as the lists of parts are, and one list of
parts begins with another when the joined lists do, separator included.

## Main results

* `join_inj` — the joined list determines its parts.
* `join_lt` — joined lists are ordered as their parts.
* `join_prefix` — a joined list and a separator begin another joined list
  exactly when the parts properly begin its parts.
* `prefix_of_between` — the extensions of a list are an interval of the order.
-/

namespace AgentSdk.Joined

section Parts

variable {α : Type} {z : α}

theorem join_append {xs ys : List (List α)} (hxs : xs ≠ []) (hys : ys ≠ []) :
    [z].intercalate (xs ++ ys) = [z].intercalate xs ++ z :: [z].intercalate ys := by
  induction xs with
  | nil => exact absurd rfl hxs
  | cons x xs ih =>
    cases xs with
    | nil => simp [List.intercalate_cons_of_ne_nil hys]
    | cons x' xs =>
      have hrest := ih (by simp)
      simp only [List.cons_append] at hrest ⊢
      rw [List.intercalate_cons_cons, List.intercalate_cons_cons, hrest]
      simp

variable [BEq α] [LawfulBEq α]

theorem join_inj {xs ys : List (List α)} (hxs : xs ≠ []) (hys : ys ≠ [])
    (hx : ∀ x ∈ xs, z ∉ x) (hy : ∀ y ∈ ys, z ∉ y)
    (h : [z].intercalate xs = [z].intercalate ys) : xs = ys := by
  have hsplit := congrArg (List.splitOn z) h
  rwa [List.splitOn_intercalate z hx hxs, List.splitOn_intercalate z hy hys] at hsplit

theorem not_mem_of_mem_splitOn {s part : List α} (h : part ∈ s.splitOn z) : z ∉ part := by
  induction s generalizing part with
  | nil => simp_all
  | cons a s ih =>
    rw [List.splitOn_cons_eq_if_modifyHead] at h
    split at h
    · rename_i ha
      rcases List.mem_cons.1 h with rfl | h
      · simp
      · exact ih h
    · rename_i ha
      obtain ⟨head, rest, hsplit⟩ := List.exists_cons_of_ne_nil (List.splitOn_ne_nil z s)
      rw [hsplit] at h ih
      simp only [List.modifyHead_cons, List.mem_cons] at h
      rcases h with rfl | h
      · have hhead := @ih head (by simp)
        intro hz
        rcases List.mem_cons.1 hz with rfl | hz
        · simp at ha
        · exact hhead hz
      · exact ih (by simp [h])

/-- A separator at the end leaves an empty last part. -/
theorem splitOn_snoc (s : List α) : (s ++ [z]).splitOn z = s.splitOn z ++ [[]] := by
  have hjoin : [z].intercalate (s.splitOn z ++ [[]]) = s ++ [z] := by
    rw [join_append (List.splitOn_ne_nil z s) (by simp), List.intercalate_splitOn]
    simp
  rw [← hjoin, List.splitOn_intercalate z _ (by simp)]
  intro part hpart
  rcases List.mem_append.1 hpart with hin | hlast
  · exact not_mem_of_mem_splitOn hin
  · simp [List.mem_singleton.1 hlast]

omit [BEq α] [LawfulBEq α] in
/-- An element of a joined list is the separator or an element of a part. -/
theorem mem_intercalate {parts : List (List α)} {a : α} (ha : a ∈ [z].intercalate parts) :
    a = z ∨ ∃ part ∈ parts, a ∈ part := by
  induction parts with
  | nil => simp at ha
  | cons p parts ih =>
    cases parts with
    | nil => exact .inr ⟨p, by simp, by simpa using ha⟩
    | cons q parts =>
      rw [List.intercalate_cons_cons, List.append_assoc] at ha
      rcases List.mem_append.1 ha with hhere | hlater
      · exact .inr ⟨p, by simp, hhere⟩
      · rcases List.mem_append.1 hlater with hmark | hrest
        · exact .inl (List.mem_singleton.1 hmark)
        · rcases ih hrest with heq | ⟨part, hpart, hin⟩
          · exact .inl heq
          · exact .inr ⟨part, List.mem_cons_of_mem _ hpart, hin⟩

/-- The elements of a part are elements of the whole list. -/
theorem mem_of_mem_splitOn {s part : List α} {a : α} (hpart : part ∈ s.splitOn z)
    (ha : a ∈ part) : a ∈ s := by
  rw [← @List.intercalate_splitOn _ s _ _ z]
  generalize s.splitOn z = parts at hpart
  induction parts with
  | nil => simp at hpart
  | cons p parts ih =>
    cases parts with
    | nil => simp_all
    | cons q parts =>
      rw [List.intercalate_cons_cons]
      rcases List.mem_cons.1 hpart with rfl | hlater
      · simp [ha]
      · exact List.mem_append_right _ (ih hlater)

theorem join_prefix {xs ys : List (List α)} (hxs : xs ≠ []) (hys : ys ≠ [])
    (hx : ∀ x ∈ xs, z ∉ x) (hy : ∀ y ∈ ys, z ∉ y) :
    [z].intercalate xs ++ [z] <+: [z].intercalate ys ↔ xs <+: ys ∧ xs ≠ ys := by
  constructor
  · intro h
    obtain ⟨rest, hrest⟩ := h
    have hjoin : [z].intercalate (xs ++ rest.splitOn z) = [z].intercalate ys := by
      rw [join_append hxs (List.splitOn_ne_nil z rest), List.intercalate_splitOn, ← hrest]
      simp
    have hparts : xs ++ rest.splitOn z = ys := by
      refine join_inj (by simp [hxs]) hys ?_ hy hjoin
      intro part hpart
      rcases List.mem_append.1 hpart with h | h
      · exact hx part h
      · exact not_mem_of_mem_splitOn h
    refine ⟨⟨_, hparts⟩, ?_⟩
    intro heq
    rw [heq] at hparts
    exact List.splitOn_ne_nil z rest (List.append_right_eq_self.1 hparts)
  · rintro ⟨⟨rest, rfl⟩, hne⟩
    have hrest : rest ≠ [] := by
      rintro rfl
      simp at hne
    rw [join_append hxs hrest]
    exact ⟨[z].intercalate rest, by simp⟩

end Parts

section Order

variable {α : Type} {z : α}

/-- What follows the first part of a joined list. -/
def rest (z : α) : List (List α) → List α
  | [] => []
  | part :: parts => z :: [z].intercalate (part :: parts)

theorem join_cons (x : List α) (xs : List (List α)) :
    [z].intercalate (x :: xs) = x ++ rest z xs := by
  cases xs with
  | nil | cons => simp [rest]

theorem rest_head (xs : List (List α)) : ∀ a ∈ (rest z xs).head?, a = z := by
  cases xs <;> simp [rest]

variable [LinearOrder α]

/-- Two parts in front of a separator, or of nothing, decide the order when
they differ. -/
theorem append_rest_lt {x y s t : List α} (hx : ∀ a ∈ x, z < a) (hy : ∀ a ∈ y, z < a)
    (hs : ∀ a ∈ s.head?, a = z) (ht : ∀ a ∈ t.head?, a = z) :
    x ++ s < y ++ t ↔ x < y ∨ x = y ∧ s < t := by
  induction x generalizing y with
  | nil =>
    cases y with
    | nil => simp
    | cons b y =>
      have hb : z < b := hy b (by simp)
      have hfirst : s < b :: (y ++ t) := by
        cases s with
        | nil => exact List.nil_lt_cons b _
        | cons a s =>
          have ha : a = z := hs a (by simp)
          exact List.cons_lt_cons_iff.2 (Or.inl (ha ▸ hb))
      simp [hfirst]
  | cons a x ih =>
    have ha : z < a := hx a (by simp)
    cases y with
    | nil =>
      cases t with
      | nil => simp
      | cons c t =>
        have hc : c = z := ht c (by simp)
        subst hc
        simp [List.cons_lt_cons_iff, not_lt_of_gt ha, ne_of_gt ha]
    | cons b y =>
      have htail := ih (y := y) (fun c hc => hx c (by simp [hc])) (fun c hc => hy c (by simp [hc]))
      simp only [List.cons_append, List.cons_lt_cons_iff, htail, List.cons.injEq]
      tauto

theorem join_lt {xs ys : List (List α)} (hxs : xs ≠ []) (hys : ys ≠ [])
    (hx : ∀ x ∈ xs, ∀ a ∈ x, z < a) (hy : ∀ y ∈ ys, ∀ a ∈ y, z < a) :
    [z].intercalate xs < [z].intercalate ys ↔ xs < ys := by
  induction xs generalizing ys with
  | nil => exact absurd rfl hxs
  | cons x xs ih =>
    cases ys with
    | nil => exact absurd rfl hys
    | cons y ys =>
      have hrest : rest z xs < rest z ys ↔ xs < ys := by
        cases xs with
        | nil => cases ys <;> simp [rest]
        | cons x' xs =>
          cases ys with
          | nil => simp [rest]
          | cons y' ys =>
            have htail := @ih (y' :: ys) (by simp) (by simp)
              (fun p hp => hx p (by simp [hp])) (fun p hp => hy p (by simp [hp]))
            simp only [rest, List.cons_lt_cons_iff, lt_irrefl, false_or, true_and, htail]
      rw [join_cons, join_cons,
        append_rest_lt (hx x (by simp)) (hy y (by simp)) (rest_head xs) (rest_head ys), hrest,
        List.cons_lt_cons_iff]

/-! ### Extensions in order -/

theorem not_lt_of_prefix {a b : List α} (h : a <+: b) : ¬b < a := by
  obtain ⟨t, rfl⟩ := h
  induction a with
  | nil => exact List.not_lt_nil _
  | cons x a ih => simpa [List.cons_lt_cons_iff] using ih

/-- What lies between a list and one of its extensions is an extension. -/
theorem prefix_of_between {a b c : List α} (h : a <+: c) (hab : ¬b < a) (hbc : ¬c < b) :
    a <+: b := by
  induction a generalizing b c with
  | nil => exact List.nil_prefix
  | cons x a ih =>
    obtain ⟨t, rfl⟩ := h
    cases b with
    | nil => exact absurd (List.nil_lt_cons x a) hab
    | cons y b =>
      rw [List.cons_lt_cons_iff, not_or, not_and] at hab
      rw [List.cons_append, List.cons_lt_cons_iff, not_or, not_and] at hbc
      have hxy : x = y := le_antisymm (not_lt.1 hab.1) (not_lt.1 hbc.1)
      subst hxy
      exact (List.cons_prefix_cons).2
        ⟨rfl, ih (List.prefix_append a t) (hab.2 rfl) (hbc.2 rfl)⟩

end Order

end AgentSdk.Joined
