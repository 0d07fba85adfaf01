import Mathlib.Data.List.Perm.Basic
import Mathlib.Data.List.Pairwise

/-!
# The uncovered elements of a list

From a list whose elements cover each other, keep those that nothing kept before
covers.  When no element covers an earlier one, this keeps exactly the elements
that no other one covers: an antichain that depends on the elements alone.

## Main results

* `mem_keep` — which elements are kept.
* `keep_antichain` — no kept element covers another.
* `keep_covers` — every element is covered by a kept one.
* `keep_perm` — lists with the same elements keep the same ones.
-/

namespace AgentSdk.Maximal

variable {α : Type} (covers : α → α → Bool)

/-- `for (const x of xs) if (!kept.some(y => covers(y, x))) kept.push(x)` -/
def keepFrom (kept : List α) : List α → List α
  | [] => kept
  | x :: xs => if kept.any (covers · x) = true then keepFrom kept xs else keepFrom (kept ++ [x]) xs

attribute [grind =] keepFrom

/-- The elements that nothing kept before covers. -/
def keep (xs : List α) : List α := keepFrom covers [] xs

/-- Covering is a partial order. -/
structure Covering : Prop where
  refl : ∀ a, covers a a = true
  trans : ∀ a b c, covers a b = true → covers b c = true → covers a c = true
  antisymm : ∀ a b, covers a b = true → covers b a = true → a = b

variable {covers} {kept xs ys : List α} {x y : α}

theorem mem_of_mem_keepFrom (h : x ∈ keepFrom covers kept xs) : x ∈ kept ∨ x ∈ xs := by
  induction xs generalizing kept with
  | nil => exact .inl h
  | cons y xs ih =>
    rw [keepFrom] at h
    split at h
    · rcases ih h with hkept | hlater
      · exact .inl hkept
      · exact .inr (.tail y hlater)
    · rcases ih h with hkept | hlater
      · rcases List.mem_append.1 hkept with hold | hnew
        · exact .inl hold
        · exact .inr (List.mem_singleton.1 hnew ▸ .head xs)
      · exact .inr (.tail y hlater)

theorem mem_keepFrom_of_mem (h : x ∈ kept) : x ∈ keepFrom covers kept xs := by
  induction xs generalizing kept with
  | nil => exact h
  | cons y xs ih =>
    rw [keepFrom]
    split
    · exact ih h
    · exact ih (List.mem_append_left [y] h)

/-- Every element is covered by what has been kept. -/
theorem keepFrom_covers (hc : Covering covers) (h : x ∈ kept ∨ x ∈ xs) :
    ∃ y ∈ keepFrom covers kept xs, covers y x = true := by
  induction xs generalizing kept with
  | nil =>
    rcases h with hkept | hno
    · exact ⟨x, hkept, hc.refl x⟩
    · cases hno
  | cons z xs ih =>
    rw [keepFrom]
    split
    next hcovered =>
      have ⟨y, hy, hcover⟩ := List.any_eq_true.1 hcovered
      rcases h with hkept | hhere
      · exact ih (.inl hkept)
      · cases hhere with
        | head => exact ⟨y, mem_keepFrom_of_mem hy, hcover⟩
        | tail _ hlater => exact ih (.inr hlater)
    · rcases h with hkept | hhere
      · exact ih (.inl (List.mem_append_left [z] hkept))
      · cases hhere with
        | head => exact ih (.inl (by simp))
        | tail _ hlater => exact ih (.inr hlater)

/-- Kept elements do not cover each other, when none covers an earlier one. -/
theorem keepFrom_antichain
    (hkept : kept.Pairwise fun a b => covers a b = false ∧ covers b a = false)
    (horder : (kept ++ xs).Pairwise fun a b => covers b a = true → a = b) :
    (keepFrom covers kept xs).Pairwise fun a b => covers a b = false ∧ covers b a = false := by
  induction xs generalizing kept with
  | nil => exact hkept
  | cons x xs ih =>
    rw [keepFrom]
    split
    · refine ih hkept (horder.sublist ?_)
      exact (List.Sublist.refl kept).append (List.sublist_cons_self x xs)
    next hfresh =>
      have huncovered : ∀ a ∈ kept, covers a x = false := by
        intro a ha
        by_contra hcover
        exact hfresh (List.any_eq_true.2 ⟨a, ha, by simpa using hcover⟩)
      refine ih ?_ (by simpa using horder)
      rw [List.pairwise_append]
      refine ⟨hkept, List.pairwise_singleton .., fun a ha b hb => ?_⟩
      rw [List.mem_singleton.1 hb]
      refine ⟨huncovered a ha, ?_⟩
      by_contra hback
      have hsame : a = x := by
        have hcross := (List.pairwise_append.1 horder).2.2 a ha x (by simp)
        exact hcross (by simpa using hback)
      have hno := huncovered a ha
      rw [hsame] at hno hback
      exact hback hno

/-- **Kept elements do not cover each other.** -/
theorem keep_antichain (h : xs.Pairwise fun a b => covers b a = true → a = b) :
    (keep covers xs).Pairwise fun a b => covers a b = false ∧ covers b a = false :=
  keepFrom_antichain .nil h

/-- **Every element is covered by a kept one.** -/
theorem keep_covers (hc : Covering covers) (h : x ∈ xs) :
    ∃ y ∈ keep covers xs, covers y x = true := keepFrom_covers hc (.inr h)

theorem mem_of_mem_keep (h : x ∈ keep covers xs) : x ∈ xs := by
  rcases mem_of_mem_keepFrom h with hno | hmem
  · cases hno
  · exact hmem

theorem eq_of_keep_covers (h : xs.Pairwise fun a b => covers b a = true → a = b)
    (hx : x ∈ keep covers xs) (hy : y ∈ keep covers xs) (hcover : covers x y = true) : x = y := by
  by_contra hne
  have hsymm : Std.Symm fun a b => covers a b = false ∧ covers b a = false :=
    ⟨fun a b hab => ⟨hab.2, hab.1⟩⟩
  have hno := (keep_antichain h).forall hx hy hne
  rw [hcover] at hno
  exact Bool.noConfusion hno.1

/-- **Which elements are kept**: those that no other one covers. -/
theorem mem_keep (hc : Covering covers) (h : xs.Pairwise fun a b => covers b a = true → a = b) :
    x ∈ keep covers xs ↔ x ∈ xs ∧ ∀ y ∈ xs, covers y x = true → y = x := by
  constructor
  · intro hx
    refine ⟨mem_of_mem_keep hx, fun y hy hcover => ?_⟩
    have ⟨z, hz, hzy⟩ := keep_covers hc hy
    have hzx := eq_of_keep_covers h hz hx (hc.trans z y x hzy hcover)
    subst hzx
    exact hc.antisymm y z hcover hzy
  · rintro ⟨hx, hmax⟩
    have ⟨y, hy, hcover⟩ := keep_covers hc hx
    exact hmax y (mem_of_mem_keep hy) hcover ▸ hy

theorem keep_nodup (hc : Covering covers)
    (h : xs.Pairwise fun a b => covers b a = true → a = b) : (keep covers xs).Nodup := by
  refine (keep_antichain h).imp fun {a b} hab heq => ?_
  have hself := hc.refl a
  rw [heq] at hab hself
  rw [hab.1] at hself
  exact Bool.noConfusion hself

/-- **Lists with the same elements keep the same ones.** -/
theorem keep_perm (hc : Covering covers) (h : xs.Pairwise fun a b => covers b a = true → a = b)
    (h' : ys.Pairwise fun a b => covers b a = true → a = b) (hsame : ∀ x, x ∈ xs ↔ x ∈ ys) :
    (keep covers xs).Perm (keep covers ys) := by
  rw [List.perm_ext_iff_of_nodup (keep_nodup hc h) (keep_nodup hc h')]
  intro x
  rw [mem_keep hc h, mem_keep hc h', hsame]
  simp only [hsame]

/-- A list that covers another one and comes from it keeps the same elements. -/
theorem keep_idem (hc : Covering covers) (h : xs.Pairwise fun a b => covers b a = true → a = b)
    (h' : ys.Pairwise fun a b => covers b a = true → a = b) (hkept : ∀ x ∈ keep covers xs, x ∈ ys)
    (hsub : ∀ y ∈ ys, y ∈ xs) : (keep covers ys).Perm (keep covers xs) := by
  rw [List.perm_ext_iff_of_nodup (keep_nodup hc h') (keep_nodup hc h)]
  intro x
  constructor
  · intro hx
    have ⟨y, hy, hcover⟩ := keep_covers hc (hsub x (mem_of_mem_keep hx))
    have hsame := ((mem_keep hc h').1 hx).2 y (hkept y hy) hcover
    exact hsame ▸ hy
  · intro hx
    have hmax := ((mem_keep hc h).1 hx).2
    exact (mem_keep hc h').2 ⟨hkept x hx, fun y hy hcover => hmax y (hsub y hy) hcover⟩

end AgentSdk.Maximal
