import Mathlib.Data.List.Sort
import Mathlib.Order.Defs.LinearOrder

/-!
# Merging many sorted runs

A merge holds one head for each run and repeats taking the head whose current
element is the least, the first of equals.

## Main results

* `least_eq_some` — the chosen head has a current element below all others.
* `merge_perm` — merging keeps the elements.
* `merge_sorted` — merging sorted runs gives a sorted run.
-/

namespace AgentSdk.Merge

variable {α η : Type} (less : α → α → Bool) (current : η → Option α)

/-- The choice after the heads seen so far, and the heads still to see. -/
def leastFrom (selected : Option (Nat × η × α)) (index : Nat) :
    List η → Option (Nat × η × α)
  | [] => selected
  | head :: heads =>
    match current head with
    | none => leastFrom selected (index + 1) heads
    | some a =>
      if selected.all fun s => less a s.2.2 then
        leastFrom (some (index, head, a)) (index + 1) heads
      else leastFrom selected (index + 1) heads

/-- The first head whose current element is the least. -/
def least (heads : List η) : Option (Nat × η × α) := leastFrom less current none 0 heads

/-- Take least elements, at most so many. -/
def mergeSteps : Nat → List (List α) → List α
  | 0, _ => []
  | n + 1, runs =>
    match least less List.head? runs with
    | none => []
    | some (index, run, a) => a :: mergeSteps n (runs.set index run.tail)

/-- The merged run. -/
def merge (runs : List (List α)) : List α := mergeSteps less runs.flatten.length runs

section Choice

variable {less current}

variable {heads : List η} {choice : Nat × η × α}

theorem leastFrom_none {selected : Option (Nat × η × α)} {index : Nat}
    (h : leastFrom less current selected index heads = none) :
    selected = none ∧ ∀ head ∈ heads, current head = none := by
  induction heads generalizing selected index with
  | nil => exact ⟨h, by simp⟩
  | cons head heads ih =>
    unfold leastFrom at h
    split at h
    · rename_i hcurrent
      obtain ⟨hselected, hrest⟩ := ih h
      exact ⟨hselected, by simpa using ⟨hcurrent, hrest⟩⟩
    · split at h
      · exact absurd (ih h).1 (by simp)
      · rename_i hkeep
        obtain ⟨rfl, _⟩ := ih h
        simp at hkeep

theorem least_eq_none (h : least less current heads = none) :
    ∀ head ∈ heads, current head = none := (leastFrom_none h).2

variable (less current) in
/-- One of the heads `seen`, whose current element no other one is below. -/
def Choice (seen : List η) (choice : Nat × η × α) : Prop :=
  seen[choice.1]? = some choice.2.1 ∧ current choice.2.1 = some choice.2.2 ∧
    ∀ head ∈ seen, ∀ b, current head = some b → less b choice.2.2 = false

theorem Choice.snoc {seen : List η} (h : Choice less current seen choice) {head : η}
    (hhead : ∀ b, current head = some b → less b choice.2.2 = false) :
    Choice less current (seen ++ [head]) choice := by
  refine ⟨?_, h.2.1, ?_⟩
  · rw [List.getElem?_append_left (List.getElem?_eq_some_iff.1 h.1).1]
    exact h.1
  · intro other hother
    rcases List.mem_append.1 hother with hseen | hlast
    · exact h.2.2 other hseen
    · rw [List.mem_singleton.1 hlast]
      exact hhead

theorem leastFrom_choice (htrans : ∀ a b c, less a b = true → less b c = true → less a c = true)
    (hirrefl : ∀ a, less a a = false) (seen : List η) (selected : Option (Nat × η × α))
    (hnone : selected = none → ∀ head ∈ seen, current head = none)
    (hsome : ∀ choice, selected = some choice → Choice less current seen choice)
    (h : leastFrom less current selected seen.length heads = some choice) :
    Choice less current (seen ++ heads) choice := by
  induction heads generalizing seen selected with
  | nil => simpa using hsome choice h
  | cons head heads ih =>
    have hnext : (seen ++ [head]).length = seen.length + 1 := by simp
    rw [show seen ++ head :: heads = seen ++ [head] ++ heads by simp]
    unfold leastFrom at h
    split at h
    · rename_i hcurrent
      rw [← hnext] at h
      refine ih _ _ ?_ ?_ h
      · intro hempty other hother
        rcases List.mem_append.1 hother with hseen | hlast
        · exact hnone hempty other hseen
        · rwa [List.mem_singleton.1 hlast]
      · intro c hc
        exact (hsome c hc).snoc (by simp [hcurrent])
    · rename_i a hcurrent
      rw [← hnext] at h
      split at h
      · -- The new head is taken: what was above the old choice is above it.
        rename_i htake
        refine ih _ _ (by simp) ?_ h
        intro c hc
        obtain rfl := Option.some.inj hc
        refine ⟨by simp, hcurrent, ?_⟩
        intro other hother b hb
        rcases List.mem_append.1 hother with hseen | hlast
        · cases selected with
          | none => simp [hnone rfl other hseen] at hb
          | some old =>
            have hold := (hsome old rfl).2.2 other hseen b hb
            by_contra hless
            have hlt : less a old.2.2 = true := by simpa using htake
            rw [htrans b a old.2.2 (by simpa using hless) hlt] at hold
            exact Bool.noConfusion hold
        · rw [List.mem_singleton.1 hlast, hcurrent] at hb
          obtain rfl := Option.some.inj hb
          exact hirrefl a
      · rename_i hkeep
        cases selected with
        | none => simp at hkeep
        | some old =>
          refine ih _ _ (by simp) ?_ h
          intro c hc
          obtain rfl := Option.some.inj hc
          refine (hsome old rfl).snoc ?_
          intro b hb
          rw [hcurrent] at hb
          obtain rfl := Option.some.inj hb
          simpa using hkeep

theorem least_eq_some (htrans : ∀ a b c, less a b = true → less b c = true → less a c = true)
    (hirrefl : ∀ a, less a a = false) (h : least less current heads = some choice) :
    Choice less current heads choice := by
  have hchoice := leastFrom_choice htrans hirrefl [] none (by simp)
    (by simp) h
  simpa using hchoice

/-- Heads with the same current elements are chosen alike. -/
theorem least_map {η' : Type} {current' : η' → Option α} (f : η → η')
    (hf : ∀ head ∈ heads, current' (f head) = current head) :
    least less current' (heads.map f) =
      (least less current heads).map fun choice => (choice.1, f choice.2.1, choice.2.2) := by
  have hfrom : ∀ (selected : Option (Nat × η × α)) (index : Nat),
      leastFrom less current'
          (selected.map fun choice => (choice.1, f choice.2.1, choice.2.2)) index (heads.map f) =
        (leastFrom less current selected index heads).map fun choice =>
          (choice.1, f choice.2.1, choice.2.2) := by
    induction heads with
    | nil => intro selected index; rfl
    | cons head heads ih =>
      have htail := ih fun other hother => hf other (by simp [hother])
      intro selected index
      simp only [List.map_cons, leastFrom, hf head (by simp)]
      cases current head with
      | none => exact htail selected (index + 1)
      | some a =>
        dsimp only
        have hall : ((selected.map fun choice => (choice.1, f choice.2.1, choice.2.2)).all
            fun s => less a s.2.2) = selected.all fun s => less a s.2.2 := by
          cases selected <;> rfl
        rw [hall]
        split
        · exact htail (some (index, head, a)) (index + 1)
        · exact htail selected (index + 1)
  exact hfrom none 0

end Choice

section Result

variable {less} {κ : Type} [LinearOrder κ] {key : α → κ}
  (hless : ∀ a b, less a b = true ↔ key a < key b)
include hless

theorem choice_of_least {current : η → Option α} {heads : List η} {choice : Nat × η × α}
    (h : least less current heads = some choice) : Choice less current heads choice := by
  refine least_eq_some ?_ ?_ h
  · intro a b c hab hbc
    exact (hless a c).2 (lt_trans ((hless a b).1 hab) ((hless b c).1 hbc))
  · intro a
    rw [Bool.eq_false_iff]
    exact fun h => lt_irrefl _ ((hless a a).1 h)

variable {runs : List (List α)}

omit hless in
/-- Taking the head of one run away leaves the other elements. -/
theorem flatten_set_tail {index : Nat} {run : List α} {a : α} (hrun : runs[index]? = some run)
    (ha : run.head? = some a) : runs.flatten.Perm (a :: (runs.set index run.tail).flatten) := by
  obtain ⟨hindex, hget⟩ := List.getElem?_eq_some_iff.1 hrun
  obtain ⟨rest, rfl⟩ : ∃ rest, run = a :: rest := List.head?_eq_some_iff.1 ha
  have hsplit := List.take_append_drop index runs
  rw [List.drop_eq_getElem_cons hindex, hget] at hsplit
  rw [List.set_eq_take_append_cons_drop, if_pos hindex]
  nth_rewrite 1 [← hsplit]
  simp only [List.flatten_append, List.flatten_cons, List.tail_cons, List.cons_append]
  exact List.perm_middle

theorem mergeSteps_perm {n : Nat} (hn : runs.flatten.length = n) :
    (mergeSteps less n runs).Perm runs.flatten := by
  induction n generalizing runs with
  | zero =>
    rw [List.length_eq_zero_iff.1 hn]
    exact List.Perm.refl _
  | succ n ih =>
    unfold mergeSteps
    split
    · rename_i hleast
      have hempty : runs.flatten = [] := by
        rw [List.flatten_eq_nil_iff]
        intro run hrun
        simpa using least_eq_none hleast run hrun
      rw [hempty]
    · rename_i index run a hleast
      obtain ⟨hget, hhead, _⟩ := choice_of_least hless hleast
      have htake := flatten_set_tail hget hhead
      have hlength := htake.length_eq
      rw [List.length_cons, hn] at hlength
      exact ((ih (Nat.succ.inj hlength).symm).cons a).trans htake.symm

/-- Merging keeps the elements. -/
theorem merge_perm (runs : List (List α)) : (merge less runs).Perm runs.flatten :=
  mergeSteps_perm hless rfl

theorem mergeSteps_sorted {n : Nat} (hn : runs.flatten.length = n)
    (hsorted : ∀ run ∈ runs, run.Pairwise fun a b => key a ≤ key b) :
    (mergeSteps less n runs).Pairwise fun a b => key a ≤ key b := by
  induction n generalizing runs with
  | zero => exact List.Pairwise.nil
  | succ n ih =>
    unfold mergeSteps
    split
    · exact List.Pairwise.nil
    · rename_i index run a hleast
      obtain ⟨hget, hhead, hmin⟩ := choice_of_least hless hleast
      have htake := flatten_set_tail hget hhead
      have hlength := htake.length_eq
      rw [List.length_cons, hn] at hlength
      have hrun : run ∈ runs := List.mem_of_getElem? hget
      have hrest : ∀ r ∈ runs.set index run.tail, r.Pairwise fun a b => key a ≤ key b := by
        intro r hr
        rcases List.mem_or_eq_of_mem_set hr with hold | rfl
        · exact hsorted r hold
        · exact (hsorted run hrun).tail
      refine List.Pairwise.cons ?_ (ih (Nat.succ.inj hlength).symm hrest)
      -- Every other element is behind the head of its run, which is not below `a`.
      intro b hb
      have hb' := (mergeSteps_perm hless (Nat.succ.inj hlength).symm).mem_iff.1 hb
      have hball : b ∈ runs.flatten := htake.mem_iff.2 (List.mem_cons_of_mem a hb')
      obtain ⟨r, hr, hbr⟩ := List.mem_flatten.1 hball
      cases r with
      | nil => simp at hbr
      | cons c r =>
        have hc : ¬key c < key a := by
          rw [← hless, hmin (c :: r) hr c rfl]
          exact Bool.false_ne_true
        rcases List.mem_cons.1 hbr with rfl | hbr
        · exact not_lt.1 hc
        · exact le_trans (not_lt.1 hc) (List.rel_of_pairwise_cons (hsorted _ hr) hbr)

/-- Merging sorted runs gives a sorted run. -/
theorem merge_sorted (hsorted : ∀ run ∈ runs, run.Pairwise fun a b => key a ≤ key b) :
    (merge less runs).Pairwise fun a b => key a ≤ key b :=
  mergeSteps_sorted hless rfl hsorted

end Result

end AgentSdk.Merge
