import Mathlib.Logic.Nontrivial.Basic

/-!
# Criteria on facts that may be unknown

A fact is certified or unknown, and a criterion asks for one value or for nothing.
The verdict of a criterion is what is known about it: it is met, it is not met, or it
depends on the fact.  The verdict of several criteria is that of their conjunction.

The reference is the set of completions: the values that a fact may turn out to have.
A verdict is exact when it says of all of them whether the criterion is met.

## Main results

* `Fact.verdict_exact` — the verdict of a criterion on a fact.
* `Verdict.Exact.and` — the verdict of a conjunction.
-/

namespace AgentSdk.Partial

/-- What is known of a value. -/
inductive Fact (α : Type)
  | certified (value : α)
  | unknown
  deriving DecidableEq

variable {α β : Type}

/-- A value that the fact may turn out to have. -/
def Fact.Completes : Fact α → α → Prop
  | .certified known, value => value = known
  | .unknown, _ => True

/-- A criterion is met by a value: it asks for nothing, or for this value. -/
def Asks (criterion : Option α) (value : α) : Prop := ∀ wanted ∈ criterion, value = wanted

/-- What is known of a criterion. -/
inductive Verdict
  | met
  | failed
  | open_
  deriving DecidableEq

/-- The verdict of a conjunction. -/
def Verdict.and : Verdict → Verdict → Verdict
  | .failed, _ => .failed
  | _, .failed => .failed
  | .met, .met => .met
  | _, _ => .open_

/-- The verdict of a criterion on a fact. -/
def Fact.verdict [DecidableEq α] (fact : Fact α) (criterion : Option α) : Verdict :=
  match criterion, fact with
  | none, _ => .met
  | some wanted, .certified value => if value = wanted then .met else .failed
  | some _, .unknown => .open_

/-- A verdict is exact for the completions that meet a criterion: it is met by all of
them, by none of them, or by some and not by others. -/
structure Verdict.Exact (verdict : Verdict) (completes meets : α → Prop) : Prop where
  met : verdict = .met → ∀ value, completes value → meets value
  failed : verdict = .failed → ∀ value, completes value → ¬meets value
  some_ : verdict ≠ .failed → ∃ value, completes value ∧ meets value
  other : verdict ≠ .met → ∃ value, completes value ∧ ¬meets value

theorem Verdict.Exact.met_iff {verdict : Verdict} {completes meets : α → Prop}
    (h : verdict.Exact completes meets) :
    verdict = .met ↔ ∀ value, completes value → meets value := by
  refine ⟨h.met, fun hall => ?_⟩
  by_contra hnot
  obtain ⟨value, hvalue, hfails⟩ := h.other hnot
  exact hfails (hall value hvalue)

theorem Verdict.Exact.failed_iff {verdict : Verdict} {completes meets : α → Prop}
    (h : verdict.Exact completes meets) :
    verdict = .failed ↔ ∀ value, completes value → ¬meets value := by
  refine ⟨h.failed, fun hnone => ?_⟩
  by_contra hnot
  obtain ⟨value, hvalue, hmeets⟩ := h.some_ hnot
  exact hnone value hvalue hmeets

/-- There is a completion. -/
theorem Verdict.Exact.completable {verdict : Verdict} {completes meets : α → Prop}
    (h : verdict.Exact completes meets) : ∃ value, completes value := by
  by_cases hfailed : verdict = .failed
  · obtain ⟨value, hvalue, -⟩ := h.other (by rw [hfailed]; decide)
    exact ⟨value, hvalue⟩
  · obtain ⟨value, hvalue, -⟩ := h.some_ hfailed
    exact ⟨value, hvalue⟩

/-- **The verdict of a criterion on a fact is exact**: a value that is unknown may be
the one that is asked for, and it may be another one. -/
theorem Fact.verdict_exact [DecidableEq α] [Nontrivial α] (fact : Fact α) (criterion : Option α) :
    (fact.verdict criterion).Exact fact.Completes (Asks criterion) := by
  have hany : ∃ value, fact.Completes value := by
    cases fact with
    | certified value => exact ⟨value, rfl⟩
    | unknown => exact ⟨Classical.choice inferInstance, trivial⟩
  cases criterion with
  | none =>
    obtain ⟨value, hvalue⟩ := hany
    refine ⟨fun _ _ _ wanted hwanted => ?_, fun hfailed => ?_, fun _ => ⟨value, hvalue, ?_⟩,
      fun hnot => absurd rfl hnot⟩
    · cases hwanted
    · cases hfailed
    · intro wanted hwanted
      cases hwanted
  | some wanted =>
    cases fact with
    | certified known =>
      by_cases hsame : known = wanted
      · have hmet : (Fact.certified known).verdict (some wanted) = .met := if_pos hsame
        rw [hmet]
        have hasks : Asks (some wanted) known := fun other hother => by
          cases hother
          exact hsame
        refine ⟨fun _ value hvalue => ?_, fun hfailed => absurd hfailed (by decide),
          fun _ => ⟨known, rfl, hasks⟩, fun hnot => absurd rfl hnot⟩
        rw [show value = known from hvalue]
        exact hasks
      · have hfailed : (Fact.certified known).verdict (some wanted) = .failed := if_neg hsame
        rw [hfailed]
        have hfails : ¬Asks (some wanted) known := fun hasks => hsame (hasks wanted rfl)
        refine ⟨fun hmet => absurd hmet (by decide), fun _ value hvalue => ?_,
          fun hnot => absurd rfl hnot, fun _ => ⟨known, rfl, hfails⟩⟩
        rw [show value = known from hvalue]
        exact hfails
    | unknown =>
      obtain ⟨other, hother⟩ := exists_ne wanted
      have hopen : (Fact.unknown : Fact α).verdict (some wanted) = .open_ := rfl
      rw [hopen]
      refine ⟨fun hmet => absurd hmet (by decide), fun hfailed => absurd hfailed (by decide),
        fun _ => ⟨wanted, trivial, fun asked hasked => ?_⟩,
        fun _ => ⟨other, trivial, fun hasks => hother (hasks wanted rfl)⟩⟩
      cases hasked
      rfl

/-- **The verdict of a conjunction is exact**, for facts that do not depend on each
other. -/
theorem Verdict.Exact.and {left right : Verdict} {completes meets : α → Prop}
    {completes' meets' : β → Prop} (hleft : left.Exact completes meets)
    (hright : right.Exact completes' meets') :
    (left.and right).Exact (fun pair : α × β => completes pair.1 ∧ completes' pair.2)
      fun pair => meets pair.1 ∧ meets' pair.2 := by
  obtain ⟨a, ha⟩ := hleft.completable
  obtain ⟨b, hb⟩ := hright.completable
  refine ⟨fun hmet pair hpair => ?_, fun hfailed pair hpair hmeets => ?_, fun hnot => ?_,
    fun hnot => ?_⟩
  · have hboth : left = .met ∧ right = .met := by
      cases left <;> cases right <;> simp_all [Verdict.and]
    exact ⟨hleft.met hboth.1 pair.1 hpair.1, hright.met hboth.2 pair.2 hpair.2⟩
  · have hone : left = .failed ∨ right = .failed := by
      cases left <;> cases right <;> simp_all [Verdict.and]
    rcases hone with hl | hr
    · exact hleft.failed hl pair.1 hpair.1 hmeets.1
    · exact hright.failed hr pair.2 hpair.2 hmeets.2
  · have hneither : left ≠ .failed ∧ right ≠ .failed := by
      cases left <;> cases right <;> simp_all [Verdict.and]
    obtain ⟨x, hx, hmeets⟩ := hleft.some_ hneither.1
    obtain ⟨y, hy, hmeets'⟩ := hright.some_ hneither.2
    exact ⟨(x, y), ⟨hx, hy⟩, hmeets, hmeets'⟩
  · have hone : left ≠ .met ∨ right ≠ .met := by
      cases left <;> cases right <;> simp_all [Verdict.and]
    rcases hone with hl | hr
    · obtain ⟨x, hx, hfails⟩ := hleft.other hl
      exact ⟨(x, b), ⟨hx, hb⟩, fun hmeets => hfails hmeets.1⟩
    · obtain ⟨y, hy, hfails⟩ := hright.other hr
      exact ⟨(a, y), ⟨ha, hy⟩, fun hmeets => hfails hmeets.2⟩

end AgentSdk.Partial
