import AgentSdk.Delegation.Identity
import AgentSdk.Lib.Bisect
import AgentSdk.Lib.CodePoints

/-!
# Texts that fit a budget

Texts are cut to a prefix of code points for which a record still fits its budget.
The cut is found by bisection, and the budget is measured on canonical JSON.

## Main results

* `delegationDataBytes_eq` — the measure of a shallow record of at most 1 MiB.
* `fitDelegationText_spec` — the cut is the longest prefix that fits.
-/

namespace AgentSdk.Delegation

open AgentSdk.Text AgentSdk.Outcome AgentSdk.Bisect

/-- The longest prefix of code points for which a predicate of texts holds. -/
def fitDelegationText (text : JsString) (fits : JsString → Result Bool) : Result JsString := do
  if ← fits text then pure text
  else
    let characters := characters text
    let low ← bisect (fun middle => fits (characters.take middle).flatten) 0 characters.length
    pure (characters.take low).flatten

/-- `p` is the longest prefix of code points of `text` that has room; it is empty
when not even the empty text has. -/
structure Longest (room : JsString → Prop) (text p : JsString) : Prop where
  isCharPrefix : IsCharPrefix p text
  fits : p = [] ∨ room p
  longest : ∀ q, IsCharPrefix q text → room q → q.length ≤ p.length

theorem Longest.eq_of_room {room : JsString → Prop} {text p : JsString}
    (h : Longest room text p) (hroom : room text) : p = text :=
  h.isCharPrefix.isPrefix.eq_of_length_le (h.longest text (.refl text) hroom)

/-- **The cut is the longest prefix that fits**, for a budget that every prefix of a
fitting text meets. -/
theorem fitDelegationText_spec {text : JsString} {fits : JsString → Result Bool}
    {room : JsString → Prop} [DecidablePred room]
    (hfits : ∀ q, IsCharPrefix q text → fits q = .ok (decide (room q)))
    (mono : ∀ p q, IsCharPrefix p q → IsCharPrefix q text → room q → room p) :
    ∃ p, fitDelegationText text fits = .ok p ∧ Longest room text p := by
  unfold fitDelegationText
  by_cases hroom : room text
  · refine ⟨text, ?_, .refl text, .inr hroom, fun q hq _ => hq.isPrefix.length_le⟩
    simp [hfits text (.refl text), hroom]
  · have hpart : ∀ n, IsCharPrefix ((characters text).take n).flatten text := isCharPrefix_take text
    have hmono : ∀ m n, m ≤ n → n ≤ (characters text).length →
        room ((characters text).take n).flatten → room ((characters text).take m).flatten := by
      intro m n hmn _ hn
      have htake := isCharPrefix_take ((characters text).take n).flatten m
      rw [characters_take, List.take_take, Nat.min_eq_left hmn] at htake
      exact mono _ _ htake (hpart n) hn
    obtain ⟨low, hlow, hlast⟩ : ∃ low,
        bisect (fun middle => fits ((characters text).take middle).flatten) 0
          (characters text).length = .ok low ∧
        Last (fun middle => room ((characters text).take middle).flatten) 0
          (characters text).length low :=
      bisect_ok (Nat.zero_le _) (fun n _ _ => hfits _ (hpart n)) hmono
    refine ⟨((characters text).take low).flatten, ?_, hpart low, ?_, fun q hq hyes => ?_⟩
    · simp only [hfits text (.refl text), hroom, decide_false, ok_bind, Bool.false_eq_true,
        if_false, hlow]
      rfl
    · rcases hlast.fits with hzero | hyes
      · subst hzero
        exact .inl rfl
      · exact .inr hyes
    · rw [hq.eq_take] at hyes ⊢
      have hshort : (characters q).length ≤ low := by
        by_contra hlong
        exact hlast.above _ (by omega) hq.length_le hyes
      have htake := isCharPrefix_take ((characters text).take low).flatten (characters q).length
      rw [characters_take, List.take_take, Nat.min_eq_left hshort] at htake
      exact htake.isPrefix.length_le

/-! ## The measure -/

theorem delegationDataBytes_eq {v : Json} (hshallow : shallow 16 v = true)
    (hbytes : Json.jsonBytes v ≤ DELEGATION_DOCUMENT_BYTES) :
    delegationDataBytes v = .ok (Json.jsonBytes v) := by
  have hcopy : copyBoundedDelegationData v = .ok () :=
    copyBoundedDelegationData_eq_ok.2 ⟨hshallow, hbytes⟩
  simp only [delegationDataBytes, hcopy, ok_bind, Json.canonicalBytes_eq, pure_eq_ok]

theorem delegationDataBytes_ok {v : Json} {n : Nat} (h : delegationDataBytes v = .ok n) :
    shallow 16 v = true ∧ Json.jsonBytes v ≤ DELEGATION_DOCUMENT_BYTES ∧ n = Json.jsonBytes v := by
  unfold delegationDataBytes at h
  obtain ⟨u, hcopy, h⟩ := bind_eq_ok.1 h
  obtain ⟨hshallow, hbytes⟩ := copyBoundedDelegationData_eq_ok.1 hcopy
  rw [Json.canonicalBytes_eq] at h
  cases h
  exact ⟨hshallow, hbytes, rfl⟩

end AgentSdk.Delegation
