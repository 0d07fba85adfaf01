import AgentSdk.Lib.Text

/-!
# Character classes of case-insensitive patterns

The code units that `\w` and `\s` stand for in a pattern with the flags `iu`, and
the folding under which such a pattern compares letters: the Kelvin sign and the
long s fold onto ASCII letters, and no other unit outside ASCII does.

## Main results

* `toNat_foldCase` — what folding does to a unit.
-/

namespace AgentSdk

namespace Text

/-- Simple case folding onto the ASCII letters, the Kelvin sign and the long s included. -/
def foldCase (unit : UInt16) : UInt16 :=
  if 65 ≤ unit.toNat ∧ unit.toNat ≤ 90 then unit + 32
  else if unit = 0x212A then 107
  else if unit = 0x017F then 115
  else unit

/-- The class `\w`. -/
def isWordUnit (unit : UInt16) : Bool :=
  decide (48 ≤ unit.toNat ∧ unit.toNat ≤ 57) || decide (65 ≤ unit.toNat ∧ unit.toNat ≤ 90) ||
    decide (97 ≤ unit.toNat ∧ unit.toNat ≤ 122) || decide (unit = 95) ||
    decide (unit = 0x017F) || decide (unit = 0x212A)

/-- The class `\s`. -/
def isSpaceUnit (unit : UInt16) : Bool :=
  decide (9 ≤ unit.toNat ∧ unit.toNat ≤ 13) || decide (unit = 32) || decide (unit = 0xA0) ||
    decide (unit = 0x1680) || decide (0x2000 ≤ unit.toNat ∧ unit.toNat ≤ 0x200A) ||
    decide (unit = 0x2028) || decide (unit = 0x2029) || decide (unit = 0x202F) ||
    decide (unit = 0x205F) || decide (unit = 0x3000) || decide (unit = 0xFEFF)

theorem toNat_foldCase (unit : UInt16) :
    (65 ≤ unit.toNat ∧ unit.toNat ≤ 90 ∧ (foldCase unit).toNat = unit.toNat + 32) ∨
      (unit = 0x212A ∧ foldCase unit = 107) ∨ (unit = 0x017F ∧ foldCase unit = 115) ∨
      (¬(65 ≤ unit.toNat ∧ unit.toNat ≤ 90) ∧ unit ≠ 0x212A ∧ unit ≠ 0x017F ∧
        foldCase unit = unit) := by
  unfold foldCase
  by_cases hupper : 65 ≤ unit.toNat ∧ unit.toNat ≤ 90
  · refine .inl ⟨hupper.1, hupper.2, ?_⟩
    rw [if_pos hupper, UInt16.toNat_add]
    have hthirty : (32 : UInt16).toNat = 32 := rfl
    rw [hthirty]
    exact Nat.mod_eq_of_lt (by omega)
  · rw [if_neg hupper]
    by_cases hkelvin : unit = 0x212A
    · exact .inr (.inl ⟨hkelvin, if_pos hkelvin⟩)
    · rw [if_neg hkelvin]
      by_cases hlong : unit = 0x017F
      · exact .inr (.inr (.inl ⟨hlong, if_pos hlong⟩))
      · exact .inr (.inr (.inr ⟨hupper, hkelvin, hlong, if_neg hlong⟩))

end Text

end AgentSdk
