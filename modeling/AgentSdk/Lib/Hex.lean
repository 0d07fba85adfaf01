import AgentSdk.Lib.Json
import AgentSdk.Lib.Radix

/-!
# Hexadecimal text

The spelling of a number in base 16, as `toString(16)` gives it, and the number
that hexadecimal digits of either case spell.

## Main results

* `readHex_hexText` — a spelled number is read back.
* `length_hexText_le`, `readHex_lt` — a number below `16 ^ k` and its digits.
-/

namespace AgentSdk.Text

open AgentSdk.Json

/-- The digits `0` to `9`, `a` to `f` and `A` to `F`. -/
def isHexUnit (u : UInt16) : Bool :=
  isDigit u || (decide (97 ≤ u.toNat) && decide (u.toNat ≤ 102)) ||
    (decide (65 ≤ u.toNat) && decide (u.toNat ≤ 70))

/-- The value of a hexadecimal digit. -/
def hexDigit (u : UInt16) : Nat :=
  if u.toNat ≤ 57 then u.toNat - 48
  else if u.toNat ≤ 70 then u.toNat - 55
  else u.toNat - 87

/-- The number that a run of hexadecimal digits spells. -/
def readHex (digits : JsString) : Nat := digits.foldl (fun n u => n * 16 + hexDigit u) 0

/-- `n.toString(16)` -/
def hexText (n : Nat) : JsString :=
  if n = 0 then [hexUnit 0] else (Nat.digits 16 n).reverse.map hexUnit

theorem toNat_hexUnit {d : Nat} (hd : d < 16) :
    (hexUnit d).toNat = if d < 10 then 48 + d else 87 + d := by
  unfold hexUnit
  split
  · rw [UInt16.toNat_ofNat']
    omega
  · rw [UInt16.toNat_ofNat']
    omega

theorem hexDigit_hexUnit {d : Nat} (hd : d < 16) : hexDigit (hexUnit d) = d := by
  unfold hexDigit
  rw [toNat_hexUnit hd]
  by_cases hten : d < 10
  · rw [if_pos hten, if_pos (by omega)]
    omega
  · rw [if_neg hten, if_neg (by omega), if_neg (by omega)]
    omega

theorem isHexUnit_hexUnit {d : Nat} (hd : d < 16) : isHexUnit (hexUnit d) = true := by
  simp only [isHexUnit, isDigit, toNat_hexUnit hd, Bool.or_eq_true, Bool.and_eq_true,
    decide_eq_true_eq]
  by_cases hten : d < 10
  · rw [if_pos hten]
    omega
  · rw [if_neg hten]
    omega

theorem isHexUnit_of_mem_hexText {n : Nat} {u : UInt16} (hu : u ∈ hexText n) :
    isHexUnit u = true := by
  unfold hexText at hu
  split at hu
  · rw [List.mem_singleton.1 hu]
    exact isHexUnit_hexUnit (by omega)
  · have ⟨d, hd, heq⟩ := List.mem_map.1 hu
    rw [← heq]
    exact isHexUnit_hexUnit (Nat.digits_lt_base (by omega) (List.mem_reverse.1 hd))

theorem hexText_ne_nil (n : Nat) : hexText n ≠ [] := by
  unfold hexText
  split
  · simp
  next hn => simpa using Nat.digits_ne_nil_iff_ne_zero.2 hn

theorem length_hexText_le {n k : Nat} (hk : 0 < k) (h : n < 16 ^ k) :
    (hexText n).length ≤ k := by
  unfold hexText
  split
  · simp only [List.length_singleton]
    omega
  · simpa using (Nat.digits_length_le_iff (by omega) n).2 h

/-- What reversed digits spell. -/
theorem readHex_map (digits : List Nat) (h : ∀ d ∈ digits, d < 16) :
    readHex (digits.reverse.map hexUnit) = Nat.ofDigits 16 digits := by
  induction digits with
  | nil => rfl
  | cons d digits ih =>
    have hd := hexDigit_hexUnit (h d (by simp))
    have hrest := ih fun e he => h e (by simp [he])
    rw [Nat.ofDigits_cons, ← hrest]
    simp only [readHex, List.reverse_cons, List.map_append, List.map_cons, List.map_nil,
      List.foldl_append, List.foldl_cons, List.foldl_nil, hd]
    omega

/-- A spelled number is read back. -/
theorem readHex_hexText (n : Nat) : readHex (hexText n) = n := by
  unfold hexText
  split
  next hn => simp [readHex, hn, hexDigit_hexUnit]
  · rw [readHex_map _ fun d hd => Nat.digits_lt_base (by omega) hd, Nat.ofDigits_digits]

/-! ## Bounds -/

/-- Digits below a base spell a number below its power. -/
theorem foldl_digits_lt {α : Type} {b : Nat} {f : α → Nat} {digits : List α}
    (h : ∀ d ∈ digits, f d < b) (n : Nat) :
    digits.foldl (fun n d => n * b + f d) n < (n + 1) * b ^ digits.length := by
  induction digits generalizing n with
  | nil => simp
  | cons d digits ih =>
    have hd := h d (by simp)
    have hrest := ih (fun e he => h e (by simp [he])) (n * b + f d)
    have hle : n * b + f d + 1 ≤ (n + 1) * b := by
      rw [Nat.add_mul]
      omega
    calc
      digits.foldl (fun n d => n * b + f d) (n * b + f d)
        < (n * b + f d + 1) * b ^ digits.length := hrest
      _ ≤ (n + 1) * b * b ^ digits.length := Nat.mul_le_mul_right _ hle
      _ = (n + 1) * b ^ (d :: digits).length := by
        rw [List.length_cons, Nat.pow_succ, Nat.mul_assoc, Nat.mul_comm b]

theorem hexDigit_lt {u : UInt16} (h : isHexUnit u = true) : hexDigit u < 16 := by
  simp only [isHexUnit, isDigit, Bool.or_eq_true, Bool.and_eq_true, decide_eq_true_eq] at h
  unfold hexDigit
  split
  · omega
  · split
    · omega
    · omega

theorem readHex_lt {digits : JsString} (h : ∀ u ∈ digits, isHexUnit u = true) :
    readHex digits < 16 ^ digits.length := by
  have hlt := foldl_digits_lt (fun u hu => hexDigit_lt (h u hu)) 0
  simpa [readHex] using hlt

end AgentSdk.Text
