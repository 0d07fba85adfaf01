import AgentSdk.Lib.Text

/-!
# Numbers spelled in a base up to ten

The digits of a number as text, most significant first, and what a run of
digits spells.

## Main results

* `readRadix_radix` — a spelled number is read back.
* `natDecimal_readRadix` — digits without a zero in front are the spelling of
  their number.
* `readRadix_padStart` — zeros in front change nothing.
* `length_radix_le_iff` — a number below a power takes that many digits.
-/

namespace AgentSdk.Text

/-- The digits of a number in base `b`, the most significant first. -/
def radix (b n : Nat) : JsString :=
  if n = 0 then [digitUnit 0] else (Nat.digits b n).reverse.map digitUnit

/-- The number that a run of digits spells in base `b`. -/
def readRadix (b : Nat) (digits : JsString) : Nat :=
  digits.foldl (fun n u => n * b + (u.toNat - 48)) 0

/-- Text filled up with zeros in front. -/
def padStart (k : Nat) (digits : JsString) : JsString :=
  List.replicate (k - digits.length) (digitUnit 0) ++ digits

@[simp] theorem radix_ten (n : Nat) : radix 10 n = natDecimal n := rfl

/-- A digit of base `b`. -/
def isRadixDigit (b : Nat) (u : UInt16) : Bool := decide (48 ≤ u.toNat) && decide (u.toNat < 48 + b)

variable {b k n : Nat} {u : UInt16} {digits : JsString}

theorem isRadixDigit_digitUnit {d : Nat} (hb : b ≤ 10) (hd : d < b) :
    isRadixDigit b (digitUnit d) = true := by
  simp only [isRadixDigit, toNat_digitUnit (show d < 10 by omega), Bool.and_eq_true,
    decide_eq_true_eq]
  omega

theorem isRadixDigit_of_mem_radix (hb : 2 ≤ b) (hten : b ≤ 10) (hu : u ∈ radix b n) :
    isRadixDigit b u = true := by
  unfold radix at hu
  split at hu
  · rw [List.mem_singleton.1 hu]
    exact isRadixDigit_digitUnit hten (by omega)
  · obtain ⟨d, hd, rfl⟩ := List.mem_map.1 hu
    exact isRadixDigit_digitUnit hten (Nat.digits_lt_base (by omega) (List.mem_reverse.1 hd))

theorem radix_ne_nil : radix b n ≠ [] := by
  unfold radix
  split
  · simp
  · rename_i hn
    simpa using Nat.digits_ne_nil_iff_ne_zero.2 hn

theorem readRadix_append (b : Nat) (s t : JsString) :
    readRadix b (s ++ t) = t.foldl (fun n u => n * b + (u.toNat - 48)) (readRadix b s) := by
  simp [readRadix]

/-- What reversed digits spell. -/
theorem readRadix_map (digits : List Nat) (h : ∀ d ∈ digits, d < 10) :
    readRadix b (digits.reverse.map digitUnit) = Nat.ofDigits b digits := by
  induction digits with
  | nil => rfl
  | cons d digits ih =>
    have hd : (digitUnit d).toNat - 48 = d := by
      rw [toNat_digitUnit (h d (by simp))]
      omega
    rw [List.reverse_cons, List.map_append, readRadix_append,
      ih fun e he => h e (by simp [he]), Nat.ofDigits_cons]
    simp [hd]
    ring

/-- A spelled number is read back. -/
theorem readRadix_radix (hb : 2 ≤ b) (hten : b ≤ 10) (n : Nat) : readRadix b (radix b n) = n := by
  unfold radix
  split
  · rename_i hn
    simp [readRadix, hn, toNat_digitUnit]
  · rw [readRadix_map _ fun d hd =>
      (Nat.digits_lt_base (by omega) hd).trans_le hten, Nat.ofDigits_digits]

theorem digitUnit_of_isDigit (h : isDigit u = true) : digitUnit (u.toNat - 48) = u := by
  simp only [isDigit, Bool.and_eq_true, decide_eq_true_eq] at h
  apply UInt16.toNat_inj.1
  rw [toNat_digitUnit (by omega)]
  omega

/-- Digits without a zero in front are the spelling of their number. -/
theorem natDecimal_readRadix (hne : digits ≠ []) (hdigits : ∀ u ∈ digits, isDigit u = true)
    (hhead : digits.head? ≠ some 48) : natDecimal (readRadix 10 digits) = digits := by
  have hlt : ∀ d ∈ (digits.map fun u => u.toNat - 48).reverse, d < 10 := by
    intro d hd
    have ⟨u, hu, heq⟩ := List.mem_map.1 (List.mem_reverse.1 hd)
    have hdigit := hdigits u hu
    simp only [isDigit, Bool.and_eq_true, decide_eq_true_eq] at hdigit
    omega
  have hspell : (digits.map fun u => u.toNat - 48).reverse.reverse.map digitUnit = digits := by
    rw [List.reverse_reverse, List.map_map]
    calc
      digits.map (digitUnit ∘ fun u => u.toNat - 48) = digits.map id :=
        List.map_congr_left fun u hu => digitUnit_of_isDigit (hdigits u hu)
      _ = digits := List.map_id digits
  cases digits with
  | nil => exact absurd rfl hne
  | cons first rest =>
    have hfirst : first.toNat - 48 ≠ 0 := by
      have hdigit := hdigits first (by simp)
      simp only [isDigit, Bool.and_eq_true, decide_eq_true_eq] at hdigit
      intro hzero
      refine hhead (congrArg some (UInt16.toNat_inj.1 ?_))
      show first.toNat = 48
      omega
    have hcanonical := Nat.digits_ofDigits 10 (by omega) _ hlt fun hne => by
      rw [List.getLast_reverse]
      simpa using hfirst
    have hread := readRadix_map (b := 10) _ hlt
    rw [hspell] at hread
    have hpos : Nat.ofDigits 10 ((first :: rest).map fun u => u.toNat - 48).reverse ≠ 0 := by
      intro hzero
      rw [hzero, Nat.digits_zero] at hcanonical
      simp at hcanonical
    rw [natDecimal, hread, if_neg hpos, hcanonical, hspell]

/-- A spelling has no zero in front. -/
theorem head?_natDecimal (hn : n ≠ 0) : (natDecimal n).head? ≠ some 48 := by
  have hlast := Nat.getLast_digit_ne_zero 10 hn
  have hnil : Nat.digits 10 n ≠ [] := Nat.digits_ne_nil_iff_ne_zero.2 hn
  have hten := Nat.digits_lt_base (by omega : 1 < 10) (List.getLast_mem hnil)
  rw [natDecimal, if_neg hn, List.head?_map, List.head?_reverse,
    List.getLast?_eq_some_getLast hnil]
  intro heq
  have hunit := toNat_digitUnit hten
  rw [Option.some.inj heq] at hunit
  have hzero : (48 : UInt16).toNat = 48 := rfl
  omega

/-- Zeros in front change nothing. -/
theorem readRadix_padStart (b k : Nat) (digits : JsString) :
    readRadix b (padStart k digits) = readRadix b digits := by
  rw [padStart, readRadix_append]
  have hzeros : readRadix b (List.replicate (k - digits.length) (digitUnit 0)) = 0 := by
    induction k - digits.length with
    | zero => rfl
    | succ n ih =>
      rw [List.replicate_succ', readRadix_append, ih]
      simp [toNat_digitUnit]
  rw [hzeros]
  rfl

/-- A number below a power of the base takes that many digits. -/
theorem length_radix_le_iff (hb : 2 ≤ b) (hk : 0 < k) : (radix b n).length ≤ k ↔ n < b ^ k := by
  unfold radix
  split
  · rename_i hn
    simp only [List.length_singleton, hn]
    exact ⟨fun _ => Nat.pow_pos (by omega), fun _ => hk⟩
  · simpa using Nat.digits_length_le_iff (by omega) n

theorem length_padStart (h : digits.length ≤ k) : (padStart k digits).length = k := by
  simp [padStart]
  omega

theorem isRadixDigit_of_mem_padStart (hb : 0 < b) (hten : b ≤ 10)
    (h : ∀ u ∈ digits, isRadixDigit b u = true) :
    ∀ u ∈ padStart k digits, isRadixDigit b u = true := by
  intro u hu
  rcases List.mem_append.1 hu with hzero | hdigit
  · rw [(List.mem_replicate.1 hzero).2]
    exact isRadixDigit_digitUnit hten hb
  · exact h u hdigit

theorem lt_of_isRadixDigit (hten : b ≤ 10) (h : isRadixDigit b u = true) : u.toNat < 0x80 := by
  simp only [isRadixDigit, Bool.and_eq_true, decide_eq_true_eq] at h
  omega

end AgentSdk.Text
