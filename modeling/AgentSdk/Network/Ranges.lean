import AgentSdk.Lib.Blocks
import AgentSdk.Lib.Maximal
import AgentSdk.Lib.Outcome
import AgentSdk.Network.Address

/-!
# Ranges of addresses

A range is written as an address and the number of bits that it fixes; the other
bits of the address are cleared.  Ranges are the blocks of their family's numbers,
so containing a range is containing its addresses.

## Main results

* `parseRange_iff` — the ranges that are read, and what they cover.
* `parse_formatRange` — a formatted range is read back.
* `contains_iff_covers` — one range contains another when it covers its addresses.
-/

namespace AgentSdk.Network

open AgentSdk.Text AgentSdk.Outcome AgentSdk.Blocks

/-! ## Ranges -/

/-- The addresses of a family that begin with the first `prefixLength` bits of `address`. -/
@[ext] structure Range where
  family : AddressFamily
  prefixLength : Nat
  address : Nat
  fits : prefixLength ≤ addressWidth family
  small : address < 2 ^ addressWidth family
  cleared : address / 2 ^ (addressWidth family - prefixLength) *
    2 ^ (addressWidth family - prefixLength) = address
  deriving DecidableEq

def prefixMask (family : AddressFamily) (prefixLength : Nat) : Nat :=
  ((1 <<< addressWidth family) - 1) ^^^ ((1 <<< (addressWidth family - prefixLength)) - 1)

theorem and_prefixMask {family : AddressFamily} (prefixLength : Nat) {address : Nat}
    (h : address < 2 ^ addressWidth family) :
    address &&& prefixMask family prefixLength =
      address / 2 ^ (addressWidth family - prefixLength) *
        2 ^ (addressWidth family - prefixLength) :=
  and_mask (by omega) h

/-- The range of the addresses that share their first bits with one address. -/
def rangeOf (family : AddressFamily) (prefixLength value : Nat)
    (fits : prefixLength ≤ addressWidth family) (small : value < 2 ^ addressWidth family) :
    Range where
  family
  prefixLength
  address := value &&& prefixMask family prefixLength
  fits
  small := Nat.lt_of_le_of_lt Nat.and_le_left small
  cleared := by
    rw [and_prefixMask prefixLength small,
      Nat.mul_div_cancel _ (Nat.two_pow_pos _)]

/-- `/^(0|[1-9][0-9]*)$/` -/
def isPrefixText (digits : JsString) : Bool :=
  digits == [48] || (decide (digits ≠ []) && digits.all isDigit && decide (digits.head? ≠ some 48))

def parseRange (cidr : JsString) : Except String Range :=
  let parts := cidr.splitOn 47
  match hparsed : parseNumericAddress (parts.headD []), parts[1]?, parts[2]? with
  | some parsed, some rawPrefix, none =>
    if isPrefixText rawPrefix = true then
      if fits : readRadix 10 rawPrefix ≤ addressWidth parsed.family then
        .ok (rangeOf parsed.family (readRadix 10 rawPrefix) parsed.value fits
          (parseNumericAddress_iff.1 hparsed).lt)
      else .error "Invalid egress exclusion prefix."
    else .error "Invalid egress exclusion CIDR."
  | _, _, _ => .error "Invalid egress exclusion CIDR."

def contains (outer inner : Range) : Bool :=
  outer.family == inner.family && decide (outer.prefixLength ≤ inner.prefixLength) &&
    (inner.address &&& prefixMask outer.family outer.prefixLength) == outer.address

def formatRange (range : Range) : JsString :=
  formatNumericAddress range.address range.family ++ 47 :: natDecimal range.prefixLength

/-! ## What a range covers -/

/-- The addresses of a range. -/
def Range.Covers (range : Range) (family : AddressFamily) (value : Nat) : Prop :=
  range.family = family ∧
    value / 2 ^ (addressWidth family - range.prefixLength) =
      range.address / 2 ^ (addressWidth family - range.prefixLength)

/-- What a range in text covers: the addresses that share the first bits of its address. -/
def CidrCovers (cidr : JsString) (family : AddressFamily) (value : Nat) : Prop :=
  ∃ address base prefixLength, cidr = address ++ 47 :: natDecimal prefixLength ∧
    IpLiteral address family base ∧ prefixLength ≤ addressWidth family ∧
    value / 2 ^ (addressWidth family - prefixLength) =
      base / 2 ^ (addressWidth family - prefixLength)

variable {range outer inner : Range} {cidr : JsString} {family : AddressFamily} {value : Nat}

theorem isPrefixText_iff {digits : JsString} :
    isPrefixText digits = true ↔ digits = natDecimal (readRadix 10 digits) := by
  simp only [isPrefixText, Bool.or_eq_true, beq_iff_eq, Bool.and_eq_true, decide_eq_true_eq,
    List.all_eq_true]
  constructor
  · intro h
    rcases h with hzero | ⟨⟨hne, hdigits⟩, hhead⟩
    · rw [hzero]
      decide
    · exact (natDecimal_readRadix hne hdigits hhead).symm
  · intro h
    generalize readRadix 10 digits = n at h
    subst h
    by_cases hn : n = 0
    · left
      rw [hn]
      decide
    · exact .inr ⟨⟨natDecimal_ne_nil n, fun u hu => isDigit_of_mem_natDecimal hu⟩,
        head?_natDecimal hn⟩

theorem slash_not_mem {text : JsString} (h : IpLiteral text family value) :
    (47 : UInt16) ∉ text := by
  cases family with
  | ipv4 => exact Ipv4Literal.not_mem h (by decide) (by decide)
  | ipv6 =>
    have ⟨words, hliteral, _⟩ := h
    intro hmem
    rcases hliteral.units.2 47 hmem with hhex | heq | heq
    · exact absurd hhex (by decide)
    · cases heq
    · cases heq

/-- **The ranges that are read**: a literal, a slash and the number of its fixed bits. -/
theorem parseRange_iff : parseRange cidr = .ok range ↔
    ∃ address base, cidr = address ++ 47 :: natDecimal range.prefixLength ∧
      IpLiteral address range.family base ∧
      range.address = base &&& prefixMask range.family range.prefixLength := by
  unfold parseRange
  dsimp only
  constructor
  · intro h
    split at h
    next parsed rawPrefix hparsed hprefix hextra =>
      split at h
      next htext =>
        split at h
        next fits =>
          have hrange := Except.ok.inj h
          have hjoin : [47].intercalate (cidr.splitOn 47) = cidr := List.intercalate_splitOn 47
          have hparts : cidr.splitOn 47 = [(cidr.splitOn 47).headD [], rawPrefix] := by
            match hsplit : cidr.splitOn 47 with
            | [] => rw [hsplit] at hprefix; cases hprefix
            | [a] => rw [hsplit] at hprefix; cases hprefix
            | [a, b] =>
              rw [hsplit] at hprefix
              simpa using hprefix
            | a :: b :: c :: rest => rw [hsplit] at hextra; cases hextra
          rw [hparts, List.intercalate_cons_cons, List.intercalate_singleton,
            isPrefixText_iff.1 htext] at hjoin
          refine ⟨(cidr.splitOn 47).headD [], parsed.value, ?_, ?_, ?_⟩
          · rw [← hrange]
            rw [List.append_assoc] at hjoin
            exact hjoin.symm
          · rw [← hrange]
            exact parseNumericAddress_iff.1 hparsed
          · rw [← hrange]
            rfl
        · cases h
      · cases h
    · cases h
  · rintro ⟨address, base, hcidr, hliteral, haddress⟩
    have hsplit : cidr.splitOn 47 = [address, natDecimal range.prefixLength] := by
      rw [hcidr, List.splitOn_append_cons_self_of_not_mem (slash_not_mem hliteral),
        List.splitOn_eq_singleton]
      intro hmem
      have hno := isDigit_of_mem_natDecimal hmem
      revert hno
      decide
    have hparsed := parseNumericAddress_iff.2 hliteral
    have hread := readRadix_natDecimal range.prefixLength
    split
    next parsed rawPrefix hfound hprefix hextra =>
      rw [hsplit] at hfound hprefix
      have hsame : parsed = ⟨range.family, base⟩ := Option.some.inj (hfound.symm.trans hparsed)
      have hraw : natDecimal range.prefixLength = rawPrefix := Option.some.inj hprefix
      subst hsame hraw
      rw [if_pos (isPrefixText_iff.2 (by rw [hread]))]
      have hfits : readRadix 10 (natDecimal range.prefixLength) ≤ addressWidth range.family := by
        rw [hread]
        exact range.fits
      rw [dif_pos hfits]
      refine congrArg Except.ok (Range.ext rfl hread ?_)
      show base &&& prefixMask range.family (readRadix 10 (natDecimal range.prefixLength)) = _
      rw [hread, haddress]
    next hno =>
      exact (hno ⟨range.family, base⟩ (natDecimal range.prefixLength)
        (by rw [hsplit]; exact hparsed) (by rw [hsplit]; rfl) (by rw [hsplit]; rfl)).elim

/-- **A formatted range is read back.** -/
theorem parse_formatRange (range : Range) : parseRange (formatRange range) = .ok range := by
  refine parseRange_iff.2 ⟨formatNumericAddress range.address range.family, range.address, rfl,
    parseNumericAddress_iff.1 (parse_formatNumericAddress range.small), ?_⟩
  rw [and_prefixMask range.prefixLength range.small, range.cleared]

theorem formatRange_inj (h : formatRange inner = formatRange outer) : inner = outer := by
  have hread := parse_formatRange inner
  rw [h, parse_formatRange] at hread
  exact (Except.ok.inj hread).symm

/-- Masking a number leaves what its range covers. -/
theorem rangeOf_covers {prefixLength base : Nat} {fits : prefixLength ≤ addressWidth family}
    {small : base < 2 ^ addressWidth family} {other : AddressFamily} :
    (rangeOf family prefixLength base fits small).Covers other value ↔ family = other ∧
      value / 2 ^ (addressWidth family - prefixLength) =
        base / 2 ^ (addressWidth family - prefixLength) := by
  have hquotient : (base &&& prefixMask family prefixLength) /
      2 ^ (addressWidth family - prefixLength) =
        base / 2 ^ (addressWidth family - prefixLength) := by
    rw [and_prefixMask prefixLength small, Nat.mul_div_cancel _ (Nat.two_pow_pos _)]
  unfold Range.Covers rangeOf
  constructor
  · rintro ⟨hfamily, hvalue⟩
    have hsame : family = other := hfamily
    subst hsame
    exact ⟨rfl, hvalue.trans hquotient⟩
  · rintro ⟨hfamily, hvalue⟩
    subst hfamily
    exact ⟨rfl, hvalue.trans hquotient.symm⟩

/-- A range in text covers what the range that is read covers. -/
theorem cidrCovers_iff (h : parseRange cidr = .ok range) :
    CidrCovers cidr family value ↔ range.Covers family value := by
  constructor
  · rintro ⟨address, base, prefixLength, hcidr, hliteral, hfits, hvalue⟩
    have hread : parseRange cidr = .ok (rangeOf family prefixLength base hfits hliteral.lt) :=
      parseRange_iff.2 ⟨address, base, hcidr, hliteral, rfl⟩
    rw [h] at hread
    rw [Except.ok.inj hread]
    exact rangeOf_covers.2 ⟨rfl, hvalue⟩
  · rintro ⟨hfamily, hvalue⟩
    subst hfamily
    have ⟨address, base, hcidr, hliteral, haddress⟩ := parseRange_iff.1 h
    refine ⟨address, base, range.prefixLength, hcidr, hliteral, range.fits, ?_⟩
    rw [hvalue, haddress, and_prefixMask _ hliteral.lt, Nat.mul_div_cancel _ (Nat.two_pow_pos _)]

/-! ## Containment -/

theorem contains_iff : contains outer inner = true ↔
    outer.family = inner.family ∧ outer.prefixLength ≤ inner.prefixLength ∧
      inner.address / 2 ^ (addressWidth outer.family - outer.prefixLength) =
        outer.address / 2 ^ (addressWidth outer.family - outer.prefixLength) := by
  simp only [contains, Bool.and_eq_true, beq_iff_eq, decide_eq_true_eq, and_assoc]
  refine and_congr_right fun hfamily => and_congr_right fun _ => ?_
  have hpos := Nat.two_pow_pos (addressWidth outer.family - outer.prefixLength)
  rw [and_prefixMask _ (hfamily ▸ inner.small)]
  constructor
  · intro h
    rw [← h, Nat.mul_div_cancel _ hpos]
  · intro h
    rw [h, outer.cleared]

/-- **One range contains another when it covers its addresses.** -/
theorem contains_iff_covers : contains outer inner = true ↔
    ∀ family value, inner.Covers family value → outer.Covers family value := by
  rw [contains_iff]
  constructor
  · rintro ⟨hfamily, hle, haddress⟩ family value ⟨hinner, hvalue⟩
    have hsubset : ∀ x, x / 2 ^ (addressWidth family - inner.prefixLength) =
        inner.address / 2 ^ (addressWidth family - inner.prefixLength) →
        x / 2 ^ (addressWidth family - outer.prefixLength) =
          outer.address / 2 ^ (addressWidth family - outer.prefixLength) := by
      refine block_subset_iff.2 ⟨by omega, ?_⟩
      rw [← hinner, ← hfamily]
      exact haddress
    exact ⟨hfamily.trans hinner, hsubset value hvalue⟩
  · intro h
    have hself := h inner.family inner.address ⟨rfl, rfl⟩
    have hfamily := hself.1
    have hsubset := block_subset_iff.1 fun x hx => (h inner.family x ⟨rfl, hx⟩).2
    have hinner := inner.fits
    have houter := outer.fits
    rw [hfamily] at houter
    refine ⟨hfamily, by omega, ?_⟩
    rw [hfamily]
    exact hsubset.2

/-- Ranges that contain each other are the same. -/
theorem contains_antisymm (h : contains outer inner = true) (h' : contains inner outer = true) :
    outer = inner := by
  have ⟨hfamily, hle, haddress⟩ := contains_iff.1 h
  have ⟨_, hge, _⟩ := contains_iff.1 h'
  have hlength : outer.prefixLength = inner.prefixLength := by omega
  refine Range.ext hfamily hlength ?_
  have hclear := inner.cleared
  rw [← hfamily, ← hlength, haddress, outer.cleared] at hclear
  exact hclear

theorem contains_covering : Maximal.Covering contains where
  refl range := contains_iff.2 ⟨rfl, le_refl _, rfl⟩
  trans a b c hab hbc := by
    rw [contains_iff_covers] at hab hbc ⊢
    exact fun family value h => hab family value (hbc family value h)
  antisymm a b := contains_antisymm

/-- The range of one address. -/
def hostRange (family : AddressFamily) (value : Nat) (small : value < 2 ^ addressWidth family) :
    Range where
  family
  prefixLength := addressWidth family
  address := value
  fits := le_refl _
  small
  cleared := by simp

theorem contains_hostRange {small : value < 2 ^ addressWidth family} :
    contains range (hostRange family value small) = true ↔ range.Covers family value := by
  rw [contains_iff]
  constructor
  · rintro ⟨hfamily, _, haddress⟩
    have hsame : range.family = family := hfamily
    subst hsame
    exact ⟨rfl, haddress⟩
  · rintro ⟨hfamily, hvalue⟩
    subst hfamily
    exact ⟨rfl, range.fits, hvalue⟩

end AgentSdk.Network
