import Mathlib.Data.Nat.Digits.Lemmas
import Mathlib.Data.List.Basic

/-!
# UTF-16 text and its UTF-8 size

A JavaScript string is a finite sequence of UTF-16 code units; surrogates need
not be paired.  This module fixes that representation, the number of bytes a
text encoder writes for such a string, and the decimal spelling of an integer.

Everything here is independent of any program: a development about JSON text,
frames or byte limits can start from it.

## Main results

* `utf8Length_append` — the encoded size is additive behind a prefix whose
  surrogates are all paired.
* `length_le_utf8Length` — a code unit takes at least one byte.
* `decimal_append_inj` — a decimal followed by a non-digit can be read back.
-/

namespace AgentSdk.Text

/-! ## Strings -/

/-- A JavaScript string: its UTF-16 code units. -/
abbrev JsString := List UInt16

/-- Membership in a list of strings is decided with the equality of strings. -/
instance jsStringLawfulBEq : LawfulBEq JsString := inferInstance

/-- The code units of one Unicode scalar value. -/
def encodeChar (c : Char) : JsString :=
  if c.toNat < 0x10000 then [UInt16.ofNat c.toNat]
  else
    [UInt16.ofNat (0xD800 + (c.toNat - 0x10000) / 0x400),
     UInt16.ofNat (0xDC00 + (c.toNat - 0x10000) % 0x400)]

/-- A string literal as the program's runtime holds it. -/
def js (text : String) : JsString := text.toList.flatMap encodeChar

/-- A check of a string, unit by unit: unlike a bounded quantifier it evaluates
along the string, not over all code units. -/
theorem forall_of_all {p : UInt16 → Prop} [DecidablePred p] {s : JsString}
    (h : s.all (fun u => decide (p u)) = true) : ∀ u ∈ s, p u :=
  fun u hu => of_decide_eq_true (List.all_eq_true.1 h u hu)

/-- The high half of a surrogate pair. -/
def isHighSurrogate (u : UInt16) : Bool :=
  decide (0xD800 ≤ u.toNat) && decide (u.toNat ≤ 0xDBFF)

/-- The low half of a surrogate pair. -/
def isLowSurrogate (u : UInt16) : Bool :=
  decide (0xDC00 ≤ u.toNat) && decide (u.toNat ≤ 0xDFFF)

/-- A code unit of either kind. -/
def isSurrogate (u : UInt16) : Bool :=
  decide (0xD800 ≤ u.toNat) && decide (u.toNat ≤ 0xDFFF)

/-! ## The size of the UTF-8 encoding -/

/-- Bytes written for a code unit that is not half of a pair.  A lone
surrogate is replaced by U+FFFD, which takes three bytes as well. -/
def unitBytes (u : UInt16) : Nat :=
  if u.toNat < 0x80 then 1 else if u.toNat < 0x800 then 2 else 3

/-- The number of bytes a text encoder writes for a string. -/
def utf8Length : JsString → Nat
  | [] => 0
  | [u] => unitBytes u
  | u :: v :: rest =>
    if isHighSurrogate u && isLowSurrogate v then 4 + utf8Length rest
    else unitBytes u + utf8Length (v :: rest)

/-- Every surrogate of the string is half of a pair. -/
def wellFormed : JsString → Bool
  | [] => true
  | [u] => !isSurrogate u
  | u :: v :: rest =>
    if isHighSurrogate u && isLowSurrogate v then wellFormed rest
    else !isSurrogate u && wellFormed (v :: rest)

attribute [grind =] wellFormed utf8Length

theorem unitBytes_pos (u : UInt16) : 1 ≤ unitBytes u := by
  unfold unitBytes
  split
  · omega
  · split <;> omega

theorem unitBytes_le (u : UInt16) : unitBytes u ≤ 3 := by
  unfold unitBytes
  split
  · omega
  · split <;> omega

theorem isSurrogate_of_high {u : UInt16} (h : isHighSurrogate u = true) :
    isSurrogate u = true := by
  simp only [isHighSurrogate, isSurrogate, Bool.and_eq_true,
    decide_eq_true_eq] at h ⊢
  omega

/-- A code unit that is no surrogate is encoded on its own, whatever follows. -/
theorem utf8Length_cons_of_not_surrogate {u : UInt16} (s : JsString)
    (hu : isSurrogate u = false) :
    utf8Length (u :: s) = unitBytes u + utf8Length s := by
  have hHigh : isHighSurrogate u = false := by
    by_contra h
    have hs := isSurrogate_of_high (Bool.not_eq_false _ ▸ h)
    rw [hs] at hu
    exact Bool.noConfusion hu
  cases s with
  | nil => simp [utf8Length]
  | cons v rest => simp [utf8Length, hHigh]

/-- The encoded size is additive behind a well-formed prefix: no pair can
straddle the boundary. -/
theorem utf8Length_append (a b : JsString) (ha : wellFormed a = true) :
    utf8Length (a ++ b) = utf8Length a + utf8Length b := by
  induction a using wellFormed.induct with
  | case1 => simp [utf8Length]
  | case2 u =>
    have hu : isSurrogate u = false := by simpa [wellFormed] using ha
    simp [utf8Length_cons_of_not_surrogate _ hu, utf8Length]
  | case3 u v rest hpair ih =>
    have hrest : wellFormed rest = true := by simpa [wellFormed, hpair] using ha
    simp only [List.cons_append, utf8Length, hpair, if_true, ih hrest]
    omega
  | case4 u v rest hpair ih =>
    have hparts : isSurrogate u = false ∧ wellFormed (v :: rest) = true := by
      simpa [wellFormed, hpair] using ha
    rw [List.cons_append, utf8Length_cons_of_not_surrogate _ hparts.1,
      utf8Length_cons_of_not_surrogate _ hparts.1, ih hparts.2]
    omega

/-- Well-formed pieces concatenate to a well-formed string. -/
theorem wellFormed_append (a b : JsString) (ha : wellFormed a = true)
    (hb : wellFormed b = true) : wellFormed (a ++ b) = true := by
  induction a using wellFormed.induct with
  | case1 => simpa using hb
  | case2 u =>
    have hu : isSurrogate u = false := by simpa [wellFormed] using ha
    have hHigh : isHighSurrogate u = false := by
      by_contra h
      have hs := isSurrogate_of_high (Bool.not_eq_false _ ▸ h)
      rw [hs] at hu
      exact Bool.noConfusion hu
    cases b with
    | nil => simpa using ha
    | cons v rest => simpa [wellFormed, hHigh, hu] using hb
  | case3 u v rest hpair ih =>
    have hrest : wellFormed rest = true := by simpa [wellFormed, hpair] using ha
    simpa [wellFormed, hpair] using ih hrest
  | case4 u v rest hpair ih =>
    have hparts : isSurrogate u = false ∧ wellFormed (v :: rest) = true := by
      simpa [wellFormed, hpair] using ha
    have htail := ih hparts.2
    simp only [List.cons_append] at htail ⊢
    simp [wellFormed, hpair, hparts.1, htail]

/-- Every code unit takes at least one byte. -/
theorem length_le_utf8Length (s : JsString) : s.length ≤ utf8Length s := by
  induction s using utf8Length.induct with
  | case1 => simp
  | case2 u => simpa [utf8Length] using unitBytes_pos u
  | case3 u v rest hpair ih => simp [utf8Length, hpair]; omega
  | case4 u v rest hpair ih =>
    have hu := unitBytes_pos u
    simp only [List.length_cons] at ih
    simp [utf8Length, hpair]
    omega

/-- Text below U+0080 is well formed and takes one byte for each code unit. -/
theorem ascii_size (s : JsString) (h : ∀ u ∈ s, u.toNat < 0x80) :
    wellFormed s = true ∧ utf8Length s = s.length := by
  induction s with
  | nil => exact ⟨rfl, rfl⟩
  | cons u rest ih =>
    have hu : u.toNat < 0x80 := h u (by simp)
    have hns : isSurrogate u = false := by
      simp only [isSurrogate, Bool.and_eq_false_iff, decide_eq_false_iff_not]
      omega
    obtain ⟨hwf, hlen⟩ := ih fun v hv => h v (by simp [hv])
    constructor
    · exact wellFormed_append [u] rest (by simp [wellFormed, hns]) hwf
    · rw [utf8Length_cons_of_not_surrogate _ hns, hlen]
      simp [unitBytes, hu]
      omega

/-! ## Decimal spelling -/

/-- The code unit of a decimal digit. -/
def digitUnit (d : Nat) : UInt16 := UInt16.ofNat (48 + d)

/-- The code units `0` to `9`. -/
def isDigit (u : UInt16) : Bool :=
  decide (48 ≤ u.toNat) && decide (u.toNat ≤ 57)

/-- The decimal spelling of a natural number, most significant digit first. -/
def natDecimal (n : Nat) : JsString :=
  if n = 0 then [digitUnit 0] else (Nat.digits 10 n).reverse.map digitUnit

/-- The decimal spelling of an integer, as a number is printed. -/
def decimal (n : Int) : JsString :=
  if n < 0 then UInt16.ofNat 45 :: natDecimal n.natAbs else natDecimal n.natAbs

theorem toNat_digitUnit {d : Nat} (hd : d < 10) : (digitUnit d).toNat = 48 + d := by
  simp only [digitUnit, UInt16.toNat_ofNat']
  omega

theorem isDigit_digitUnit {d : Nat} (hd : d < 10) : isDigit (digitUnit d) = true := by
  simp only [isDigit, toNat_digitUnit hd, Bool.and_eq_true, decide_eq_true_eq]
  omega

/-- A spelling consists of digits. -/
theorem isDigit_of_mem_natDecimal {n : Nat} {u : UInt16} (hu : u ∈ natDecimal n) :
    isDigit u = true := by
  unfold natDecimal at hu
  split at hu
  · rw [List.mem_singleton] at hu
    subst hu
    exact isDigit_digitUnit (by omega)
  · obtain ⟨d, hd, rfl⟩ := List.mem_map.1 hu
    exact isDigit_digitUnit (Nat.digits_lt_base (by omega) (List.mem_reverse.1 hd))

private theorem map_digitUnit_inj {xs ys : List Nat} (hx : ∀ d ∈ xs, d < 10)
    (hy : ∀ d ∈ ys, d < 10) (h : xs.map digitUnit = ys.map digitUnit) : xs = ys := by
  induction xs generalizing ys with
  | nil =>
    cases ys with
    | nil => rfl
    | cons y ys => simp at h
  | cons x xs ih =>
    cases ys with
    | nil => simp at h
    | cons y ys =>
      simp only [List.map_cons, List.cons.injEq] at h
      have hxy : 48 + x = 48 + y := by
        rw [← toNat_digitUnit (hx x (by simp)), ← toNat_digitUnit (hy y (by simp)), h.1]
      have htail := ih (fun d hd => hx d (by simp [hd]))
        (fun d hd => hy d (by simp [hd])) h.2
      simp [htail]
      omega

/-- Different numbers are spelled differently. -/
theorem natDecimal_inj {m n : Nat} (h : natDecimal m = natDecimal n) : m = n := by
  have hdigits : ∀ k : Nat, ∀ d ∈ (Nat.digits 10 k).reverse, d < 10 := fun k d hd =>
    Nat.digits_lt_base (by omega) (List.mem_reverse.1 hd)
  have hzero : ∀ k : Nat, k ≠ 0 → natDecimal k ≠ [digitUnit 0] := by
    intro k hk heq
    have hmap : (Nat.digits 10 k).reverse.map digitUnit = [0].map digitUnit := by
      simpa [natDecimal, hk] using heq
    have hlist := map_digitUnit_inj (hdigits k) (by simp) hmap
    have hk0 := Nat.ofDigits_digits 10 k
    rw [← List.reverse_reverse (Nat.digits 10 k), hlist] at hk0
    exact hk (by simpa [Nat.ofDigits] using hk0.symm)
  by_cases hm : m = 0
  · by_contra hne
    exact hzero n (by omega) (by rw [← h]; simp [natDecimal, hm])
  · by_cases hn : n = 0
    · exact absurd (by rw [h]; simp [natDecimal, hn]) (hzero m hm)
    · have hmap : (Nat.digits 10 m).reverse.map digitUnit =
          (Nat.digits 10 n).reverse.map digitUnit := by
        simpa [natDecimal, hm, hn] using h
      have hlist := map_digitUnit_inj (hdigits m) (hdigits n) hmap
      exact Nat.digits_inj_iff.1 (List.reverse_injective hlist)

/-- A number below `10 ^ k` is spelled with at most `k` digits. -/
theorem length_natDecimal_le {n k : Nat} (hk : 0 < k) (h : n < 10 ^ k) :
    (natDecimal n).length ≤ k := by
  unfold natDecimal
  split
  · simp only [List.length_singleton]
    omega
  · simpa using (Nat.digits_length_le_iff (by omega) n).2 h

theorem natDecimal_ne_nil (n : Nat) : natDecimal n ≠ [] := by
  unfold natDecimal
  split
  · simp
  · rename_i hn
    simpa using Nat.digits_ne_nil_iff_ne_zero.2 hn

/-- Two runs of digits, each followed by something that is no digit, are equal
when the whole strings are. -/
theorem digits_append_inj {xs ys r r' : JsString}
    (hx : ∀ u ∈ xs, isDigit u = true) (hy : ∀ u ∈ ys, isDigit u = true)
    (hr : ∀ u ∈ r.head?, isDigit u = false) (hr' : ∀ u ∈ r'.head?, isDigit u = false)
    (h : xs ++ r = ys ++ r') : xs = ys ∧ r = r' := by
  induction xs generalizing ys with
  | nil =>
    cases ys with
    | nil => exact ⟨rfl, h⟩
    | cons y ys =>
      have hd := hr y (by simp [show r = y :: (ys ++ r') from by simpa using h])
      rw [hy y (by simp)] at hd
      exact Bool.noConfusion hd
  | cons x xs ih =>
    cases ys with
    | nil =>
      have hd := hr' x (by simp [show r' = x :: (xs ++ r) from by simpa using h.symm])
      rw [hx x (by simp)] at hd
      exact Bool.noConfusion hd
    | cons y ys =>
      simp only [List.cons_append, List.cons.injEq] at h
      obtain ⟨htail, hrest⟩ := ih (fun u hu => hx u (by simp [hu]))
        (fun u hu => hy u (by simp [hu])) h.2
      exact ⟨by rw [h.1, htail], hrest⟩

/-- A decimal followed by a non-digit determines the number and the rest. -/
theorem natDecimal_append_inj {m n : Nat} {r r' : JsString}
    (hr : ∀ u ∈ r.head?, isDigit u = false) (hr' : ∀ u ∈ r'.head?, isDigit u = false)
    (h : natDecimal m ++ r = natDecimal n ++ r') : m = n ∧ r = r' := by
  obtain ⟨hspell, hrest⟩ := digits_append_inj (fun u => isDigit_of_mem_natDecimal)
    (fun u => isDigit_of_mem_natDecimal) hr hr' h
  exact ⟨natDecimal_inj hspell, hrest⟩

/-- A spelled integer followed by a non-digit determines the integer and the
rest. -/
theorem decimal_append_inj {m n : Int} {r r' : JsString}
    (hr : ∀ u ∈ r.head?, isDigit u = false) (hr' : ∀ u ∈ r'.head?, isDigit u = false)
    (h : decimal m ++ r = decimal n ++ r') : m = n ∧ r = r' := by
  have hminus : ∀ (k : Nat) (t t' : JsString), 45 :: t ≠ natDecimal k ++ t' := by
    intro k t t' heq
    cases hk : natDecimal k with
    | nil => exact natDecimal_ne_nil k hk
    | cons u us =>
      have hdigit := isDigit_of_mem_natDecimal (n := k) (u := u) (by simp [hk])
      simp only [hk, List.cons_append, List.cons.injEq] at heq
      rw [← heq.1] at hdigit
      exact absurd hdigit (by decide)
  unfold decimal at h
  split at h <;> split at h
  · simp only [List.cons_append, List.cons.injEq, true_and] at h
    obtain ⟨habs, hrest⟩ := natDecimal_append_inj hr hr' h
    exact ⟨by omega, hrest⟩
  · exact absurd h (hminus _ _ _)
  · exact absurd h.symm (hminus _ _ _)
  · obtain ⟨habs, hrest⟩ := natDecimal_append_inj hr hr' h
    exact ⟨by omega, hrest⟩

end AgentSdk.Text
