import AgentSdk.Lib.Utf8

/-!
# Base64url without padding

Three bytes are spelled with four units of an alphabet of 64; one or two bytes
at the end with two or three.  The reader drops bits that make no whole byte, so
that a text with such bits set is not what the writer spells.

## Main results

* `decode_encode` — spelled bytes are read back.
* `length_encode` — four units for three bytes, rounded up.
* `isDigit64_of_mem_encode` — the units of a spelling are in the alphabet.
-/

namespace AgentSdk.Base64Url

open AgentSdk.Text

/-! ## The alphabet -/

/-- The unit of a value below 64. -/
def unit64 (d : Nat) : UInt16 :=
  if d < 26 then UInt16.ofNat (65 + d)
  else if d < 52 then UInt16.ofNat (71 + d)
  else if d < 62 then UInt16.ofNat (d - 4)
  else if d = 62 then 45
  else 95

/-- `[A-Za-z0-9_-]` -/
def isDigit64 (u : UInt16) : Bool :=
  (decide (65 ≤ u.toNat) && decide (u.toNat ≤ 90)) ||
    (decide (97 ≤ u.toNat) && decide (u.toNat ≤ 122)) || isDigit u || u == 95 || u == 45

/-- The value of a unit of the alphabet. -/
def value64 (u : UInt16) : Nat :=
  if u = 45 then 62
  else if u.toNat ≤ 57 then u.toNat + 4
  else if u.toNat ≤ 90 then u.toNat - 65
  else if u = 95 then 63
  else u.toNat - 71

theorem value64_unit64 : ∀ d < 64, value64 (unit64 d) = d := by decide

theorem isDigit64_unit64 : ∀ d < 64, isDigit64 (unit64 d) = true := by decide

theorem toNat_lt_of_isDigit64 {u : UInt16} (h : isDigit64 u = true) :
    0x2D ≤ u.toNat ∧ u.toNat < 0x80 ∧ u ≠ 46 ∧ u ≠ 92 := by
  have hlimits : 0x2D ≤ u.toNat ∧ u.toNat < 0x80 ∧ u.toNat ≠ 46 ∧ u.toNat ≠ 92 := by
    simp only [isDigit64, isDigit, Bool.or_eq_true, Bool.and_eq_true, decide_eq_true_eq,
      beq_iff_eq] at h
    rcases h with (((h | h) | h) | rfl) | rfl
    · omega
    · omega
    · omega
    · decide
    · decide
  obtain ⟨hlow, hhigh, hdot, hslash⟩ := hlimits
  refine ⟨hlow, hhigh, ?_, ?_⟩
  · rintro rfl
    exact hdot rfl
  · rintro rfl
    exact hslash rfl

/-! ## Writing and reading -/

/-- `toString('base64url')` -/
def encode : Bytes → JsString
  | [] => []
  | [a] => [unit64 (a.toNat / 4), unit64 (a.toNat % 4 * 16)]
  | [a, b] =>
    [unit64 (a.toNat / 4), unit64 (a.toNat % 4 * 16 + b.toNat / 16),
      unit64 (b.toNat % 16 * 4)]
  | a :: b :: c :: rest =>
    unit64 (a.toNat / 4) :: unit64 (a.toNat % 4 * 16 + b.toNat / 16) ::
      unit64 (b.toNat % 16 * 4 + c.toNat / 64) :: unit64 (c.toNat % 64) :: encode rest

/-- The bytes of a sequence of values. -/
def join : List Nat → Bytes
  | w :: x :: y :: z :: rest =>
    UInt8.ofNat (w * 4 + x / 16) :: UInt8.ofNat (x % 16 * 16 + y / 4) ::
      UInt8.ofNat (y % 4 * 64 + z) :: join rest
  | [w, x, y] => [UInt8.ofNat (w * 4 + x / 16), UInt8.ofNat (x % 16 * 16 + y / 4)]
  | [w, x] => [UInt8.ofNat (w * 4 + x / 16)]
  | _ => []

/-- `Buffer.from(text, 'base64url')` on units of the alphabet. -/
def decode (text : JsString) : Bytes := join (text.map value64)

private theorem ofNat_eq {b : UInt8} {n : Nat} (h : n = b.toNat) : UInt8.ofNat n = b := by
  rw [h, UInt8.ofNat_toNat]

/-- **Spelled bytes are read back.** -/
theorem decode_encode (bytes : Bytes) : decode (encode bytes) = bytes := by
  unfold decode
  induction bytes using encode.induct with
  | case1 => rfl
  | case2 a =>
    have ha := a.toNat_lt
    simp only [encode, List.map_cons, List.map_nil, join,
      value64_unit64 (a.toNat / 4) (by omega), value64_unit64 (a.toNat % 4 * 16) (by omega)]
    rw [ofNat_eq (b := a) (by omega)]
  | case3 a b =>
    have ha := a.toNat_lt
    have hb := b.toNat_lt
    simp only [encode, List.map_cons, List.map_nil, join,
      value64_unit64 (a.toNat / 4) (by omega),
      value64_unit64 (a.toNat % 4 * 16 + b.toNat / 16) (by omega),
      value64_unit64 (b.toNat % 16 * 4) (by omega)]
    rw [ofNat_eq (b := a) (by omega), ofNat_eq (b := b) (by omega)]
  | case4 a b c rest ih =>
    have ha := a.toNat_lt
    have hb := b.toNat_lt
    have hc := c.toNat_lt
    simp only [encode, List.map_cons, join, value64_unit64 (a.toNat / 4) (by omega),
      value64_unit64 (a.toNat % 4 * 16 + b.toNat / 16) (by omega),
      value64_unit64 (b.toNat % 16 * 4 + c.toNat / 64) (by omega),
      value64_unit64 (c.toNat % 64) (by omega)]
    rw [ofNat_eq (b := a) (by omega), ofNat_eq (b := b) (by omega),
      ofNat_eq (b := c) (by omega), ih]

theorem length_encode (bytes : Bytes) : (encode bytes).length = (4 * bytes.length + 2) / 3 := by
  induction bytes using encode.induct with
  | case1 => rfl
  | case2 a | case3 a b => simp [encode]
  | case4 a b c rest ih =>
    simp only [encode, List.length_cons, ih]
    omega

theorem isDigit64_of_mem_encode {bytes : Bytes} {u : UInt16} (hu : u ∈ encode bytes) :
    isDigit64 u = true := by
  induction bytes using encode.induct with
  | case1 => simp [encode] at hu
  | case2 a =>
    have ha := a.toNat_lt
    simp only [encode, List.mem_cons, List.not_mem_nil, or_false] at hu
    rcases hu with rfl | rfl
    · exact isDigit64_unit64 _ (by omega)
    · exact isDigit64_unit64 _ (by omega)
  | case3 a b =>
    have ha := a.toNat_lt
    have hb := b.toNat_lt
    simp only [encode, List.mem_cons, List.not_mem_nil, or_false] at hu
    rcases hu with rfl | rfl | rfl
    · exact isDigit64_unit64 _ (by omega)
    · exact isDigit64_unit64 _ (by omega)
    · exact isDigit64_unit64 _ (by omega)
  | case4 a b c rest ih =>
    have ha := a.toNat_lt
    have hb := b.toNat_lt
    have hc := c.toNat_lt
    simp only [encode, List.mem_cons] at hu
    rcases hu with rfl | rfl | rfl | rfl | hu
    · exact isDigit64_unit64 _ (by omega)
    · exact isDigit64_unit64 _ (by omega)
    · exact isDigit64_unit64 _ (by omega)
    · exact isDigit64_unit64 _ (by omega)
    · exact ih hu

-- "Ma" is spelled with three units; a spelling with a spare bit set reads as the same bytes.
example : encode [77, 97] = js "TWE" ∧ decode (js "TWF") = [77, 97] := by decide

end AgentSdk.Base64Url
