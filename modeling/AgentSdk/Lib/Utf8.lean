import AgentSdk.Lib.Text

/-!
# UTF-8 bytes of UTF-16 text

The byte sequence a text encoder writes for a string, and the strict decoder:
it accepts exactly the shortest encodings of Unicode scalar values.  A lone
surrogate is encoded as U+FFFD and never comes back from the decoder.

## Main results

* `decode_encode` — a well-formed string is read back from its bytes.
* `length_encode` — the number of bytes is `utf8Length`.
* `mem_of_mem_encode` — a byte below 0x80 comes from that code unit.
* `encode_ascii`, `decode_ascii` — text below U+0080 is its own bytes.
-/

namespace AgentSdk

open AgentSdk.Text

/-- A sequence of bytes. -/
abbrev Bytes := List UInt8

namespace Utf8

/-! ## Encoding -/

/-- The bytes of a code unit that is not half of a pair. -/
def unitBytes (u : UInt16) : Bytes :=
  if u.toNat < 0x80 then [UInt8.ofNat u.toNat]
  else if u.toNat < 0x800 then
    [UInt8.ofNat (0xC0 + u.toNat / 64), UInt8.ofNat (0x80 + u.toNat % 64)]
  else if isSurrogate u then [0xEF, 0xBF, 0xBD]
  else
    [UInt8.ofNat (0xE0 + u.toNat / 4096), UInt8.ofNat (0x80 + u.toNat / 64 % 64),
      UInt8.ofNat (0x80 + u.toNat % 64)]

/-- The scalar value of a surrogate pair. -/
def pairScalar (u v : UInt16) : Nat := 0x10000 + (u.toNat - 0xD800) * 0x400 + (v.toNat - 0xDC00)

/-- The bytes of a surrogate pair. -/
def pairBytes (u v : UInt16) : Bytes :=
  [UInt8.ofNat (0xF0 + pairScalar u v / 262144), UInt8.ofNat (0x80 + pairScalar u v / 4096 % 64),
    UInt8.ofNat (0x80 + pairScalar u v / 64 % 64), UInt8.ofNat (0x80 + pairScalar u v % 64)]

/-- The bytes a text encoder writes for a string. -/
def encode : JsString → Bytes
  | [] => []
  | [u] => unitBytes u
  | u :: v :: rest =>
    if isHighSurrogate u && isLowSurrogate v then pairBytes u v ++ encode rest
    else unitBytes u ++ encode (v :: rest)

/-! ## Decoding -/

/-- A byte that continues a sequence. -/
def isTail (b : UInt8) : Bool := decide (0x80 ≤ b.toNat) && decide (b.toNat ≤ 0xBF)

/-- The scalar value of a two-byte sequence. -/
def scalar₂ (b c : UInt8) : Nat := (b.toNat - 0xC0) * 64 + (c.toNat - 0x80)

/-- The scalar value of a three-byte sequence. -/
def scalar₃ (b c d : UInt8) : Nat :=
  (b.toNat - 0xE0) * 4096 + (c.toNat - 0x80) * 64 + (d.toNat - 0x80)

/-- The scalar value of a four-byte sequence. -/
def scalar₄ (b c d e : UInt8) : Nat :=
  (b.toNat - 0xF0) * 262144 + (c.toNat - 0x80) * 4096 + (d.toNat - 0x80) * 64 + (e.toNat - 0x80)

/-- Two bytes that encode a scalar value which needs two. -/
def isTwo (b c : UInt8) : Bool :=
  decide (0xC2 ≤ b.toNat) && decide (b.toNat ≤ 0xDF) && isTail c

/-- Three bytes that encode a scalar value which needs three. -/
def isThree (b c d : UInt8) : Bool :=
  decide (0xE0 ≤ b.toNat) && decide (b.toNat ≤ 0xEF) && isTail c && isTail d &&
    decide (0x800 ≤ scalar₃ b c d) && !isSurrogate (UInt16.ofNat (scalar₃ b c d))

/-- Four bytes that encode a scalar value which needs four. -/
def isFour (b c d e : UInt8) : Bool :=
  decide (0xF0 ≤ b.toNat) && decide (b.toNat ≤ 0xF4) && isTail c && isTail d && isTail e &&
    decide (0x10000 ≤ scalar₄ b c d e) && decide (scalar₄ b c d e ≤ 0x10FFFF)

/-- The surrogate pair of a scalar value. -/
def pairOf (scalar : Nat) : JsString :=
  [UInt16.ofNat (0xD800 + (scalar - 0x10000) / 0x400),
    UInt16.ofNat (0xDC00 + (scalar - 0x10000) % 0x400)]

/-- The string a byte sequence encodes, if it encodes one. -/
def decode : Bytes → Option JsString
  | [] => some []
  | b :: rest =>
    if b.toNat < 0x80 then (decode rest).map (UInt16.ofNat b.toNat :: ·)
    else
      match rest with
      | [] => none
      | c :: rest =>
        if isTwo b c then (decode rest).map (UInt16.ofNat (scalar₂ b c) :: ·)
        else
          match rest with
          | [] => none
          | d :: rest =>
            if isThree b c d then (decode rest).map (UInt16.ofNat (scalar₃ b c d) :: ·)
            else
              match rest with
              | [] => none
              | e :: rest =>
                if isFour b c d e then
                  (decode rest).map (pairOf (scalar₄ b c d e) ++ ·)
                else none

/-- A string without a leading byte order mark. -/
def dropMark : JsString → JsString
  | [] => []
  | u :: s => if u = 0xFEFF then s else u :: s

/-- What a strict text decoder returns for a whole sequence: it leaves out a
leading byte order mark. -/
def decodeText (bytes : Bytes) : Option JsString := (decode bytes).map dropMark

attribute [grind =] encode decode

/-! ## Reading back -/

private theorem toNat_byte {n : Nat} (h : n < 256) : (UInt8.ofNat n).toNat = n := by
  simp only [UInt8.toNat_ofNat']
  omega

private theorem toNat_lt (u : UInt16) : u.toNat < 65536 := u.toNat_lt

private theorem ofNat_eq {n : Nat} {u : UInt16} (h : n = u.toNat) : UInt16.ofNat n = u := by
  rw [h, UInt16.ofNat_toNat]

theorem decode_one {b : UInt8} (h : b.toNat < 0x80) (rest : Bytes) :
    decode (b :: rest) = (decode rest).map (UInt16.ofNat b.toNat :: ·) := by
  rw [decode.eq_def]
  simp only [if_pos h]

theorem decode_two {b c : UInt8} (hb : 0x80 ≤ b.toNat) (h : isTwo b c = true) (rest : Bytes) :
    decode (b :: c :: rest) = (decode rest).map (UInt16.ofNat (scalar₂ b c) :: ·) := by
  rw [decode.eq_def]
  simp only [if_neg (Nat.not_lt.2 hb), if_pos h]

theorem decode_three {b c d : UInt8} (hb : 0x80 ≤ b.toNat) (htwo : isTwo b c = false)
    (h : isThree b c d = true) (rest : Bytes) :
    decode (b :: c :: d :: rest) = (decode rest).map (UInt16.ofNat (scalar₃ b c d) :: ·) := by
  rw [decode.eq_def]
  simp only [if_neg (Nat.not_lt.2 hb), htwo, Bool.false_eq_true, if_false, if_pos h]

theorem decode_four {b c d e : UInt8} (hb : 0x80 ≤ b.toNat) (htwo : isTwo b c = false)
    (hthree : isThree b c d = false) (h : isFour b c d e = true) (rest : Bytes) :
    decode (b :: c :: d :: e :: rest) =
      (decode rest).map (pairOf (scalar₄ b c d e) ++ ·) := by
  rw [decode.eq_def]
  simp only [if_neg (Nat.not_lt.2 hb), htwo, hthree, Bool.false_eq_true, if_false, if_pos h]

theorem decode_unitBytes {u : UInt16} (hu : isSurrogate u = false) (rest : Bytes) :
    decode (unitBytes u ++ rest) = (decode rest).map (u :: ·) := by
  have hlt := toNat_lt u
  unfold unitBytes
  split
  · rename_i hone
    have hb : (UInt8.ofNat u.toNat).toNat = u.toNat := toNat_byte (by omega)
    rw [List.singleton_append, decode_one (by omega), hb, UInt16.ofNat_toNat]
  · split
    · rename_i hone htwo
      have hb : (UInt8.ofNat (0xC0 + u.toNat / 64)).toNat = 0xC0 + u.toNat / 64 :=
        toNat_byte (by omega)
      have hc : (UInt8.ofNat (0x80 + u.toNat % 64)).toNat = 0x80 + u.toNat % 64 :=
        toNat_byte (by omega)
      generalize UInt8.ofNat (0xC0 + u.toNat / 64) = b at hb ⊢
      generalize UInt8.ofNat (0x80 + u.toNat % 64) = c at hc ⊢
      have hvalue : scalar₂ b c = u.toNat := by
        unfold scalar₂
        omega
      have htwo' : isTwo b c = true := by
        simp only [isTwo, isTail, hb, hc, Bool.and_eq_true, decide_eq_true_eq]
        omega
      simp only [List.cons_append, List.nil_append]
      rw [decode_two (by omega) htwo', hvalue, UInt16.ofNat_toNat]
    · rename_i hone htwo
      rw [hu, if_neg Bool.false_ne_true]
      have hb : (UInt8.ofNat (0xE0 + u.toNat / 4096)).toNat = 0xE0 + u.toNat / 4096 :=
        toNat_byte (by omega)
      have hc : (UInt8.ofNat (0x80 + u.toNat / 64 % 64)).toNat = 0x80 + u.toNat / 64 % 64 :=
        toNat_byte (by omega)
      have hd : (UInt8.ofNat (0x80 + u.toNat % 64)).toNat = 0x80 + u.toNat % 64 :=
        toNat_byte (by omega)
      generalize UInt8.ofNat (0xE0 + u.toNat / 4096) = b at hb ⊢
      generalize UInt8.ofNat (0x80 + u.toNat / 64 % 64) = c at hc ⊢
      generalize UInt8.ofNat (0x80 + u.toNat % 64) = d at hd ⊢
      have hvalue : scalar₃ b c d = u.toNat := by
        unfold scalar₃
        omega
      have htwo' : isTwo b c = false := by
        simp only [isTwo, isTail, Bool.and_eq_false_iff, decide_eq_false_iff_not]
        omega
      have hthree : isThree b c d = true := by
        simp only [isThree, isTail, hvalue, UInt16.ofNat_toNat, hu, hb, hc, hd,
          Bool.and_eq_true, decide_eq_true_eq, Bool.not_false, and_true]
        omega
      simp only [List.cons_append, List.nil_append]
      rw [decode_three (by omega) htwo' hthree, hvalue, UInt16.ofNat_toNat]

theorem decode_pairBytes {u v : UInt16} (hu : isHighSurrogate u = true)
    (hv : isLowSurrogate v = true) (rest : Bytes) :
    decode (pairBytes u v ++ rest) = (decode rest).map ([u, v] ++ ·) := by
  simp only [isHighSurrogate, isLowSurrogate, Bool.and_eq_true, decide_eq_true_eq] at hu hv
  have hscalar : pairScalar u v =
      0x10000 + (u.toNat - 0xD800) * 0x400 + (v.toNat - 0xDC00) := rfl
  have hlow : 0x10000 ≤ pairScalar u v := by omega
  have hhigh : pairScalar u v ≤ 0x10FFFF := by omega
  have hback : pairOf (pairScalar u v) = [u, v] := by
    rw [pairOf, ofNat_eq (u := u) (by omega), ofNat_eq (u := v) (by omega)]
  unfold pairBytes
  generalize pairScalar u v = n at hlow hhigh hback ⊢
  have hb : (UInt8.ofNat (0xF0 + n / 262144)).toNat = 0xF0 + n / 262144 := toNat_byte (by omega)
  have hc : (UInt8.ofNat (0x80 + n / 4096 % 64)).toNat = 0x80 + n / 4096 % 64 :=
    toNat_byte (by omega)
  have hd : (UInt8.ofNat (0x80 + n / 64 % 64)).toNat = 0x80 + n / 64 % 64 := toNat_byte (by omega)
  have he : (UInt8.ofNat (0x80 + n % 64)).toNat = 0x80 + n % 64 := toNat_byte (by omega)
  generalize UInt8.ofNat (0xF0 + n / 262144) = b at hb ⊢
  generalize UInt8.ofNat (0x80 + n / 4096 % 64) = c at hc ⊢
  generalize UInt8.ofNat (0x80 + n / 64 % 64) = d at hd ⊢
  generalize UInt8.ofNat (0x80 + n % 64) = e at he ⊢
  have hvalue : scalar₄ b c d e = n := by
    unfold scalar₄
    omega
  have htwo : isTwo b c = false := by
    simp only [isTwo, Bool.and_eq_false_iff, decide_eq_false_iff_not]
    omega
  have hthree : isThree b c d = false := by
    simp only [isThree, Bool.and_eq_false_iff, decide_eq_false_iff_not]
    omega
  have hfour : isFour b c d e = true := by
    simp only [isFour, isTail, hvalue, hb, hc, hd, he, Bool.and_eq_true, decide_eq_true_eq]
    omega
  simp only [List.cons_append, List.nil_append]
  rw [decode_four (by omega) htwo hthree hfour, hvalue, hback]
  rfl

theorem encode_cons_of_not_surrogate {u : UInt16} (hu : isSurrogate u = false) (s : JsString) :
    encode (u :: s) = unitBytes u ++ encode s := by
  have hhigh : isHighSurrogate u = false := by
    by_contra h
    rw [isSurrogate_of_high (Bool.not_eq_false _ ▸ h)] at hu
    exact Bool.noConfusion hu
  cases s with
  | nil => simp [encode]
  | cons v rest => simp [encode, hhigh]

/-- A well-formed string is read back from its bytes, whatever follows. -/
theorem decode_encode_append {s : JsString} (hs : wellFormed s = true) (rest : Bytes) :
    decode (encode s ++ rest) = (decode rest).map (s ++ ·) := by
  induction s using wellFormed.induct with
  | case1 => simp [encode]
  | case2 u =>
    have hu : isSurrogate u = false := by simpa [wellFormed] using hs
    simpa [encode] using decode_unitBytes hu rest
  | case3 u v tail hpair ih =>
    have htail : wellFormed tail = true := by simpa [wellFormed, hpair] using hs
    simp only [Bool.and_eq_true] at hpair
    simp only [encode, hpair, Bool.and_self, if_true, List.append_assoc]
    rw [decode_pairBytes hpair.1 hpair.2, ih htail]
    simp [Option.map_map, Function.comp_def]
  | case4 u v tail hpair ih =>
    have hparts : isSurrogate u = false ∧ wellFormed (v :: tail) = true := by
      simpa [wellFormed, hpair] using hs
    rw [encode_cons_of_not_surrogate hparts.1, List.append_assoc, decode_unitBytes hparts.1,
      ih hparts.2]
    simp [Option.map_map, Function.comp_def]

/-- A well-formed string is read back from its bytes. -/
theorem decode_encode {s : JsString} (hs : wellFormed s = true) : decode (encode s) = some s := by
  simpa [decode] using decode_encode_append hs []

/-! ## Size and contents -/

theorem length_unitBytes (u : UInt16) : (unitBytes u).length = Text.unitBytes u := by
  unfold unitBytes Text.unitBytes
  split
  · rfl
  · split
    · rfl
    · split <;> rfl

/-- The number of bytes of a string. -/
theorem length_encode (s : JsString) : (encode s).length = utf8Length s := by
  induction s using utf8Length.induct with
  | case1 => rfl
  | case2 u => exact length_unitBytes u
  | case3 u v rest hpair ih =>
    simp only [encode, utf8Length, hpair, if_true, List.length_append, ih]
    rfl
  | case4 u v rest hpair ih =>
    simp only [encode, utf8Length, hpair, Bool.false_eq_true, if_false, List.length_append,
      length_unitBytes, ih]

private theorem mem_unitBytes {u : UInt16} {b : UInt8} (hb : b ∈ unitBytes u)
    (hlow : b.toNat < 0x80) : u.toNat = b.toNat := by
  have hlt := toNat_lt u
  unfold unitBytes at hb
  split at hb
  · rw [List.mem_singleton] at hb
    rw [hb, toNat_byte (by omega)]
  · split at hb
    · simp only [List.mem_cons, List.not_mem_nil, or_false] at hb
      rcases hb with rfl | rfl <;> rw [toNat_byte (by omega)] at hlow <;> omega
    · split at hb
      · simp only [List.mem_cons, List.not_mem_nil, or_false] at hb
        rcases hb with rfl | rfl | rfl <;> exact absurd hlow (by decide)
      · simp only [List.mem_cons, List.not_mem_nil, or_false] at hb
        rcases hb with rfl | rfl | rfl <;> rw [toNat_byte (by omega)] at hlow <;> omega

private theorem not_mem_pairBytes {u v : UInt16} {b : UInt8} (hu : isHighSurrogate u = true)
    (hv : isLowSurrogate v = true) (hb : b ∈ pairBytes u v) : 0x80 ≤ b.toNat := by
  simp only [isHighSurrogate, isLowSurrogate, Bool.and_eq_true, decide_eq_true_eq] at hu hv
  have hscalar : pairScalar u v =
      0x10000 + (u.toNat - 0xD800) * 0x400 + (v.toNat - 0xDC00) := rfl
  unfold pairBytes at hb
  simp only [List.mem_cons, List.not_mem_nil, or_false] at hb
  rcases hb with rfl | rfl | rfl | rfl <;> rw [toNat_byte (by omega)] <;> omega

/-- A byte below 0x80 comes from the code unit of that value. -/
theorem mem_of_mem_encode {s : JsString} {b : UInt8} (hb : b ∈ encode s)
    (hlow : b.toNat < 0x80) : ∃ u ∈ s, u.toNat = b.toNat := by
  induction s using encode.induct with
  | case1 => exact absurd hb (by simp [encode])
  | case2 u => exact ⟨u, by simp, mem_unitBytes hb hlow⟩
  | case3 u v rest hpair ih =>
    simp only [encode, hpair, if_true, List.mem_append] at hb
    simp only [Bool.and_eq_true] at hpair
    rcases hb with hhere | hlater
    · exact absurd (not_mem_pairBytes hpair.1 hpair.2 hhere) (by omega)
    · obtain ⟨w, hw, heq⟩ := ih hlater
      exact ⟨w, by simp [hw], heq⟩
  | case4 u v rest hpair ih =>
    simp only [encode, hpair, Bool.false_eq_true, if_false, List.mem_append] at hb
    rcases hb with hhere | hlater
    · exact ⟨u, by simp, mem_unitBytes hhere hlow⟩
    · obtain ⟨w, hw, heq⟩ := ih hlater
      exact ⟨w, by simp only [List.mem_cons] at hw ⊢; exact Or.inr hw, heq⟩

/-- The bytes behind a well-formed prefix are those of the rest. -/
theorem encode_append {s : JsString} (hs : wellFormed s = true) (t : JsString) :
    encode (s ++ t) = encode s ++ encode t := by
  induction s using wellFormed.induct with
  | case1 => rfl
  | case2 u =>
    have hu : isSurrogate u = false := by simpa [wellFormed] using hs
    simp only [List.singleton_append, encode_cons_of_not_surrogate hu, encode]
  | case3 u v tail hpair ih =>
    have htail : wellFormed tail = true := by simpa [wellFormed, hpair] using hs
    simp only [List.cons_append, encode, hpair, if_true, ih htail, List.append_assoc]
  | case4 u v tail hpair ih =>
    have hparts : isSurrogate u = false ∧ wellFormed (v :: tail) = true := by
      simpa [wellFormed, hpair] using hs
    have hrest := ih hparts.2
    rw [List.cons_append, encode_cons_of_not_surrogate hparts.1, hrest,
      encode_cons_of_not_surrogate hparts.1, List.append_assoc]

/-! ## Text below U+0080 -/

/-- Code units below U+0080 are written as they are. -/
theorem encode_ascii (s : JsString) (h : ∀ u ∈ s, u.toNat < 0x80) :
    encode s = s.map fun u => UInt8.ofNat u.toNat := by
  induction s with
  | nil => rfl
  | cons u s ih =>
    have hu := h u (by simp)
    have hns : isSurrogate u = false := by
      simp only [isSurrogate, Bool.and_eq_false_iff, decide_eq_false_iff_not]
      omega
    rw [encode_cons_of_not_surrogate hns, ih fun v hv => h v (by simp [hv])]
    simp [unitBytes, hu]

/-- Bytes below 0x80 are read as they are. -/
theorem decode_ascii (bytes : Bytes) (h : ∀ b ∈ bytes, b.toNat < 0x80) :
    decode bytes = some (bytes.map fun b => UInt16.ofNat b.toNat) := by
  induction bytes with
  | nil => rfl
  | cons b bytes ih =>
    rw [decode_one (h b (by simp)), ih fun c hc => h c (by simp [hc])]
    rfl

end Utf8

end AgentSdk
