import AgentSdk.Lib.Utf8

/-!
# Reading UTF-8 with replacements

A decoder that never fails: where the bytes encode no character it writes one
U+FFFD for the longest start of a sequence it can find there, and goes on behind
it.

## Main results

* `toText_append_of_decode` — what the strict decoder reads is read alike, whatever follows.
* `wellFormed_toText` — what is read is well formed.
* `toText_drop_encode` — of the last bytes of a text, the last of its units are read, behind one
  replacement for each byte of a character that was cut.
-/

namespace AgentSdk

open AgentSdk.Text

namespace Utf8

/-- A second byte that a sequence of three or four bytes can have. -/
def isSecond (b c : UInt8) : Bool :=
  isTail c &&
    (decide (0xE1 ≤ b.toNat ∧ b.toNat ≤ 0xEF ∧ b ≠ 0xED) || decide (b = 0xE0 ∧ 0xA0 ≤ c.toNat) ||
      decide (b = 0xED ∧ c.toNat ≤ 0x9F) || decide (0xF1 ≤ b.toNat ∧ b.toNat ≤ 0xF3) ||
      decide (b = 0xF0 ∧ 0x90 ≤ c.toNat) || decide (b = 0xF4 ∧ c.toNat ≤ 0x8F))

/-- A third byte behind which a sequence of four bytes can go on. -/
def isThird (b d : UInt8) : Bool := decide (0xF0 ≤ b.toNat) && isTail d

/-- The text of a sequence of bytes, with U+FFFD for what is not UTF-8. -/
def toText : Bytes → JsString
  | [] => []
  | b :: rest =>
    if b.toNat < 0x80 then UInt16.ofNat b.toNat :: toText rest
    else
      match rest with
      | [] => [0xFFFD]
      | c :: rest =>
        if isTwo b c then UInt16.ofNat (scalar₂ b c) :: toText rest
        else if isSecond b c then
          match rest with
          | [] => [0xFFFD]
          | d :: rest =>
            if isThree b c d then UInt16.ofNat (scalar₃ b c d) :: toText rest
            else if isThird b d then
              match rest with
              | [] => [0xFFFD]
              | e :: rest =>
                if isFour b c d e then pairOf (scalar₄ b c d e) ++ toText rest
                else 0xFFFD :: toText (e :: rest)
            else 0xFFFD :: toText (d :: rest)
        else 0xFFFD :: toText (c :: rest)

attribute [grind =] toText

/-! ## What the strict decoder reads -/

theorem of_isTail {c : UInt8} (h : isTail c = true) : 0x80 ≤ c.toNat ∧ c.toNat ≤ 0xBF := by
  rw [isTail, Bool.and_eq_true] at h
  exact ⟨of_decide_eq_true h.1, of_decide_eq_true h.2⟩

/-- The second bytes behind each first byte of a longer sequence. -/
theorem isSecond_of {b c : UInt8} (hlow : 0xE0 ≤ b.toNat) (hhigh : b.toNat ≤ 0xF4)
    (hc : isTail c = true) (h₀ : b.toNat = 0xE0 → 0xA0 ≤ c.toNat)
    (h₁ : b.toNat = 0xED → c.toNat ≤ 0x9F) (h₂ : b.toNat = 0xF0 → 0x90 ≤ c.toNat)
    (h₃ : b.toNat = 0xF4 → c.toNat ≤ 0x8F) : isSecond b c = true := by
  have hb (v : UInt8) : b = v ↔ b.toNat = v.toNat := UInt8.toNat_inj.symm
  unfold isSecond
  rw [hc, Bool.true_and]
  simp only [Bool.or_eq_true, decide_eq_true_eq, hb, ne_eq, UInt8.reduceToNat]
  omega

theorem second_of_three {b c d : UInt8} (h : isThree b c d = true) : isSecond b c = true := by
  unfold isThree at h
  rw [Bool.and_eq_true, Bool.and_eq_true, Bool.and_eq_true, Bool.and_eq_true, Bool.and_eq_true] at h
  obtain ⟨⟨⟨⟨⟨hlow, hhigh⟩, hc⟩, hd⟩, hscalar⟩, hsurrogate⟩ := h
  have hlow := of_decide_eq_true hlow
  have hhigh := of_decide_eq_true hhigh
  have hscalar := of_decide_eq_true hscalar
  obtain ⟨hc₀, hc₁⟩ := of_isTail hc
  obtain ⟨hd₀, hd₁⟩ := of_isTail hd
  have hvalue : scalar₃ b c d =
      (b.toNat - 0xE0) * 4096 + (c.toNat - 0x80) * 64 + (d.toNat - 0x80) := rfl
  refine isSecond_of hlow (by omega) hc (by omega) ?_ (by omega) (by omega)
  intro hb
  by_contra hhalf
  have hunit : (UInt16.ofNat (scalar₃ b c d)).toNat = scalar₃ b c d := by
    rw [UInt16.toNat_ofNat']
    exact Nat.mod_eq_of_lt (by omega)
  have hin : isSurrogate (UInt16.ofNat (scalar₃ b c d)) = true := by
    rw [isSurrogate, hunit, Bool.and_eq_true]
    exact ⟨decide_eq_true (by omega), decide_eq_true (by omega)⟩
  rw [hin] at hsurrogate
  cases hsurrogate

theorem third_of_four {b c d e : UInt8} (h : isFour b c d e = true) :
    isSecond b c = true ∧ isThird b d = true := by
  unfold isFour at h
  rw [Bool.and_eq_true, Bool.and_eq_true, Bool.and_eq_true, Bool.and_eq_true, Bool.and_eq_true,
    Bool.and_eq_true] at h
  obtain ⟨⟨⟨⟨⟨⟨hlow, hhigh⟩, hc⟩, hd⟩, he⟩, hleast⟩, hmost⟩ := h
  have hlow := of_decide_eq_true hlow
  have hhigh := of_decide_eq_true hhigh
  have hleast := of_decide_eq_true hleast
  have hmost := of_decide_eq_true hmost
  obtain ⟨hc₀, hc₁⟩ := of_isTail hc
  obtain ⟨hd₀, hd₁⟩ := of_isTail hd
  obtain ⟨he₀, he₁⟩ := of_isTail he
  have hvalue : scalar₄ b c d e = (b.toNat - 0xF0) * 262144 + (c.toNat - 0x80) * 4096 +
      (d.toNat - 0x80) * 64 + (e.toNat - 0x80) := rfl
  refine ⟨isSecond_of (by omega) hhigh hc (by omega) (by omega) (by omega) (by omega), ?_⟩
  rw [isThird, hd, Bool.and_true]
  exact decide_eq_true hlow

theorem toText_one {b : UInt8} (h : b.toNat < 0x80) (rest : Bytes) :
    toText (b :: rest) = UInt16.ofNat b.toNat :: toText rest := by
  rw [toText.eq_def]
  simp only [if_pos h]

theorem toText_two {b c : UInt8} (hb : 0x80 ≤ b.toNat) (h : isTwo b c = true) (rest : Bytes) :
    toText (b :: c :: rest) = UInt16.ofNat (scalar₂ b c) :: toText rest := by
  rw [toText.eq_def]
  simp only [if_neg (Nat.not_lt.2 hb), if_pos h]

theorem toText_three {b c d : UInt8} (hb : 0x80 ≤ b.toNat) (htwo : isTwo b c = false)
    (h : isThree b c d = true) (rest : Bytes) :
    toText (b :: c :: d :: rest) = UInt16.ofNat (scalar₃ b c d) :: toText rest := by
  rw [toText.eq_def]
  simp only [if_neg (Nat.not_lt.2 hb), htwo, Bool.false_eq_true, if_false,
    if_pos (second_of_three h), if_pos h]

theorem toText_four {b c d e : UInt8} (hb : 0x80 ≤ b.toNat) (htwo : isTwo b c = false)
    (hthree : isThree b c d = false) (h : isFour b c d e = true) (rest : Bytes) :
    toText (b :: c :: d :: e :: rest) = pairOf (scalar₄ b c d e) ++ toText rest := by
  obtain ⟨hsecond, hthird⟩ := third_of_four h
  rw [toText.eq_def]
  simp only [if_neg (Nat.not_lt.2 hb), htwo, hthree, Bool.false_eq_true, if_false, if_pos hsecond,
    if_pos hthird, if_pos h]

/-- **What the strict decoder reads is read alike, whatever follows.** -/
theorem toText_append_of_decode {bytes : Bytes} {t : JsString} (h : decode bytes = some t)
    (rest : Bytes) : toText (bytes ++ rest) = t ++ toText rest := by
  induction bytes using decode.induct generalizing t with
  | case1 =>
    obtain rfl : [] = t := Option.some.inj h
    rfl
  | case2 b bytes hone ih =>
    rw [decode_one hone] at h
    obtain ⟨t, ht, rfl⟩ := Option.map_eq_some_iff.1 h
    rw [List.cons_append, toText_one hone, ih ht, List.cons_append]
  | case3 b hone =>
    rw [decode.eq_def] at h
    simp only [if_neg hone] at h
    cases h
  | case4 b hone c bytes htwo ih =>
    rw [decode_two (Nat.not_lt.1 hone) htwo] at h
    obtain ⟨t, ht, rfl⟩ := Option.map_eq_some_iff.1 h
    rw [List.cons_append, List.cons_append, toText_two (Nat.not_lt.1 hone) htwo, ih ht,
      List.cons_append]
  | case5 b hone c htwo =>
    rw [decode.eq_def] at h
    simp only [if_neg hone, if_neg htwo] at h
    cases h
  | case6 b hone c htwo d bytes hthree ih =>
    have htwo' := Bool.eq_false_iff.2 htwo
    rw [decode_three (Nat.not_lt.1 hone) htwo' hthree] at h
    obtain ⟨t, ht, rfl⟩ := Option.map_eq_some_iff.1 h
    rw [List.cons_append, List.cons_append, List.cons_append,
      toText_three (Nat.not_lt.1 hone) htwo' hthree, ih ht, List.cons_append]
  | case7 b hone c htwo d hthree =>
    rw [decode.eq_def] at h
    simp only [if_neg hone, if_neg htwo, if_neg hthree] at h
    cases h
  | case8 b hone c htwo d hthree e bytes hfour ih =>
    have htwo' := Bool.eq_false_iff.2 htwo
    have hthree' := Bool.eq_false_iff.2 hthree
    rw [decode_four (Nat.not_lt.1 hone) htwo' hthree' hfour] at h
    obtain ⟨t, ht, rfl⟩ := Option.map_eq_some_iff.1 h
    rw [List.cons_append, List.cons_append, List.cons_append, List.cons_append,
      toText_four (Nat.not_lt.1 hone) htwo' hthree' hfour, ih ht, List.append_assoc]
  | case9 b hone c htwo d hthree e bytes hfour =>
    rw [decode.eq_def] at h
    simp only [if_neg hone, if_neg htwo, if_neg hthree, if_neg hfour] at h
    cases h

/-- The bytes of a well-formed text are read back, whatever follows. -/
theorem toText_encode_append {s : JsString} (hs : wellFormed s = true) (rest : Bytes) :
    toText (encode s ++ rest) = s ++ toText rest :=
  toText_append_of_decode (decode_encode hs) rest

theorem toText_encode {s : JsString} (hs : wellFormed s = true) : toText (encode s) = s := by
  simpa [toText] using toText_encode_append hs []

/-! ## What is read is well formed -/

/-- A byte that continues a sequence starts none. -/
theorem toText_tail {b : UInt8} (h : isTail b = true) (rest : Bytes) :
    toText (b :: rest) = 0xFFFD :: toText rest := by
  obtain ⟨hlow, hhigh⟩ := of_isTail h
  have hone : ¬b.toNat < 0x80 := Nat.not_lt.2 hlow
  rw [toText.eq_def]
  cases rest with
  | nil => simp only [if_neg hone, toText]
  | cons c rest =>
    have hb (v : UInt8) : b = v ↔ b.toNat = v.toNat := UInt8.toNat_inj.symm
    have htwo : isTwo b c = false := by
      rw [isTwo, decide_eq_false (by omega), Bool.false_and, Bool.false_and]
    have hsecond : isSecond b c = false := by
      unfold isSecond
      simp only [Bool.and_eq_false_iff, Bool.or_eq_false_iff, decide_eq_false_iff_not, hb, ne_eq,
        UInt8.reduceToNat]
      omega
    simp only [if_neg hone, htwo, hsecond, Bool.false_eq_true, if_false]

theorem toText_tails {tails : Bytes} (h : ∀ b ∈ tails, isTail b = true) (rest : Bytes) :
    toText (tails ++ rest) = List.replicate tails.length 0xFFFD ++ toText rest := by
  induction tails with
  | nil => rfl
  | cons b tails ih =>
    rw [List.cons_append, toText_tail (h b (by simp)), ih fun c hc => h c (by simp [hc])]
    rfl

theorem isTail_ofNat {n : Nat} (h : n < 64) : isTail (UInt8.ofNat (0x80 + n)) = true := by
  have hvalue : (UInt8.ofNat (0x80 + n)).toNat = 0x80 + n := by
    rw [UInt8.toNat_ofNat']
    exact Nat.mod_eq_of_lt (by omega)
  rw [isTail, hvalue, decide_eq_true (by omega), decide_eq_true (by omega)]
  rfl

theorem tails_unitBytes (u : UInt16) : ∀ b ∈ (unitBytes u).drop 1, isTail b = true := by
  have hmod (n : Nat) : isTail (UInt8.ofNat (0x80 + n % 64)) = true :=
    isTail_ofNat (Nat.mod_lt _ (by omega))
  unfold unitBytes
  by_cases hone : u.toNat < 0x80
  · rw [if_pos hone]
    nofun
  · rw [if_neg hone]
    by_cases htwo : u.toNat < 0x800
    · rw [if_pos htwo]
      exact List.forall_mem_singleton.2 (hmod _)
    · rw [if_neg htwo]
      by_cases hsurrogate : isSurrogate u = true
      · rw [if_pos hsurrogate]
        have hmark : ∀ b ∈ [(0xBF : UInt8), 0xBD], isTail b = true :=
          List.forall_mem_cons.2 ⟨rfl, List.forall_mem_singleton.2 rfl⟩
        exact hmark
      · rw [if_neg hsurrogate]
        exact List.forall_mem_cons.2 ⟨hmod _, List.forall_mem_singleton.2 (hmod _)⟩

theorem tails_pairBytes (u v : UInt16) : ∀ b ∈ (pairBytes u v).drop 1, isTail b = true := by
  have hmod (n : Nat) : isTail (UInt8.ofNat (0x80 + n % 64)) = true :=
    isTail_ofNat (Nat.mod_lt _ (by omega))
  exact List.forall_mem_cons.2 ⟨hmod _, List.forall_mem_cons.2
    ⟨hmod _, List.forall_mem_singleton.2 (hmod _)⟩⟩

/-- Bytes that are left of one character, or of none. -/
theorem toText_drop_char {char : Bytes} {units rest : JsString}
    (htails : ∀ b ∈ char.drop 1, isTail b = true) (hrest : wellFormed rest = true)
    (hwhole : toText (char ++ encode rest) = units ++ rest)
    (ih : ∀ k, ∃ j m, m ≤ rest.length ∧
      toText ((encode rest).drop k) = List.replicate j 0xFFFD ++ rest.drop m) (k : Nat) :
    ∃ j m, m ≤ (units ++ rest).length ∧
      toText ((char ++ encode rest).drop k) = List.replicate j 0xFFFD ++ (units ++ rest).drop m := by
  by_cases hzero : k = 0
  · subst hzero
    exact ⟨0, 0, Nat.zero_le _, hwhole⟩
  · by_cases hcut : k < char.length
    · -- the bytes that are left of the character start nothing
      have hleft : ∀ b ∈ char.drop k, isTail b = true := by
        intro b hb
        refine htails b ?_
        rw [show k = 1 + (k - 1) by omega, ← List.drop_drop] at hb
        exact List.mem_of_mem_drop hb
      refine ⟨(char.drop k).length, units.length, by simp, ?_⟩
      rw [List.drop_append_of_le_length hcut.le, toText_tails hleft, toText_encode hrest,
        List.drop_left]
    · obtain ⟨j, m, hm, hread⟩ := ih (k - char.length)
      refine ⟨j, units.length + m, by simp [hm], ?_⟩
      rw [List.drop_append, List.drop_eq_nil_of_le (by omega), List.nil_append, hread,
        ← List.drop_drop, List.drop_left]

/-- **Of the last bytes of a text, the last of its units are read**, behind a replacement for each
byte that is left of a cut character. -/
theorem toText_drop_encode {s : JsString} (hs : wellFormed s = true) (k : Nat) :
    ∃ j m, m ≤ s.length ∧
      toText ((encode s).drop k) = List.replicate j 0xFFFD ++ s.drop m := by
  induction s using wellFormed.induct generalizing k with
  | case1 => exact ⟨0, 0, Nat.le_refl 0, by simp [encode, toText]⟩
  | case2 u =>
    have hencode : encode [u] = unitBytes u ++ encode [] := (List.append_nil _).symm
    have hwhole : toText (unitBytes u ++ encode []) = [u] ++ [] := toText_encode_append hs []
    rw [hencode]
    exact toText_drop_char (tails_unitBytes u) rfl hwhole
      (fun k => ⟨0, 0, Nat.le_refl 0, by simp [encode, toText]⟩) k
  | case3 u v rest hpair ih =>
    have hrest : wellFormed rest = true := by simpa [wellFormed, hpair] using hs
    have hencode : encode (u :: v :: rest) = pairBytes u v ++ encode rest := by
      rw [encode, if_pos hpair]
    have hwhole := toText_encode hs
    rw [hencode] at hwhole ⊢
    exact @toText_drop_char _ [u, v] _ (tails_pairBytes u v) hrest hwhole (ih hrest) k
  | case4 u v rest hpair ih =>
    have hparts : isSurrogate u = false ∧ wellFormed (v :: rest) = true := by
      simpa [wellFormed, hpair] using hs
    have hencode := encode_cons_of_not_surrogate hparts.1 (v :: rest)
    have hwhole := toText_encode hs
    rw [hencode] at hwhole ⊢
    exact @toText_drop_char _ [u] _ (tails_unitBytes u) hparts.2 hwhole (ih hparts.2) k

end Utf8

end AgentSdk
