import AgentSdk.Tar.Header

/-!
# A written header read back

The block that `makeHeader` writes, part by part, and what `parseHeader` finds
in it.

## Main results

* `makeHeader_eq_ok_iff` — for which entries a header is made, and which block.
* `Representable.parseHeader_headerBlock` — the block is read back.
-/

namespace AgentSdk.Tar

open AgentSdk.Text AgentSdk.Sandbox

/-! ### Reading a written block -/

/-- The digits of a numeric field. -/
def octalBytes (k n : Nat) : Bytes := Utf8.encode (padStart k (radix 8 n))

theorem octalUnits (k n : Nat) : ∀ u ∈ padStart k (radix 8 n), isRadixDigit 8 u = true :=
  isRadixDigit_of_mem_padStart (by omega) (by omega) fun _ hu =>
    isRadixDigit_of_mem_radix (by omega) (by omega) hu

theorem octalBytes_eq (k n : Nat) :
    octalBytes k n = (padStart k (radix 8 n)).map fun u => UInt8.ofNat u.toNat :=
  Utf8.encode_ascii _ fun u hu => lt_of_isRadixDigit (by omega) (octalUnits k n u hu)

theorem length_octalBytes {k n : Nat} (h : (radix 8 n).length ≤ k) :
    (octalBytes k n).length = k := by
  rw [octalBytes_eq, List.length_map, length_padStart h]

theorem byteUnit_ofNat {u : UInt16} (h : u.toNat < 0x80) : byteUnit (UInt8.ofNat u.toNat) = u := by
  rw [← UInt16.toNat_inj, toNat_byteUnit, UInt8.toNat_ofNat']
  omega

/-- A numeric field of digits and padding is read back. -/
theorem octal_written {block : Bytes} {offset length k n : Nat} (after : Bytes)
    (h : slice block offset length = octalBytes k n ++ after) (hn : n ≤ maxSafeInteger)
    (hafter : ∀ b ∈ after, b = 0 ∨ b = 32) : octal block offset length = .ok n := by
  have hunits := octalUnits k n
  have hdigits : (octalBytes k n).map byteUnit = padStart k (radix 8 n) := by
    rw [octalBytes_eq, List.map_map, List.map_congr_left (g := id), List.map_id]
    intro u hu
    exact byteUnit_ofNat (lt_of_isRadixDigit (by omega) (hunits u hu))
  have hpads : ∀ u ∈ after.map byteUnit, isPad u = true := by
    intro u hu
    obtain ⟨b, hb, rfl⟩ := List.mem_map.1 hu
    exact isPad_byteUnit.2 (hafter b hb)
  have hbytes : ∀ b ∈ octalBytes k n ++ after, isOctalByte b = true := by
    intro b hb
    simp only [isOctalByte, Bool.or_eq_true, beq_iff_eq, Bool.and_eq_true, decide_eq_true_eq]
    rcases List.mem_append.1 hb with hdigit | hpad
    · have hunit := hunits (byteUnit b) (hdigits ▸ List.mem_map_of_mem hdigit)
      exact Or.inr (isRadixDigit_byteUnit.1 hunit)
    · exact Or.inl (hafter b hpad)
  have hlow : ∀ b ∈ octalBytes k n ++ after, b.toNat < 0x80 := by
    intro b hb
    have hbyte := hbytes b hb
    simp only [isOctalByte, Bool.or_eq_true, beq_iff_eq, Bool.and_eq_true,
      decide_eq_true_eq] at hbyte
    rcases hbyte with (rfl | rfl) | hdigit
    · decide
    · decide
    · omega
  have htext : text (octalBytes k n ++ after) =
      .ok (padStart k (radix 8 n) ++ after.map byteUnit) := by
    have hdecode := Utf8.decode_ascii _ hlow
    rw [text, hdecode, List.map_append]
    exact congrArg (fun s => Except.ok (s ++ _)) hdigits
  have hdrop : (padStart k (radix 8 n) ++ after.map byteUnit).dropWhile isPad =
      padStart k (radix 8 n) ++ after.map byteUnit := by
    cases hspell : padStart k (radix 8 n) with
    | nil =>
      have hne : padStart k (radix 8 n) ≠ [] := by
        simp [padStart, radix_ne_nil]
      exact absurd hspell hne
    | cons u rest =>
      have hdigit := hunits u (by simp [hspell])
      have hpad : isPad u = false := by
        simp only [isRadixDigit, Bool.and_eq_true, decide_eq_true_eq] at hdigit
        simp only [isPad, Bool.or_eq_false_iff, beq_eq_false_iff_ne, ne_eq,
          ← UInt16.toNat_inj]
        exact ⟨fun h => by rw [h] at hdigit; exact absurd hdigit.1 (by decide),
          fun h => by rw [h] at hdigit; exact absurd hdigit.1 (by decide)⟩
      rw [List.cons_append, List.dropWhile_cons_of_neg (by simp [hpad])]
  have hpattern : octalPattern (padStart k (radix 8 n) ++ after.map byteUnit) = true := by
    rw [octalPattern, hdrop, List.dropWhile_append_of_pos hunits]
    have hnone : (after.map byteUnit).dropWhile (isRadixDigit 8) = after.map byteUnit := by
      cases hfirst : after.map byteUnit with
      | nil => rfl
      | cons u rest =>
        have hpad := hpads u (by simp [hfirst])
        rw [List.dropWhile_cons_of_neg]
        simp only [isPad, Bool.or_eq_true, beq_iff_eq] at hpad
        rcases hpad with rfl | rfl <;> decide
    rw [hnone, List.all_eq_true]
    exact hpads
  have hany : ¬((octalBytes k n ++ after).any fun b => !isOctalByte b) = true := by
    simp only [List.any_eq_true, not_exists, not_and]
    intro b hb
    simp [hbytes b hb]
  unfold octal
  dsimp only
  rw [h, except_refuseIf_bind hany, except_bind_ok htext, except_refuseIf_bind (by simp [hpattern]),
    hdrop, rdropWhile_append hunits hpads, readRadix_padStart,
    readRadix_radix (by omega) (by omega), except_refuseIf_bind (by omega)]
  rfl

/-- A text field is read back. -/
theorem field_written {block : Bytes} {offset length : Nat} (k : Nat) (string : JsString)
    (h : slice block offset length = Utf8.encode string ++ List.replicate k 0)
    (hstring : wellFormed string = true) (hzero : (0 : UInt16) ∉ string) :
    field block offset length = .ok string := by
  have hne : ∀ b ∈ Utf8.encode string, (b != 0) = true := by
    intro b hb
    rw [bne_iff_ne]
    rintro rfl
    obtain ⟨u, hu, heq⟩ := Utf8.mem_of_mem_encode hb (by decide)
    exact hzero (by rwa [← UInt16.toNat_inj.1 (show u.toNat = (0 : UInt16).toNat from heq)])
  have hdrop : (List.replicate k (0 : UInt8)).dropWhile (· != 0) = List.replicate k 0 := by
    cases k <;> rfl
  have htake : (List.replicate k (0 : UInt8)).takeWhile (· != 0) = [] := by
    cases k <;> rfl
  unfold field
  dsimp only
  rw [h, List.dropWhile_append_of_pos hne, hdrop, List.takeWhile_append_of_pos hne, htake,
    List.append_nil, if_neg (by simp), text, Utf8.decode_encode hstring]

/-- What an entry must be for its header to be written. -/
structure Representable (entry : HeaderEntry) : Prop where
  path : utf8Length entry.path ≤ 100
  target : utf8Length (entry.target.getD []) ≤ 100
  mode : 0 ≤ entry.mode ∧ entry.mode ≤ 0o7777
  uid : 0 ≤ entry.uid ∧ entry.uid < 8 ^ 7
  gid : 0 ≤ entry.gid ∧ entry.gid < 8 ^ 7
  size : 0 ≤ entry.size ∧ entry.size < 8 ^ 11

/-- The bytes of the link name: only a symbolic link has one. -/
def linkBytes (entry : HeaderEntry) : Bytes :=
  if entry.kind = .symlink then Utf8.encode (entry.target.getD []) else []

/-- The parts of a header, its checksum blank. -/
def headerParts (entry : HeaderEntry) : List (Nat × Bytes) :=
  [(0, Utf8.encode entry.path), (100, octalBytes 7 entry.mode.toNat),
    (108, octalBytes 7 entry.uid.toNat), (116, octalBytes 7 entry.gid.toNat),
    (124, octalBytes 11 entry.size.toNat), (136, octalBytes 11 0), (329, octalBytes 7 0),
    (337, octalBytes 7 0), (156, [kindFlag entry.kind]), (157, linkBytes entry),
    (257, Utf8.encode (js "ustar\x00")), (263, Utf8.encode (js "00")),
    (148, List.replicate 8 32)]

/-- A header before its checksum is written. -/
def blankHeader (entry : HeaderEntry) : Bytes :=
  writeParts (List.replicate blockBytes 0) (headerParts entry)

/-- The digits of the checksum. -/
def checksumBytes (entry : HeaderEntry) : Bytes :=
  (octalBytes 6 ((blankHeader entry).map UInt8.toNat).sum).take 6

def headerBlock (entry : HeaderEntry) : Bytes :=
  overwrite (overwrite (blankHeader entry) 148 (checksumBytes entry)) 154 [0]

/-- A number that a field of the given length can hold. -/
def Fits (length : Nat) (value : Int) : Prop :=
  0 ≤ value ∧ value ≤ maxSafeInteger ∧ (radix 8 value.toNat).length < length

theorem putOctal_eq_ok_iff {header result : Bytes} {offset length : Nat} {value : Int} :
    putOctal header offset length value = .ok result ↔ Fits length value ∧
      overwrite header offset (octalBytes (length - 1) value.toNat) = result := by
  unfold putOctal
  split
  · rename_i hbad
    have hnot : ¬Fits length value := by
      intro hfits
      obtain ⟨hnonneg, hsafe, hlength⟩ := hfits
      simp only [isSafeInteger, decide_eq_false_iff_not] at hbad
      omega
    constructor
    · intro h
      cases h
    · intro h
      exact absurd h.1 hnot
  · rename_i hgood
    have hfits : Fits length value := by
      simp only [isSafeInteger, decide_eq_false_iff_not] at hgood
      exact ⟨by omega, by omega, by omega⟩
    constructor
    · intro h
      exact ⟨hfits, Except.ok.inj h⟩
    · intro h
      exact congrArg Except.ok h.2

/-- Numbers are written one after the other, when each fits its field. -/
theorem foldlM_putOctal {numbers : List (Nat × Nat × Int)} {header result : Bytes} :
    numbers.foldlM (fun header number => putOctal header number.1 number.2.1 number.2.2) header =
        .ok result ↔
      (∀ number ∈ numbers, Fits number.2.1 number.2.2) ∧
        numbers.foldl (fun header number =>
          overwrite header number.1 (octalBytes (number.2.1 - 1) number.2.2.toNat)) header =
            result := by
  induction numbers generalizing header with
  | nil =>
    simp only [List.foldlM_nil, List.not_mem_nil, false_implies, implies_true, List.foldl_nil,
      true_and]
    exact ⟨fun h => Except.ok.inj h, fun h => congrArg Except.ok h⟩
  | cons number numbers ih =>
    rw [List.foldlM_cons, List.foldl_cons, List.forall_mem_cons]
    constructor
    · intro h
      obtain ⟨written, hfirst, hrest⟩ := ok_of_except_bind h
      obtain ⟨hfits, rfl⟩ := putOctal_eq_ok_iff.1 hfirst
      obtain ⟨hall, hresult⟩ := ih.1 hrest
      exact ⟨⟨hfits, hall⟩, hresult⟩
    · intro h
      rw [except_bind_ok (putOctal_eq_ok_iff.2 ⟨h.1.1, rfl⟩)]
      exact ih.2 ⟨h.1.2, h.2⟩

/-- The numbers that a field of `k` digits can hold. -/
theorem length_radix_lt_iff {n k : Nat} : (radix 8 n).length < k + 2 ↔ n < 8 ^ (k + 1) := by
  rw [← length_radix_le_iff (b := 8) (by omega) (Nat.succ_pos k)]
  omega

theorem length_octalBytes_of_lt {n k : Nat} (h : n < 8 ^ (k + 1)) :
    (octalBytes (k + 1) n).length = k + 1 :=
  length_octalBytes (Nat.lt_succ_iff.1 (length_radix_lt_iff.2 h))

section

variable {entry : HeaderEntry} (h : Representable entry)
include h

theorem Representable.length_path : (Utf8.encode entry.path).length ≤ 100 := by
  rw [Utf8.length_encode]
  exact h.path

theorem Representable.length_link : (linkBytes entry).length ≤ 100 := by
  unfold linkBytes
  split
  · rw [Utf8.length_encode]
    exact h.target
  · simp

/-- The parts and how long each is. -/
theorem Representable.forall_parts {p : Nat → Nat → Prop} :
    (∀ w ∈ headerParts entry, p w.1 w.2.length) ↔
      p 0 (Utf8.encode entry.path).length ∧ p 100 7 ∧ p 108 7 ∧ p 116 7 ∧ p 124 11 ∧ p 136 11 ∧
        p 329 7 ∧ p 337 7 ∧ p 156 1 ∧ p 157 (linkBytes entry).length ∧ p 257 6 ∧ p 263 2 ∧
        p 148 8 := by
  have hmagic : (Utf8.encode (js "ustar\x00")).length = 6 := by decide
  have hversion : (Utf8.encode (js "00")).length = 2 := by decide
  have hmode := length_octalBytes_of_lt (n := entry.mode.toNat) (k := 6)
    (by have := h.mode; omega)
  have huid := length_octalBytes_of_lt (n := entry.uid.toNat) (k := 6) (by have := h.uid; omega)
  have hgid := length_octalBytes_of_lt (n := entry.gid.toNat) (k := 6) (by have := h.gid; omega)
  have hsize := length_octalBytes_of_lt (n := entry.size.toNat) (k := 10)
    (by have := h.size; omega)
  have hseven := length_octalBytes_of_lt (n := 0) (k := 6) (by decide)
  have heleven := length_octalBytes_of_lt (n := 0) (k := 10) (by decide)
  simp only [headerParts, List.forall_mem_cons, List.not_mem_nil, false_implies, implies_true,
    and_true, hmagic, hversion, hmode, huid, hgid, hsize, hseven, heleven, List.length_singleton,
    List.length_replicate]

theorem Representable.parts_fit :
    ∀ w ∈ headerParts entry, w.1 + w.2.length ≤ blockBytes := by
  have hpath := h.length_path
  have hlink := h.length_link
  refine (h.forall_parts (p := fun o n => o + n ≤ blockBytes)).2 ?_
  simp only [blockBytes]
  omega

theorem Representable.length_blankHeader : (blankHeader entry).length = blockBytes := by
  rw [blankHeader, length_writeParts _ _ (by simpa using fun a b hw => h.parts_fit (a, b) hw),
    List.length_replicate]

/-- A range of the header in which only one part lies. -/
theorem Representable.slice_part (start count : Nat) (bytes : Bytes)
    (hmem : (start, bytes) ∈ headerParts entry)
    (hapart : ∀ w ∈ headerParts entry,
      w.1 = start ∨ start + count ≤ w.1 ∨ w.1 + w.2.length ≤ start)
    (hbytes : bytes.length ≤ count) (hcount : start + count ≤ blockBytes) :
    slice (blankHeader entry) start count = bytes ++ List.replicate (count - bytes.length) 0 := by
  refine slice_writeParts_mem h.parts_fit hmem (by simp [headerParts]) ?_ hbytes hcount
  intro w hw hne
  exact (hapart w hw).resolve_left hne

/-- A range of the header in which no part lies. -/
theorem Representable.slice_gap (start count : Nat)
    (hapart : ∀ w ∈ headerParts entry, start + count ≤ w.1 ∨ w.1 + w.2.length ≤ start)
    (hcount : start + count ≤ blockBytes) :
    slice (blankHeader entry) start count = List.replicate count 0 :=
  slice_writeParts_zero h.parts_fit hapart hcount

/-- The checksum digits fit their field. -/
theorem Representable.length_checksum :
    (checksumBytes entry).length = 6 ∧
      checksumBytes entry = octalBytes 6 ((blankHeader entry).map UInt8.toNat).sum ∧
      ((blankHeader entry).map UInt8.toNat).sum < 8 ^ 6 := by
  have hsum : ((blankHeader entry).map UInt8.toNat).sum ≤ 512 * 255 := by
    have hle := List.sum_le_card_nsmul ((blankHeader entry).map UInt8.toNat) 255 (by
      intro n hn
      obtain ⟨b, _, rfl⟩ := List.mem_map.1 hn
      have hlt := b.toNat_lt
      omega)
    rw [List.length_map, h.length_blankHeader] at hle
    simpa [blockBytes] using hle
  have hlt : ((blankHeader entry).map UInt8.toNat).sum < 8 ^ (5 + 1) := by
    norm_num
    omega
  have hlength := length_octalBytes_of_lt hlt
  have htake : checksumBytes entry = octalBytes 6 ((blankHeader entry).map UInt8.toNat).sum := by
    rw [checksumBytes, List.take_of_length_le (by rw [hlength])]
  exact ⟨by rw [htake, hlength], htake, hlt⟩

theorem Representable.checksum_fits :
    148 + (checksumBytes entry).length ≤ (blankHeader entry).length := by
  rw [h.length_checksum.1, h.length_blankHeader]
  decide

theorem Representable.length_signed :
    (overwrite (blankHeader entry) 148 (checksumBytes entry)).length = blockBytes := by
  rw [length_overwrite h.checksum_fits, h.length_blankHeader]

theorem Representable.length_headerBlock : (headerBlock entry).length = blockBytes := by
  rw [headerBlock, length_overwrite (by rw [h.length_signed]; decide), h.length_signed]

/-- Outside its checksum the block is the blank header. -/
theorem Representable.slice_headerBlock {start count : Nat}
    (hapart : start + count ≤ 148 ∨ 156 ≤ start) :
    slice (headerBlock entry) start count = slice (blankHeader entry) start count := by
  rw [headerBlock, slice_overwrite_apart (by rw [h.length_signed]; decide)
      (by simp only [List.length_singleton]; omega),
    slice_overwrite_apart h.checksum_fits (by rw [h.length_checksum.1]; omega)]

theorem Representable.slice_blank :
    slice (blankHeader entry) 148 8 = List.replicate 8 32 := by
  have hmem : (148, List.replicate 8 32) ∈ headerParts entry := by simp [headerParts]
  have hapart := (h.forall_parts (p := fun o n => o = 148 ∨ 148 + 8 ≤ o ∨ o + n ≤ 148)).2
    (by have := h.length_path; omega)
  simpa using h.slice_part _ _ _ hmem hapart (Nat.le_refl _) (by decide)

/-- The checksum field: six digits, a zero byte and a blank. -/
theorem Representable.slice_checksum :
    slice (headerBlock entry) 148 8 =
      octalBytes 6 ((blankHeader entry).map UInt8.toNat).sum ++ [0, 32] := by
  have hdigits : slice (headerBlock entry) 148 6 = checksumBytes entry := by
    rw [headerBlock, slice_overwrite_apart (by rw [h.length_signed]; decide) (by omega),
      slice_overwrite_here h.checksum_fits (by rw [h.length_checksum.1]), h.length_checksum.1]
    simp
  have hzero : slice (headerBlock entry) 154 1 = [0] := by
    rw [headerBlock, slice_overwrite_here (by rw [h.length_signed]; decide) (by simp)]
    simp
  have hspace : slice (headerBlock entry) 155 1 = [32] := by
    rw [headerBlock, slice_overwrite_apart (by rw [h.length_signed]; decide) (by simp),
      slice_overwrite_apart h.checksum_fits (by rw [h.length_checksum.1]; omega)]
    have hlast : slice (blankHeader entry) (148 + 7) 1 = (slice (blankHeader entry) 148 8).drop 7 := by
      simp [slice, List.drop_take, List.drop_drop]
    rw [hlast, h.slice_blank]
    rfl
  have hsplit : slice (headerBlock entry) 148 8 = slice (headerBlock entry) 148 6 ++
      (slice (headerBlock entry) 154 1 ++ slice (headerBlock entry) 155 1) := by
    rw [slice_append _ 154 1 1, slice_append _ 148 6 2]
  rw [hsplit, hdigits, hzero, hspace, h.length_checksum.2.1]
  rfl

/-- The checksum that is written is the one that is checked. -/
theorem Representable.headerSum_headerBlock :
    headerSum (headerBlock entry) = ((blankHeader entry).map UInt8.toNat).sum := by
  have hlength : (headerBlock entry).length = blockBytes := h.length_headerBlock
  refine congrArg List.sum (List.ext_getElem? ?_)
  intro i
  rw [List.take_of_length_le (Nat.le_of_eq hlength), List.getElem?_map, List.getElem?_map,
    List.getElem?_zipIdx, Nat.zero_add]
  by_cases hi : i < blockBytes
  · have hget : i < (blankHeader entry).length := by rwa [h.length_blankHeader]
    rw [List.getElem?_eq_getElem hget, Option.map_some]
    by_cases hfield : 148 ≤ i ∧ i < 156
    · have hbyte : (slice (blankHeader entry) 148 8)[i - 148]? = some 32 := by
        rw [h.slice_blank, List.getElem?_replicate, if_pos (by omega)]
      rw [getElem?_slice, if_pos (by omega), Nat.add_sub_cancel' hfield.1,
        List.getElem?_eq_getElem hget] at hbyte
      rw [List.getElem?_eq_getElem (by omega), Option.map_some, Option.map_some,
        Option.some.inj hbyte]
      exact congrArg some (if_pos hfield)
    · have hbyte : (headerBlock entry)[i]? = (blankHeader entry)[i]? := by
        rw [headerBlock, getElem?_overwrite (by rw [h.length_signed]; decide),
          if_neg (by simp only [List.length_singleton]; omega),
          getElem?_overwrite h.checksum_fits, if_neg (by rw [h.length_checksum.1]; omega)]
      rw [hbyte, List.getElem?_eq_getElem hget, Option.map_some, Option.map_some]
      exact congrArg some (if_neg hfield)
  · rw [List.getElem?_eq_none (by omega),
      List.getElem?_eq_none (by rw [h.length_blankHeader]; omega)]
    rfl

end

/-- The header when its numbers are written. -/
def numberedHeader (entry : HeaderEntry) : Bytes :=
  writeParts (List.replicate blockBytes 0) ((headerParts entry).take 8)

/-- The parts behind the numbers make the blank header. -/
theorem Representable.blankHeader_eq {entry : HeaderEntry} (h : Representable entry) :
    overwrite (overwrite (overwrite
      (if entry.kind = .symlink then
        overwrite (overwrite (numberedHeader entry) 156 [kindFlag entry.kind]) 157
          (Utf8.encode (entry.target.getD []))
      else overwrite (numberedHeader entry) 156 [kindFlag entry.kind])
      257 (Utf8.encode (js "ustar\x00"))) 263 (Utf8.encode (js "00"))) 148
      (List.replicate 8 32) = blankHeader entry := by
  have hlength : (overwrite (numberedHeader entry) 156 [kindFlag entry.kind]).length =
      blockBytes := by
    have hfit := length_writeParts (List.replicate blockBytes 0)
      ((headerParts entry).take 9) (by
        intro w hw
        rw [List.length_replicate]
        exact h.parts_fit w (List.mem_of_mem_take hw))
    rw [List.length_replicate] at hfit
    exact hfit
  have hlink : (if entry.kind = .symlink then
        overwrite (overwrite (numberedHeader entry) 156 [kindFlag entry.kind]) 157
          (Utf8.encode (entry.target.getD []))
      else overwrite (numberedHeader entry) 156 [kindFlag entry.kind]) =
      overwrite (overwrite (numberedHeader entry) 156 [kindFlag entry.kind]) 157
        (linkBytes entry) := by
    unfold linkBytes
    split
    · rfl
    · rw [overwrite_nil (by rw [hlength]; decide)]
  rw [hlink]
  rfl

theorem fits_iff (k : Nat) (value : Int) (hk : k < 12) :
    Fits (k + 2) value ↔ 0 ≤ value ∧ value < 8 ^ (k + 1) := by
  have hpow : 8 ^ (k + 1) ≤ 8 ^ 12 := Nat.pow_le_pow_right (by omega) (by omega)
  rw [Fits, length_radix_lt_iff]
  constructor
  · intro h
    refine ⟨h.1, ?_⟩
    have hcast : ((8 ^ (k + 1) : Nat) : Int) = 8 ^ (k + 1) := by push_cast; rfl
    omega
  · intro h
    have hcast : ((8 ^ (k + 1) : Nat) : Int) = 8 ^ (k + 1) := by push_cast; rfl
    refine ⟨h.1, ?_, by omega⟩
    have hsafe : 8 ^ 12 ≤ maxSafeInteger := by decide
    omega

theorem representable_iff {entry : HeaderEntry} :
    Representable entry ↔ utf8Length entry.path ≤ 100 ∧
      utf8Length (entry.target.getD []) ≤ 100 ∧ entry.mode ≤ 0o7777 ∧
      ∀ number ∈ headerNumbers entry, Fits number.2.1 number.2.2 := by
  have hzero : Fits 8 0 ∧ Fits 12 0 := by
    constructor
    · exact (fits_iff 6 0 (by omega)).2 (by norm_num)
    · exact (fits_iff 10 0 (by omega)).2 (by norm_num)
  simp only [headerNumbers, List.forall_mem_cons, List.not_mem_nil, false_implies, implies_true,
    and_true, hzero.1, hzero.2]
  have hseven := fun value => fits_iff 6 value (by omega)
  have heleven := fun value => fits_iff 10 value (by omega)
  simp only [Nat.reduceAdd] at hseven heleven
  rw [hseven, hseven, hseven, heleven]
  constructor
  · intro h
    have hmode := h.mode
    exact ⟨h.path, h.target, hmode.2, ⟨hmode.1, by omega⟩, h.uid, h.gid, h.size⟩
  · intro h
    obtain ⟨hpath, htarget, hle, hmode, huid, hgid, hsize⟩ := h
    exact ⟨hpath, htarget, ⟨hmode.1, hle⟩, huid, hgid, hsize⟩

/-- A header is made exactly for what can be represented. -/
theorem makeHeader_eq_ok_iff {entry : HeaderEntry} {block : Bytes} :
    makeHeader entry = .ok block ↔ Representable entry ∧ block = headerBlock entry := by
  constructor
  · intro h
    unfold makeHeader at h
    obtain ⟨hlimits, h⟩ := ok_of_refuseIf_bind h
    obtain ⟨numbered, hnumbers, h⟩ := ok_of_except_bind h
    obtain ⟨hfits, hnumbered⟩ := foldlM_putOctal.1 hnumbers
    simp only [not_or, Nat.not_lt, Int.not_lt] at hlimits
    have hrep := representable_iff.2 ⟨hlimits.1, hlimits.2.2, hlimits.2.1, hfits⟩
    have hwritten : numbered = numberedHeader entry := hnumbered.symm
    have hblock := Except.ok.inj h
    rw [hwritten, hrep.blankHeader_eq] at hblock
    exact ⟨hrep, hblock.symm⟩
  · intro h
    obtain ⟨hrep, hblock⟩ := h
    obtain ⟨hpath, htarget, hmode, hfits⟩ := representable_iff.1 hrep
    have hnumbers : (headerNumbers entry).foldlM (fun header number =>
        putOctal header number.1 number.2.1 number.2.2)
        (overwrite (List.replicate blockBytes 0) 0 (Utf8.encode entry.path)) =
        .ok (numberedHeader entry) := foldlM_putOctal.2 ⟨hfits, rfl⟩
    unfold makeHeader
    rw [except_refuseIf_bind (by omega), except_bind_ok hnumbers, hblock]
    exact congrArg (fun header => Except.ok (overwrite (overwrite header 148
      ((octalBytes 6 (header.map UInt8.toNat).sum).take 6)) 154 [0])) hrep.blankHeader_eq

section

variable {entry : HeaderEntry} (h : Representable entry)
include h

/-- A numeric part is read back. -/
theorem Representable.octal_part (offset k n : Nat)
    (hmem : (offset, octalBytes (k + 1) n) ∈ headerParts entry)
    (hapart : ∀ w ∈ headerParts entry,
      w.1 = offset ∨ offset + (k + 2) ≤ w.1 ∨ w.1 + w.2.length ≤ offset)
    (hn : n < 8 ^ (k + 1)) (hk : k < 12)
    (hout : offset + (k + 2) ≤ 148 ∨ 156 ≤ offset ∧ offset + (k + 2) ≤ blockBytes) :
    octal (headerBlock entry) offset (k + 2) = .ok n := by
  have hlength := length_octalBytes_of_lt hn
  have hslice := h.slice_part _ _ _ hmem hapart (by omega) (by simp only [blockBytes] at hout ⊢; omega)
  rw [← h.slice_headerBlock (by omega), hlength, show k + 2 - (k + 1) = 1 by omega] at hslice
  have hpow : 8 ^ (k + 1) ≤ 8 ^ 12 := Nat.pow_le_pow_right (by omega) (by omega)
  have hsafe : 8 ^ 12 ≤ maxSafeInteger := by decide
  exact octal_written [0] hslice (by omega) (by simp)

/-- A text part is read back. -/
theorem Representable.field_part (offset length : Nat) (string : JsString)
    (hmem : (offset, Utf8.encode string) ∈ headerParts entry)
    (hapart : ∀ w ∈ headerParts entry,
      w.1 = offset ∨ offset + length ≤ w.1 ∨ w.1 + w.2.length ≤ offset)
    (hlength : (Utf8.encode string).length ≤ length)
    (hstring : wellFormed string = true) (hzero : (0 : UInt16) ∉ string)
    (hout : offset + length ≤ 148 ∨ 156 ≤ offset ∧ offset + length ≤ blockBytes) :
    field (headerBlock entry) offset length = .ok string := by
  have hslice := h.slice_part _ _ _ hmem hapart hlength (by simp only [blockBytes] at hout ⊢; omega)
  rw [← h.slice_headerBlock (by omega)] at hslice
  exact field_written _ _ hslice hstring hzero

/-- A text field that nothing is written to is empty. -/
theorem Representable.field_gap (offset length : Nat)
    (hapart : ∀ w ∈ headerParts entry, offset + length ≤ w.1 ∨ w.1 + w.2.length ≤ offset)
    (hout : 156 ≤ offset ∧ offset + length ≤ blockBytes) :
    field (headerBlock entry) offset length = .ok [] := by
  have hslice := h.slice_gap _ _ hapart hout.2
  rw [← h.slice_headerBlock (by omega)] at hslice
  exact field_written length [] (by simpa [Utf8.encode] using hslice) rfl
    (by simp)

theorem Representable.flag_headerBlock : (headerBlock entry).getD 156 0 = kindFlag entry.kind := by
  have hapart := (h.forall_parts (p := fun o n => o = 156 ∨ 156 + 1 ≤ o ∨ o + n ≤ 156)).2
    (by have := h.length_path; omega)
  have hslice := h.slice_part _ _ [kindFlag entry.kind] (by simp [headerParts]) hapart
    (Nat.le_refl _) (by decide)
  rw [← h.slice_headerBlock (by omega)] at hslice
  have hbyte := getElem?_slice (headerBlock entry) 156 1 0
  rw [hslice] at hbyte
  rw [List.getD_eq_getElem?_getD]
  simpa using congrArg (fun b => b.getD 0) hbyte.symm

/-- A written header is read back. -/
theorem Representable.parseHeader_headerBlock (hpath : wellFormed entry.path = true)
    (hpathZero : (0 : UInt16) ∉ entry.path)
    (htarget : wellFormed (entry.target.getD []) = true)
    (htargetZero : (0 : UInt16) ∉ entry.target.getD [])
    (hpayload : entry.kind = .directory ∨ entry.kind = .symlink → entry.size = 0) :
    parseHeader (headerBlock entry) = .ok {
      path := entry.path
      kind := entry.kind
      size := entry.size.toNat
      mode := entry.mode.toNat
      target := if entry.kind = .symlink then entry.target.getD [] else [] } := by
  have hpathLength := h.length_path
  have hlinkLength := h.length_link
  have hchecksum := octal_written [0, 32] h.slice_checksum
    (by
      have hlt := h.length_checksum.2.2
      have hsafe : 8 ^ 6 ≤ maxSafeInteger := by decide
      omega) (by simp)
  have hmagic : field (headerBlock entry) 257 6 = .ok (js "ustar") := by
    have hapart := (h.forall_parts (p := fun o n => o = 257 ∨ 257 + 6 ≤ o ∨ o + n ≤ 257)).2
      (by omega)
    have hslice := h.slice_part _ _ (Utf8.encode (js "ustar\x00")) (by simp [headerParts])
      hapart (by decide) (by decide)
    rw [← h.slice_headerBlock (by omega)] at hslice
    exact field_written 1 _ hslice (by decide) (by decide)
  have hversion : text (slice (headerBlock entry) 263 2) = .ok (js "00") := by
    have hapart := (h.forall_parts (p := fun o n => o = 263 ∨ 263 + 2 ≤ o ∨ o + n ≤ 263)).2
      (by omega)
    have hslice := h.slice_part _ _ (Utf8.encode (js "00")) (by simp [headerParts])
      hapart (by decide) (by decide)
    rw [← h.slice_headerBlock (by omega)] at hslice
    rw [hslice]
    rfl
  have hkind : entryKind ((headerBlock entry).getD 156 0) = .ok entry.kind := by
    rw [h.flag_headerBlock]
    cases entry.kind <;> rfl
  have hlink : field (headerBlock entry) 157 100 =
      .ok (if entry.kind = .symlink then entry.target.getD [] else []) := by
    have hencode : linkBytes entry =
        Utf8.encode (if entry.kind = .symlink then entry.target.getD [] else []) := by
      unfold linkBytes
      split <;> rfl
    refine h.field_part _ _ _ (by simp [headerParts, hencode])
      ((h.forall_parts (p := fun o n => o = 157 ∨ 157 + 100 ≤ o ∨ o + n ≤ 157)).2 (by omega))
      (by rw [← hencode]; exact hlinkLength) ?_ ?_ (by decide)
    · split
      · exact htarget
      · rfl
    · split
      · exact htargetZero
      · simp
  have hdirectory := h.field_gap 345 155
    ((h.forall_parts (p := fun o n => 345 + 155 ≤ o ∨ o + n ≤ 345)).2 (by omega)) (by decide)
  have hname := h.field_part 0 100 _ (by simp [headerParts])
    ((h.forall_parts (p := fun o n => o = 0 ∨ 0 + 100 ≤ o ∨ o + n ≤ 0)).2 (by omega))
    hpathLength hpath hpathZero (by decide)
  have hmode := h.octal_part 100 6 entry.mode.toNat
    (by simp [headerParts])
    ((h.forall_parts (p := fun o n => o = 100 ∨ 100 + 8 ≤ o ∨ o + n ≤ 100)).2 (by omega))
    (by have := h.mode; omega) (by omega) (by decide)
  have huid := h.octal_part 108 6 entry.uid.toNat
    (by simp [headerParts])
    ((h.forall_parts (p := fun o n => o = 108 ∨ 108 + 8 ≤ o ∨ o + n ≤ 108)).2 (by omega))
    (by have := h.uid; omega) (by omega) (by decide)
  have hgid := h.octal_part 116 6 entry.gid.toNat
    (by simp [headerParts])
    ((h.forall_parts (p := fun o n => o = 116 ∨ 116 + 8 ≤ o ∨ o + n ≤ 116)).2 (by omega))
    (by have := h.gid; omega) (by omega) (by decide)
  have hsize := h.octal_part 124 10 entry.size.toNat
    (by simp [headerParts])
    ((h.forall_parts (p := fun o n => o = 124 ∨ 124 + 12 ≤ o ∨ o + n ≤ 124)).2 (by omega))
    (by have := h.size; omega) (by omega) (by decide)
  have hmtime := h.octal_part 136 10 0 (by simp [headerParts])
    ((h.forall_parts (p := fun o n => o = 136 ∨ 136 + 12 ≤ o ∨ o + n ≤ 136)).2 (by omega))
    (by decide) (by omega) (by decide)
  have hmajor := h.octal_part 329 6 0 (by simp [headerParts])
    ((h.forall_parts (p := fun o n => o = 329 ∨ 329 + 8 ≤ o ∨ o + n ≤ 329)).2 (by omega))
    (by decide) (by omega) (by decide)
  have hminor := h.octal_part 337 6 0 (by simp [headerParts])
    ((h.forall_parts (p := fun o n => o = 337 ∨ 337 + 8 ≤ o ∨ o + n ≤ 337)).2 (by omega))
    (by decide) (by omega) (by decide)
  have huname := h.field_gap 265 32
    ((h.forall_parts (p := fun o n => 265 + 32 ≤ o ∨ o + n ≤ 265)).2 (by omega)) (by decide)
  have hgname := h.field_gap 297 32
    ((h.forall_parts (p := fun o n => 297 + 32 ≤ o ∨ o + n ≤ 297)).2 (by omega)) (by decide)
  have hinert : (inertNumbers.forM fun range =>
      discard (octal (headerBlock entry) range.1 range.2)) = .ok () := by
    refine forM_discard_of ?_
    simp only [inertNumbers, List.forall_mem_cons, List.not_mem_nil, false_implies, implies_true,
      and_true]
    exact ⟨⟨_, huid⟩, ⟨_, hgid⟩, ⟨_, hmtime⟩, ⟨_, hmajor⟩, _, hminor⟩
  have htail : (headerBlock entry).drop 500 = List.replicate 12 0 := by
    have hslice := h.slice_gap 500 12
      ((h.forall_parts (p := fun o n => 500 + 12 ≤ o ∨ o + n ≤ 500)).2 (by omega)) (by decide)
    rw [← h.slice_headerBlock (by omega), slice, List.take_of_length_le] at hslice
    · exact hslice
    · rw [List.length_drop, h.length_headerBlock]
      decide
  have hmodeLe := h.mode
  have hsizeLt := h.size
  have hlimits : ¬(0o7777 < entry.mode.toNat ∨ maxOctalSize < entry.size.toNat ∨
      ((headerBlock entry).drop 500).any (· != 0) = true) := by
    rw [htail]
    simp only [maxOctalSize]
    simp
    omega
  unfold parseHeader
  rw [except_bind_ok hchecksum, except_refuseIf_bind (by simp [h.headerSum_headerBlock]),
    except_bind_ok hmagic, except_refuseIf_bind (by simp), except_bind_ok hversion,
    except_refuseIf_bind (by simp), except_bind_ok hkind, except_bind_ok hlink,
    except_refuseIf_bind (fun hboth => hboth.2 (if_neg hboth.1)), except_bind_ok hdirectory, except_bind_ok hname,
    except_bind_ok hmode, except_bind_ok hsize, except_bind_ok hinert, except_bind_ok huname,
    except_bind_ok hgname, except_refuseIf_bind hlimits,
    except_refuseIf_bind (by
      intro hboth
      exact hboth.2 (by rw [hpayload hboth.1]; rfl))]
  rfl

end

end AgentSdk.Tar
