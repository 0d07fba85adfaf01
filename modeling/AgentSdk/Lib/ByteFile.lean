import AgentSdk.Lib.Utf8
import Mathlib.Order.Defs.LinearOrder

/-!
# Files as byte arrays

Numbers in big-endian bytes, reading a range of a file and writing over one.

## Main results

* `readBe_toBe` — a number that fits is read back.
* `slice_mid` — the range of a file between two parts of it.
* `overwrite_end` — writing at the end of a file appends.
* `slice_writeParts_here` — reading a part of a block that was written in parts.
* `slice_overwrite_here`, `slice_overwrite_apart` — reading after writing inside
  a file.
-/

namespace AgentSdk

/-- Bytes are ordered by their values. -/
instance byteLinearOrder : LinearOrder UInt8 where
  le_refl := UInt8.le_refl
  le_trans _ _ _ := UInt8.le_trans
  le_antisymm _ _ := UInt8.le_antisymm
  le_total := UInt8.le_total
  lt_iff_le_not_ge a b := by
    rw [UInt8.lt_iff_toNat_lt, UInt8.le_iff_toNat_le, UInt8.le_iff_toNat_le]
    omega
  toDecidableLE := inferInstance
  toDecidableEq := inferInstance
  toDecidableLT := inferInstance

/-- The last `k` base-256 digits of a number, the highest first. -/
def toBe : Nat → Nat → Bytes
  | 0, _ => []
  | k + 1, n => toBe k (n / 256) ++ [UInt8.ofNat (n % 256)]

/-- The number that big-endian bytes spell. -/
def readBe (bytes : Bytes) : Nat := bytes.foldl (fun n b => n * 256 + b.toNat) 0

@[simp] theorem length_toBe (k n : Nat) : (toBe k n).length = k := by
  induction k generalizing n with
  | zero => rfl
  | succ k ih => simp [toBe, ih]

theorem readBe_append_singleton (bytes : Bytes) (b : UInt8) :
    readBe (bytes ++ [b]) = readBe bytes * 256 + b.toNat := by
  simp [readBe]

variable {count n position start : Nat} {bytes file : Bytes} {writes : List (Nat × Bytes)}

theorem readBe_toBe {k : Nat} (h : n < 256 ^ k) : readBe (toBe k n) = n := by
  induction k generalizing n with
  | zero => simp_all [toBe, readBe]
  | succ k ih =>
    have hhigh : n / 256 < 256 ^ k := by
      rw [Nat.div_lt_iff_lt_mul (by decide), ← Nat.pow_succ]
      exact h
    have hlow : (UInt8.ofNat (n % 256)).toNat = n % 256 := by simp
    rw [toBe, readBe_append_singleton, ih hhigh, hlow]
    omega

/-- `count` bytes of a file from a position on. -/
def slice (file : Bytes) (position count : Nat) : Bytes := (file.drop position).take count

theorem length_slice (h : position + count ≤ file.length) :
    (slice file position count).length = count := by
  simp [slice]
  omega

theorem slice_mid (before bytes after : Bytes) :
    slice (before ++ bytes ++ after) before.length bytes.length = bytes := by
  simp [slice]

@[simp] theorem slice_zero (file : Bytes) (position : Nat) : slice file position 0 = [] := by
  simp [slice]

theorem slice_append (file : Bytes) (position m n : Nat) :
    slice file position m ++ slice file (position + m) n = slice file position (m + n) := by
  simp [slice, List.take_add, List.drop_drop]

/-- Write bytes over a file from a position on; what lies between the end of
the file and the position becomes zero. -/
def overwrite (file : Bytes) (position : Nat) (bytes : Bytes) : Bytes :=
  file.take position ++ List.replicate (position - file.length) 0 ++ bytes ++
    file.drop (position + bytes.length)

theorem overwrite_end (file bytes : Bytes) : overwrite file file.length bytes = file ++ bytes := by
  simp [overwrite]

/-! ### Writing inside a file -/

theorem overwrite_inside (h : position + bytes.length ≤ file.length) :
    overwrite file position bytes =
      file.take position ++ bytes ++ file.drop (position + bytes.length) := by
  have hpad : position - file.length = 0 := by omega
  simp [overwrite, hpad]

theorem overwrite_nil (h : position ≤ file.length) : overwrite file position [] = file := by
  rw [overwrite_inside (by simpa using h)]
  simp

theorem length_overwrite (h : position + bytes.length ≤ file.length) :
    (overwrite file position bytes).length = file.length := by
  rw [overwrite_inside h]
  simp
  omega

theorem getElem?_overwrite (h : position + bytes.length ≤ file.length) (i : Nat) :
    (overwrite file position bytes)[i]? =
      if position ≤ i ∧ i < position + bytes.length then bytes[i - position]? else file[i]? := by
  have htake : (file.take position).length = position := by
    simp
    omega
  rw [overwrite_inside h]
  by_cases hbefore : i < position
  · rw [List.append_assoc, List.getElem?_append_left (by omega), if_neg (by omega)]
    simp [hbefore]
  · by_cases hinside : i < position + bytes.length
    · rw [if_pos ⟨by omega, hinside⟩, List.getElem?_append_left (by simp; omega),
        List.getElem?_append_right (by omega), htake]
    · rw [if_neg (by omega), List.getElem?_append_right (by simp; omega), List.getElem?_drop]
      congr 1
      simp
      omega

theorem getElem?_slice (file : Bytes) (position count i : Nat) :
    (slice file position count)[i]? = if i < count then file[position + i]? else none := by
  simp [slice, List.getElem?_take]

/-- A range apart from what was written is unchanged. -/
theorem slice_overwrite_apart (h : position + bytes.length ≤ file.length)
    (hapart : start + count ≤ position ∨ position + bytes.length ≤ start) :
    slice (overwrite file position bytes) start count = slice file start count := by
  apply List.ext_getElem?
  intro i
  rw [getElem?_slice, getElem?_slice, getElem?_overwrite h]
  by_cases hi : i < count
  · rw [if_pos hi, if_pos hi, if_neg (by omega)]
  · rw [if_neg hi, if_neg hi]

/-- A range that starts where bytes were written has them in front. -/
theorem slice_overwrite_here (h : position + bytes.length ≤ file.length)
    (hcount : bytes.length ≤ count) :
    slice (overwrite file position bytes) position count =
      bytes ++ slice file (position + bytes.length) (count - bytes.length) := by
  apply List.ext_getElem?
  intro i
  rw [getElem?_slice, getElem?_overwrite h]
  by_cases hi : i < bytes.length
  · rw [if_pos (by omega), if_pos (by omega), List.getElem?_append_left hi]
    congr 1
    omega
  · rw [List.getElem?_append_right (by omega), getElem?_slice]
    by_cases hin : i < count
    · rw [if_pos hin, if_neg (by omega), if_pos (by omega)]
      congr 1
      omega
    · rw [if_neg hin, if_neg (by omega)]

theorem slice_replicate (b : UInt8) (h : position + count ≤ n) :
    slice (List.replicate n b) position count = List.replicate count b := by
  simp [slice]
  omega

/-! ### A block written part by part -/

/-- Writes made one after the other. -/
def writeParts (file : Bytes) (writes : List (Nat × Bytes)) : Bytes :=
  writes.foldl (fun file write => overwrite file write.1 write.2) file

theorem length_writeParts (file : Bytes) (writes : List (Nat × Bytes))
    (h : ∀ w ∈ writes, w.1 + w.2.length ≤ file.length) :
    (writeParts file writes).length = file.length := by
  induction writes generalizing file with
  | nil => rfl
  | cons w writes ih =>
    have hlength := length_overwrite (h w (by simp))
    rw [← hlength]
    exact ih _ fun v hv => by rw [hlength]; exact h v (by simp [hv])

/-- A range apart from every write is unchanged. -/
theorem slice_writeParts_apart (h : ∀ w ∈ writes, w.1 + w.2.length ≤ file.length)
    (hapart : ∀ w ∈ writes, start + count ≤ w.1 ∨ w.1 + w.2.length ≤ start) :
    slice (writeParts file writes) start count = slice file start count := by
  induction writes generalizing file with
  | nil => rfl
  | cons w writes ih =>
    have hlength := length_overwrite (h w (by simp))
    have hrest := @ih (overwrite file w.1 w.2)
      (fun v hv => by rw [hlength]; exact h v (by simp [hv]))
      fun v hv => hapart v (by simp [hv])
    exact hrest.trans (slice_overwrite_apart (h w (by simp)) (hapart w (by simp)))

/-- A range of a zeroed block that one write starts and no other touches. -/
theorem slice_writeParts_here (before after : List (Nat × Bytes))
    (h : ∀ w ∈ before ++ (start, bytes) :: after, w.1 + w.2.length ≤ n)
    (hapart : ∀ w ∈ before ++ after, start + count ≤ w.1 ∨ w.1 + w.2.length ≤ start)
    (hbytes : bytes.length ≤ count) (hcount : start + count ≤ n) :
    slice (writeParts (List.replicate n 0) (before ++ (start, bytes) :: after)) start count =
      bytes ++ List.replicate (count - bytes.length) 0 := by
  have hbefore : (writeParts (List.replicate n (0 : UInt8)) before).length = n := by
    rw [length_writeParts _ _ (by simpa using fun a b hw => h (a, b) (by simp [hw])),
      List.length_replicate]
  have hfit := h (start, bytes) (by simp)
  have hhere : start + bytes.length ≤ (writeParts (List.replicate n (0 : UInt8)) before).length := by
    rw [hbefore]
    exact hfit
  have hsplit : writeParts (List.replicate n (0 : UInt8)) (before ++ (start, bytes) :: after) =
      writeParts (overwrite (writeParts (List.replicate n 0) before) start bytes) after := by
    simp [writeParts]
  rw [hsplit, slice_writeParts_apart
      (by rw [length_overwrite hhere, hbefore]; exact fun w hw => h w (by simp [hw]))
      fun w hw => hapart w (by simp [hw]),
    slice_overwrite_here hhere hbytes,
    slice_writeParts_apart (by rw [List.length_replicate]; exact fun w hw => h w (by simp [hw]))
      (fun w hw => (hapart w (by simp [hw])).imp (by omega) (by omega)),
    slice_replicate 0 (by omega)]

/-- The same for a part of a list of writes at different places. -/
theorem slice_writeParts_mem (h : ∀ w ∈ writes, w.1 + w.2.length ≤ n)
    (hmem : (start, bytes) ∈ writes) (hnodup : (writes.map Prod.fst).Nodup)
    (hapart : ∀ w ∈ writes, w.1 ≠ start → start + count ≤ w.1 ∨ w.1 + w.2.length ≤ start)
    (hbytes : bytes.length ≤ count) (hcount : start + count ≤ n) :
    slice (writeParts (List.replicate n 0) writes) start count =
      bytes ++ List.replicate (count - bytes.length) 0 := by
  obtain ⟨before, after, rfl⟩ := List.append_of_mem hmem
  have hother : ∀ w ∈ before ++ after, w.1 ≠ start := by
    intro w hw heq
    rw [List.map_append, List.map_cons] at hnodup
    have hnot := (List.nodup_middle.1 hnodup)
    rw [List.nodup_cons] at hnot
    have hplace : w.1 ∈ (before ++ after).map Prod.fst := List.mem_map_of_mem hw
    refine hnot.1 ?_
    rw [← List.map_append]
    exact heq ▸ hplace
  refine slice_writeParts_here before after h ?_ hbytes hcount
  intro w hw
  have hin : w ∈ before ++ (start, bytes) :: after := by
    rcases List.mem_append.1 hw with hbefore | hafter
    · simp [hbefore]
    · simp [hafter]
  exact hapart w hin (hother w hw)

/-- A range of a zeroed block that no write touches. -/
theorem slice_writeParts_zero (h : ∀ w ∈ writes, w.1 + w.2.length ≤ n)
    (hapart : ∀ w ∈ writes, start + count ≤ w.1 ∨ w.1 + w.2.length ≤ start)
    (hcount : start + count ≤ n) :
    slice (writeParts (List.replicate n 0) writes) start count = List.replicate count 0 := by
  rw [slice_writeParts_apart (by rw [List.length_replicate]; exact h) hapart,
    slice_replicate 0 hcount]

end AgentSdk
