import AgentSdk.Lib.Paced
import AgentSdk.Sandbox.Records

/-!
# Spill storage

Exact record input and output over spill files that move any positive number of
bytes at each call.  Each operation settles to a result that does not depend on
how far the calls get.

## Main results

* `writeAll_end` — writing at the end of a file appends the bytes.
* `readExact_slice` — reading returns the range of the file.
* `readRecord_mid` — a record written into a file is read back.
-/

namespace AgentSdk.Sandbox

open AgentSdk.Text AgentSdk.Paced

def maxSafeInteger : Nat := 2 ^ 53 - 1

/-- How many bytes each call of a spill file moves: some of those asked for. -/
structure Progress where
  amount : Nat → Nat → Nat
  pos : ∀ call count, 0 < count → 0 < amount call count
  le : ∀ call count, amount call count ≤ count

abbrev SpillM := Paced SandboxError

variable (progress : Progress)

/-! ### Spill files -/

def SpillFile.write (file chunk : Bytes) (position : Nat) : SpillM (Nat × Bytes) := do
  let call ← tick
  let bytesWritten := progress.amount call chunk.length
  pure (bytesWritten, overwrite file position (chunk.take bytesWritten))

def SpillFile.read (file : Bytes) (length position : Nat) : SpillM Bytes := do
  let call ← tick
  let bytesRead := progress.amount call (min length (file.length - position))
  pure (slice file position bytesRead)

/-! ### Exact input and output -/

def address (value : Nat) : SpillM Unit :=
  Paced.failIf (maxSafeInteger < value)
    (.range (js "Spill address exceeds its safe-integer representation."))

def writeLoop (file bytes : Bytes) (position written : Nat) : SpillM Bytes :=
  if _h : written < bytes.length then do
    let (bytesWritten, file) ← SpillFile.write progress file (bytes.drop written) (position + written)
    if _hreceipt : bytesWritten = 0 ∨ bytes.length - written < bytesWritten then
      throw (.spill (js "Spill write returned an invalid progress receipt."))
    else
      writeLoop file bytes position (written + bytesWritten)
  else pure file
  termination_by bytes.length - written

def writeAll (file bytes : Bytes) (position : Nat) : SpillM (Bytes × Nat) := do
  address (position + bytes.length)
  let file ← writeLoop progress file bytes position 0
  pure (file, position + bytes.length)

def readLoop (file : Bytes) (length position : Nat) (buffer : Bytes) : SpillM Bytes :=
  if _h : buffer.length < length then do
    let chunk ← SpillFile.read progress file (length - buffer.length) (position + buffer.length)
    if _hreceipt : chunk.length = 0 ∨ length - buffer.length < chunk.length then
      throw (.spill (js "Spill read returned truncated data or an invalid progress receipt."))
    else
      readLoop file length position (buffer ++ chunk)
  else pure buffer
  termination_by length - buffer.length
  decreasing_by simp only [List.length_append]; omega

def readExact (file : Bytes) (length position : Nat) : SpillM Bytes := do
  address (position + length)
  readLoop progress file length position []

theorem writeLoop_end (bytes : Bytes) (position : Nat) :
    ∀ (remaining written : Nat) (file : Bytes), bytes.length - written = remaining →
      file.length = position + written →
      Settles (writeLoop progress file bytes position written)
        (.ok (file ++ bytes.drop written)) := by
  intro remaining
  induction remaining using Nat.strong_induction_on with
  | _ remaining ih =>
    intro written file hremaining hfile
    rw [writeLoop]
    split
    · rename_i hmore
      intro n
      have hlength : (bytes.drop written).length = bytes.length - written := List.length_drop
      have hpos := progress.pos n (bytes.length - written) (by omega)
      have hle := progress.le n (bytes.length - written)
      generalize hcount : progress.amount n (bytes.length - written) = count at hpos hle
      have hstep : SpillFile.write progress file (bytes.drop written) (position + written) n =
          .ok ((count, file ++ (bytes.drop written).take count), n + 1) := by
        show Except.ok ((_, overwrite file _ _), _) = _
        rw [hlength, hcount, ← hfile, overwrite_end]
      have hrest := ih (bytes.length - (written + count)) (by omega) (written + count)
        (file ++ (bytes.drop written).take count) rfl (by simp; omega) (n + 1)
      obtain ⟨n', hn'⟩ := hrest
      refine ⟨n', ?_⟩
      show (SpillFile.write progress file (bytes.drop written) (position + written) n >>=
        fun p => _) = _
      rw [hstep]
      show (dite _ _ _ : SpillM Bytes) (n + 1) = _
      rw [dif_neg (by omega), hn', List.append_assoc, ← List.drop_drop, List.take_append_drop]
    · rename_i hdone
      rw [List.drop_eq_nil_of_le (by omega), List.append_nil]
      exact Settles.pure file

theorem readLoop_slice (file : Bytes) (length position : Nat)
    (hfit : position + length ≤ file.length) :
    ∀ (remaining read : Nat), length - read = remaining → read ≤ length →
      Settles (readLoop progress file length position (slice file position read))
        (.ok (slice file position length)) := by
  intro remaining
  induction remaining using Nat.strong_induction_on with
  | _ remaining ih =>
    intro read hremaining hread
    have hlength : (slice file position read).length = read := length_slice (by omega)
    rw [readLoop, hlength]
    split
    · rename_i hmore
      intro n
      have havailable : min (length - read) (file.length - (position + read)) = length - read := by
        omega
      have hpos := progress.pos n (length - read) (by omega)
      have hle := progress.le n (length - read)
      generalize hcount : progress.amount n (length - read) = count at hpos hle
      have hstep : SpillFile.read progress file (length - read) (position + read) n =
          .ok (slice file (position + read) count, n + 1) := by
        show Except.ok (slice file _ _, _) = _
        rw [havailable, hcount]
      have hchunk : (slice file (position + read) count).length = count :=
        length_slice (by omega)
      obtain ⟨n', hn'⟩ := ih (length - (read + count)) (by omega) (read + count) rfl (by omega)
        (n + 1)
      refine ⟨n', ?_⟩
      show (SpillFile.read progress file (length - read) (position + read) n >>= fun p => _) = _
      rw [hstep]
      show (dite _ _ _ : SpillM Bytes) (n + 1) = _
      rw [dif_neg (by omega), slice_append, hn']
    · rename_i hdone
      rw [show read = length by omega]
      exact Settles.pure _

theorem address_ok {value : Nat} (h : value ≤ maxSafeInteger) : Settles (address value) (.ok ()) :=
  Settles.failIf_of_not (by omega)

/-- Writing at the end of a file appends the bytes. -/
theorem writeAll_end (file bytes : Bytes) (h : file.length + bytes.length ≤ maxSafeInteger) :
    Settles (writeAll progress file bytes file.length)
      (.ok (file ++ bytes, file.length + bytes.length)) := by
  have hloop := writeLoop_end progress bytes file.length bytes.length 0 file rfl rfl
  exact (address_ok h).bind (hloop.bind (Settles.pure _))

theorem writeAll_too_far (file bytes : Bytes) (position : Nat)
    (h : maxSafeInteger < position + bytes.length) :
    ∃ e, Settles (writeAll progress file bytes position) (.error e) :=
  ⟨_, (Settles.failIf_of h).bind_error⟩

/-- Reading returns the range of the file. -/
theorem readExact_slice (file : Bytes) {length position : Nat}
    (hfit : position + length ≤ file.length) (haddress : position + length ≤ maxSafeInteger) :
    Settles (readExact progress file length position) (.ok (slice file position length)) := by
  refine (address_ok haddress).bind ?_
  simpa using readLoop_slice progress file length position hfit length 0 rfl (Nat.zero_le _)

/-! ### Records -/

structure RunCursor where
  position : Nat
  stop : Nat
  deriving DecidableEq, Repr

def writeRecord (file : Bytes) (record : EncodedRecord) (position : Nat) :
    SpillM (Bytes × Nat) := do
  let (file, position) ← writeAll progress file (recordHeader record) position
  let (file, position) ← writeAll progress file record.key position
  writeAll progress file record.target position

def kindOfByte (b : UInt8) : Option RecordKind :=
  if b = 1 then some .file else if b = 2 then some .directory
  else if b = 3 then some .symlink else none

/-- The lengths and the kind that a record header may give. -/
def validHeader (kind : RecordKind) (length targetLength : Nat) : Prop :=
  1 ≤ length ∧ length ≤ Limits.maxPathBytes ∧ targetLength ≤ Limits.maxSymlinkTargetBytes ∧
    (if kind = .symlink then targetLength ≠ 0 else targetLength = 0)

instance (kind : RecordKind) (length targetLength : Nat) :
    Decidable (validHeader kind length targetLength) := by
  unfold validHeader
  infer_instance

def readRecord (file : Bytes) (cursor : RunCursor) :
    SpillM (Option EncodedRecord × RunCursor) := do
  if cursor.position = cursor.stop then pure (none, cursor)
  else do
    Paced.failIf (cursor.stop - cursor.position < recordHeaderBytes)
      (.spill (js "Spill record header is truncated."))
    let header ← readExact progress file recordHeaderBytes cursor.position
    let length := readBe (slice header 0 4)
    let targetLength := readBe (slice header 4 4)
    match kindOfByte (header.getD 8 0) with
    | none => throw (.spill (js "Spill record metadata is invalid."))
    | some kind => do
        Paced.failIf (¬validHeader kind length targetLength ∨
            cursor.stop - cursor.position - recordHeaderBytes < length + targetLength)
          (.spill (js "Spill record metadata is invalid."))
        let key ← readExact progress file length (cursor.position + recordHeaderBytes)
        let target ← readExact progress file targetLength
          (cursor.position + recordHeaderBytes + length)
        address (cursor.position + recordHeaderBytes + length + targetLength)
        pure (some { kind := kind, key := key, target := target },
          { cursor with position := cursor.position + recordHeaderBytes + length + targetLength })

def writeOffset (file : Bytes) (ordinal position : Nat) : SpillM Bytes := do
  address position
  address (ordinal * 8)
  let (file, _) ← writeAll progress file (toBe 8 position) (ordinal * 8)
  pure file

def readOffset (file : Bytes) (ordinal : Nat) : SpillM Nat := do
  address (ordinal * 8)
  let bytes ← readExact progress file 8 (ordinal * 8)
  Paced.failIf (maxSafeInteger < readBe bytes)
    (.spill (js "Spill index offset exceeds its safe address representation."))
  pure (readBe bytes)

def writeDescriptor (file : Bytes) (position start stop : Nat) : SpillM (Bytes × Nat) := do
  address start
  address stop
  writeAll progress file (toBe 8 start ++ toBe 8 stop) position

def readDescriptor (file : Bytes) (position : Nat) : SpillM RunCursor := do
  let buffer ← readExact progress file descriptorBytes position
  let first := readBe (slice buffer 0 8)
  let last := readBe (slice buffer 8 8)
  Paced.failIf (maxSafeInteger < first ∨ maxSafeInteger < last ∨ last ≤ first)
    (.spill (js "Spill run descriptor exceeds its safe address representation."))
  pure { position := first, stop := last }

/-! ### What a record occupies -/

namespace EncodedRecord

def size (record : EncodedRecord) : Nat :=
  recordHeaderBytes + record.key.length + record.target.length

/-- The bytes of a record in a spill file. -/
def bytes (record : EncodedRecord) : Bytes := recordHeader record ++ record.key ++ record.target

/-- Records whose header can be read back. -/
def Valid (record : EncodedRecord) : Prop :=
  validHeader record.kind record.key.length record.target.length

end EncodedRecord

open EncodedRecord

@[simp] theorem length_recordHeader (record : EncodedRecord) :
    (recordHeader record).length = recordHeaderBytes := by
  simp [recordHeader, recordHeaderBytes]

@[simp] theorem length_bytes (record : EncodedRecord) : record.bytes.length = record.size := by
  simp [EncodedRecord.bytes, size, Nat.add_assoc]

theorem size_pos (record : EncodedRecord) : 9 ≤ record.size := by
  unfold size recordHeaderBytes
  omega

theorem kindOfByte_kindByte (kind : RecordKind) : kindOfByte (kindByte kind) = some kind := by
  cases kind <;> rfl

/-- The records of paths and targets fit the headers. -/
theorem encodeRecord_valid (record : MetadataRecord) : (encodeRecord record).Valid := by
  have hkey : (encodeRecord record).key.length = utf8Length record.path.text := by
    simp [encodeRecord, Utf8.length_encode]
  have hpos := length_le_utf8Length record.path.text
  have htext := record.path.text_pos
  unfold EncodedRecord.Valid validHeader
  rw [hkey]
  refine ⟨by omega, record.path.text_bytes, ?_⟩
  cases record with
  | file | directory => simp [encodeRecord, MetadataRecord.kind]
  | symlink path target =>
    have htarget := length_le_utf8Length target.text
    have htargetPos := target.text_pos
    have hbytes := target.text_bytes
    simp only [encodeRecord, MetadataRecord.kind, Utf8.length_encode, if_true]
    omega

/-! ### Records in a file -/

/-- Writing a record at the end of a file appends its bytes, or fails when the
address is too large. -/
theorem writeRecord_end (file : Bytes) (record : EncodedRecord)
    (h : file.length + record.size ≤ maxSafeInteger) :
    Settles (writeRecord progress file record file.length)
      (.ok (file ++ record.bytes, file.length + record.size)) := by
  have hheader := length_recordHeader record
  unfold size at h
  have hfirst := writeAll_end progress file (recordHeader record) (by omega)
  have hsecond := writeAll_end progress (file ++ recordHeader record) record.key
    (by simp only [List.length_append]; omega)
  have hthird := writeAll_end progress (file ++ recordHeader record ++ record.key) record.target
    (by simp only [List.length_append]; omega)
  simp only [List.length_append] at hsecond hthird
  have hresult : (file ++ record.bytes, file.length + record.size) =
      (file ++ recordHeader record ++ record.key ++ record.target,
        file.length + (recordHeader record).length + record.key.length + record.target.length) := by
    simp [EncodedRecord.bytes, size, Nat.add_assoc]
  rw [hresult]
  exact hfirst.bind (hsecond.bind hthird)

theorem writeRecord_too_far (file : Bytes) (record : EncodedRecord)
    (h : maxSafeInteger < file.length + record.size) :
    ∃ e, Settles (writeRecord progress file record file.length) (.error e) := by
  have hheader := length_recordHeader record
  unfold size at h
  by_cases hfirst : maxSafeInteger < file.length + (recordHeader record).length
  · obtain ⟨e, he⟩ := writeAll_too_far progress file (recordHeader record) file.length hfirst
    exact ⟨e, he.bind_error⟩
  have hheaderWritten := writeAll_end progress file (recordHeader record) (by omega)
  by_cases hsecond : maxSafeInteger <
      (file ++ recordHeader record).length + record.key.length
  · obtain ⟨e, he⟩ := writeAll_too_far progress (file ++ recordHeader record) record.key
      (file ++ recordHeader record).length hsecond
    rw [List.length_append] at he
    exact ⟨e, hheaderWritten.bind he.bind_error⟩
  have hkeyWritten := writeAll_end progress (file ++ recordHeader record) record.key (by omega)
  simp only [List.length_append] at hkeyWritten hsecond
  obtain ⟨e, he⟩ := writeAll_too_far progress (file ++ recordHeader record ++ record.key)
    record.target (file.length + (recordHeader record).length + record.key.length) (by omega)
  exact ⟨e, hheaderWritten.bind (hkeyWritten.bind he)⟩

theorem readExact_mid {file before bytes after : Bytes} {position length : Nat}
    (hfile : file = before ++ bytes ++ after) (hposition : position = before.length)
    (hlength : length = bytes.length) (haddress : position + length ≤ maxSafeInteger) :
    Settles (readExact progress file length position) (.ok bytes) := by
  subst hfile hposition hlength
  have hread := readExact_slice progress (before ++ bytes ++ after)
    (show before.length + bytes.length ≤ (before ++ bytes ++ after).length by simp) haddress
  rwa [slice_mid] at hread

/-- A record written into a file is read back. -/
theorem readRecord_mid (before after : Bytes) {record : EncodedRecord} (stop : Nat)
    (hvalid : record.Valid) (hstop : before.length + record.size ≤ stop)
    (hsafe : stop ≤ maxSafeInteger) :
    Settles (readRecord progress (before ++ record.bytes ++ after) ⟨before.length, stop⟩)
      (.ok (some record, ⟨before.length + record.size, stop⟩)) := by
  have hheader := length_recordHeader record
  have hbytes : before ++ record.bytes ++ after =
      before ++ recordHeader record ++ (record.key ++ record.target ++ after) := by
    simp [EncodedRecord.bytes]
  have hkeyBytes : before ++ record.bytes ++ after =
      before ++ recordHeader record ++ record.key ++ (record.target ++ after) := by
    simp [EncodedRecord.bytes]
  have htargetBytes : before ++ record.bytes ++ after =
      before ++ recordHeader record ++ record.key ++ record.target ++ after := by
    simp [EncodedRecord.bytes]
  have hlength : readBe (slice (recordHeader record) 0 4) = record.key.length := by
    have hkey := hvalid.2.1
    have hfour : slice (recordHeader record) 0 4 = toBe 4 record.key.length := by
      simp [recordHeader, slice]
    rw [hfour, readBe_toBe]
    unfold Limits.maxPathBytes at hkey
    omega
  have htarget : readBe (slice (recordHeader record) 4 4) = record.target.length := by
    have htarget := hvalid.2.2.1
    have hfour : slice (recordHeader record) 4 4 = toBe 4 record.target.length := by
      simp [recordHeader, slice]
    rw [hfour, readBe_toBe]
    unfold Limits.maxSymlinkTargetBytes at htarget
    omega
  have hkind : (recordHeader record).getD 8 0 = kindByte record.kind := by
    simp [recordHeader]
  unfold size at hstop
  unfold readRecord
  rw [if_neg (by dsimp only; unfold recordHeaderBytes at hstop; omega)]
  refine Settles.failIf_bind (by dsimp only; omega) ?_
  refine (readExact_mid progress hbytes rfl hheader.symm (by omega)).bind ?_
  dsimp only
  rw [hlength, htarget, hkind, kindOfByte_kindByte]
  refine Settles.failIf_bind (by rw [not_or, not_not]; exact ⟨hvalid, by omega⟩) ?_
  refine (readExact_mid progress hkeyBytes (by simp) rfl (by omega)).bind ?_
  refine (readExact_mid progress htargetBytes (by simp; omega) rfl (by omega)).bind ?_
  refine (address_ok (by omega)).bind ?_
  rw [size, ← Nat.add_assoc, ← Nat.add_assoc]
  exact Settles.pure _

theorem readRecord_end (file : Bytes) (position : Nat) :
    Settles (readRecord progress file ⟨position, position⟩) (.ok (none, ⟨position, position⟩)) := by
  unfold readRecord
  rw [if_pos rfl]
  exact Settles.pure _

/-! ### Descriptors and offsets in a file -/

/-- The bytes of a run descriptor. -/
def descriptor (start stop : Nat) : Bytes := toBe 8 start ++ toBe 8 stop

@[simp] theorem length_descriptor (start stop : Nat) :
    (descriptor start stop).length = descriptorBytes := by
  simp [descriptor, descriptorBytes]

theorem lt_of_le_maxSafeInteger {n : Nat} (h : n ≤ maxSafeInteger) : n < 256 ^ 8 := by
  unfold maxSafeInteger at h
  omega

theorem writeDescriptor_end (file : Bytes) (start stop : Nat) (hstart : start ≤ maxSafeInteger)
    (hstop : stop ≤ maxSafeInteger) (h : file.length + descriptorBytes ≤ maxSafeInteger) :
    Settles (writeDescriptor progress file file.length start stop)
      (.ok (file ++ descriptor start stop, file.length + descriptorBytes)) := by
  have hwrite := writeAll_end progress file (descriptor start stop) (by simpa using h)
  rw [length_descriptor] at hwrite
  exact (address_ok hstart).bind ((address_ok hstop).bind hwrite)

theorem readDescriptor_mid (before after : Bytes) {start stop : Nat} (h : start < stop)
    (hstop : stop ≤ maxSafeInteger) (hsafe : before.length + descriptorBytes ≤ maxSafeInteger) :
    Settles (readDescriptor progress (before ++ descriptor start stop ++ after) before.length)
      (.ok ⟨start, stop⟩) := by
  have hfirst : readBe (slice (descriptor start stop) 0 8) = start := by
    rw [show slice (descriptor start stop) 0 8 = toBe 8 start by simp [descriptor, slice]]
    exact readBe_toBe (lt_of_le_maxSafeInteger (by omega))
  have hlast : readBe (slice (descriptor start stop) 8 8) = stop := by
    rw [show slice (descriptor start stop) 8 8 = toBe 8 stop by simp [descriptor, slice]]
    exact readBe_toBe (lt_of_le_maxSafeInteger hstop)
  refine (readExact_mid progress rfl rfl (length_descriptor start stop).symm hsafe).bind ?_
  rw [hfirst, hlast]
  exact Settles.failIf_bind (by omega) (Settles.pure _)

theorem writeOffset_end (file : Bytes) (ordinal position : Nat) (hfile : file.length = ordinal * 8)
    (hposition : position ≤ maxSafeInteger) (h : ordinal * 8 + 8 ≤ maxSafeInteger) :
    Settles (writeOffset progress file ordinal position) (.ok (file ++ toBe 8 position)) := by
  have hwrite := writeAll_end progress file (toBe 8 position) (by simpa [hfile] using h)
  rw [hfile] at hwrite
  exact (address_ok hposition).bind ((address_ok (by omega)).bind (hwrite.bind (Settles.pure _)))

theorem readOffset_mid {before after : Bytes} {ordinal position : Nat}
    (hbefore : before.length = ordinal * 8) (hposition : position ≤ maxSafeInteger)
    (h : ordinal * 8 + 8 ≤ maxSafeInteger) :
    Settles (readOffset progress (before ++ toBe 8 position ++ after) ordinal) (.ok position) := by
  have hvalue : readBe (toBe 8 position) = position :=
    readBe_toBe (lt_of_le_maxSafeInteger hposition)
  refine (address_ok (by omega)).bind ?_
  refine (readExact_mid progress rfl hbefore.symm (length_toBe 8 position).symm h).bind ?_
  rw [hvalue]
  exact Settles.failIf_bind (by omega) (Settles.pure _)

end AgentSdk.Sandbox
