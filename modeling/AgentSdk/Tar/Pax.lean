import AgentSdk.Tar.Header

/-!
# PAX records

Records that give the next entry a longer path or link target, with a length
prefix that counts its own digits.

## Main results

* `recordSize_eq` — the length prefix settles on the length of the record.
* `parsePax_encodePax` — written metadata is read back.
-/

namespace AgentSdk.Tar

open AgentSdk.Text AgentSdk.Sandbox

structure PaxMetadata where
  path : Option JsString
  linkpath : Option JsString
  deriving DecidableEq

/-! ### Reading -/

/-- One record: its key, its value and how many bytes it takes. -/
structure PaxRecord where
  key : JsString
  value : JsString
  size : Nat
  size_pos : 0 < size

/-- The pattern of a length: digits without a leading zero. -/
def canonicalDecimal : JsString → Bool
  | [] => false
  | first :: rest => isDigit first && first != 48 && rest.all isDigit

def isTimestampKey (key : JsString) : Bool :=
  key == js "mtime" || key == js "atime" || key == js "ctime"

/-- The pattern of a timestamp: up to 16 digits and up to 9 behind a point. -/
def timestampPattern (value : JsString) : Bool :=
  let unsigned := if value.head? = some 45 then value.tail else value
  let whole := unsigned.takeWhile isDigit
  let behind := unsigned.dropWhile isDigit
  decide (1 ≤ whole.length) && decide (whole.length ≤ 16) &&
    match behind with
    | [] => true
    | point :: fraction =>
      point == 46 && decide (1 ≤ fraction.length) && decide (fraction.length ≤ 9) &&
        fraction.all isDigit

/-- Read the record that a non-empty rest of the data starts with. -/
def readPaxRecord (bytes : Bytes) : Except TarError PaxRecord := do
  let space := bytes.idxOf 32
  refuseIf (space = bytes.length ∨ 5 < space) (archiveError "PAX requires bounded decimal lengths.")
  let digits ← text (bytes.take space)
  refuseIf (canonicalDecimal digits = false)
    (archiveError "PAX length must be canonical decimal.")
  let size := readRadix 10 digits
  if h : bytes.length < size ∨ size ≤ space + 2 ∨ bytes.getD (size - 1) 0 ≠ 10 then
    unsafeArchive "PAX length or newline mismatch."
  else do
    let record ← text (slice bytes (space + 1) (size - 1 - (space + 1)))
    let equals := record.idxOf 61
    refuseIf (equals = record.length ∨ equals = 0) (archiveError "PAX keys must be unique.")
    return {
      key := record.take equals
      value := record.drop (equals + 1)
      size
      size_pos := by omega }

def parsePaxFrom (bytes : Bytes) (keys : List JsString) (metadata : PaxMetadata) :
    Except TarError PaxMetadata :=
  if _hbytes : bytes = [] then .ok metadata
  else
    match readPaxRecord bytes with
    | .error e => .error e
    | .ok record =>
      if record.key ∈ keys then unsafeArchive "PAX keys must be unique."
      else if record.key = js "path" then
        parsePaxFrom (bytes.drop record.size) (record.key :: keys)
          { metadata with path := some record.value }
      else if record.key = js "linkpath" then
        parsePaxFrom (bytes.drop record.size) (record.key :: keys)
          { metadata with linkpath := some record.value }
      else if isTimestampKey record.key && timestampPattern record.value then
        parsePaxFrom (bytes.drop record.size) (record.key :: keys) metadata
      else
        unsafeArchive
          "only path, linkpath and inert timestamps are supported in PAX records."
termination_by bytes.length
decreasing_by
  all_goals
    have hpos := record.size_pos
    have hlength := List.length_pos_iff.2 _hbytes
    rw [List.length_drop]
    omega

def parsePax (bytes : Bytes) : Except TarError PaxMetadata :=
  parsePaxFrom bytes [] ⟨none, none⟩

/-! ### Writing -/

/-- The digits of a number. -/
def digitCount (n : Nat) : Nat := (natDecimal n).length

/-- The loop that settles a record's length: `payload` bytes and the digits of
the length itself. -/
def sizeLoop (payload : Nat) : Nat → Nat → Nat
  | 0, size => size
  | rounds + 1, size =>
    if digitCount size + payload ≠ size then
      sizeLoop payload rounds (digitCount size + payload)
    else size

def recordSize (payload : Nat) : Nat := sizeLoop payload (payload + 4) (payload + 1)

/-- What a record holds behind its length. -/
def recordPayload (key value : JsString) : JsString :=
  js " " ++ key ++ js "=" ++ value ++ js "\n"

def record (key value : JsString) : JsString :=
  natDecimal (recordSize (utf8Length (recordPayload key value))) ++ recordPayload key value

def encodePax (overrides : PaxMetadata) : Bytes :=
  Utf8.encode ((overrides.path.map (record (js "path"))).getD [] ++
    (overrides.linkpath.map (record (js "linkpath"))).getD [])

/-! ### The length prefix -/

theorem digitCount_pos (n : Nat) : 0 < digitCount n := by
  rw [digitCount, List.length_pos_iff]
  exact natDecimal_ne_nil n

theorem digitCount_le_iff {n k : Nat} (hk : 0 < k) : digitCount n ≤ k ↔ n < 10 ^ k :=
  length_radix_le_iff (b := 10) (by omega) hk

theorem digitCount_mono {m n : Nat} (h : m ≤ n) : digitCount m ≤ digitCount n := by
  rw [digitCount_le_iff (digitCount_pos n)]
  exact h.trans_lt ((digitCount_le_iff (digitCount_pos n)).1 (Nat.le_refl _))

/-- A number has at most half as many digits, and one more. -/
theorem digitCount_le_half (n : Nat) : digitCount n ≤ n / 2 + 1 := by
  rw [digitCount_le_iff (Nat.succ_pos _)]
  have hpow : ∀ k, 2 * k + 1 < 10 ^ (k + 1) := by
    intro k
    induction k with
    | zero => decide
    | succ k ih =>
      rw [Nat.pow_succ]
      omega
  have hhalf := hpow (n / 2)
  omega

/-- The loop settles: it only grows, and it cannot grow for ever. -/
theorem sizeLoop_eq (payload rounds : Nat) :
    ∀ size, size ≤ digitCount size + payload → 2 * payload + 4 ≤ size + rounds →
      digitCount (sizeLoop payload rounds size) + payload = sizeLoop payload rounds size := by
  induction rounds with
  | zero =>
    intro size hle henough
    have hhalf := digitCount_le_half size
    simp only [sizeLoop]
    omega
  | succ rounds ih =>
    intro size hle henough
    rw [sizeLoop]
    by_cases hsettled : digitCount size + payload = size
    · rw [if_neg (by simpa using hsettled), hsettled]
    · rw [if_pos hsettled]
      have hmono := digitCount_mono hle
      exact ih _ (by omega) (by omega)

/-- The length prefix counts its own digits. -/
theorem recordSize_eq (payload : Nat) :
    digitCount (recordSize payload) + payload = recordSize payload := by
  have hpos := digitCount_pos (payload + 1)
  exact sizeLoop_eq payload (payload + 4) (payload + 1) (by omega) (by omega)

/-- The length of a record is its prefix. -/
theorem utf8Length_record {key value : JsString} :
    utf8Length (record key value) = recordSize (utf8Length (recordPayload key value)) := by
  have hdigits := ascii_size (natDecimal (recordSize (utf8Length (recordPayload key value))))
    fun u hu => by
      have hdigit := isDigit_of_mem_natDecimal hu
      simp only [isDigit, Bool.and_eq_true, decide_eq_true_eq] at hdigit
      omega
  rw [record, utf8Length_append _ _ hdigits.1, hdigits.2]
  exact recordSize_eq _


/-! ### Reading back -/

theorem natDecimal_ascii {n : Nat} {u : UInt16} (hu : u ∈ natDecimal n) : u.toNat < 0x80 := by
  have hdigit := isDigit_of_mem_natDecimal hu
  simp only [isDigit, Bool.and_eq_true, decide_eq_true_eq] at hdigit
  omega

/-- The spelling of a positive number is canonical. -/
theorem canonicalDecimal_natDecimal {n : Nat} (hn : n ≠ 0) :
    canonicalDecimal (natDecimal n) = true := by
  have hall : ∀ u ∈ natDecimal n, isDigit u = true := fun u => isDigit_of_mem_natDecimal
  have hspell : natDecimal n = (Nat.digits 10 n).reverse.map digitUnit := by
    rw [natDecimal, if_neg hn]
  have hne : Nat.digits 10 n ≠ [] := Nat.digits_ne_nil_iff_ne_zero.2 hn
  have hlast := Nat.getLast_digit_ne_zero 10 hn
  have hhead : (natDecimal n).head? = some (digitUnit ((Nat.digits 10 n).getLast hne)) := by
    rw [hspell, List.head?_map, List.head?_reverse, List.getLast?_eq_some_getLast hne]
    rfl
  cases hdigits : natDecimal n with
  | nil => exact absurd hdigits (natDecimal_ne_nil n)
  | cons first rest =>
    rw [hdigits] at hhead hall
    have hlt := Nat.digits_lt_base (by omega : 1 < 10) (List.getLast_mem hne)
    have hfirst : first.toNat = 48 + (Nat.digits 10 n).getLast hne := by
      rw [List.head?_cons] at hhead
      rw [Option.some.inj hhead, toNat_digitUnit hlt]
    have hne48 : first ≠ 48 := by
      rintro rfl
      have hzero : (48 : UInt16).toNat = 48 := rfl
      omega
    simp only [canonicalDecimal, Bool.and_eq_true, bne_iff_ne, List.all_eq_true]
    exact ⟨⟨hall first (by simp), hne48⟩, fun u hu => hall u (by simp [hu])⟩

/-- A key that a record can be written for. -/
structure PlainKey (key : JsString) : Prop where
  nonempty : key ≠ []
  ascii : ∀ u ∈ key, u.toNat < 0x80
  equals_free : (61 : UInt16) ∉ key

theorem plainKey_path : PlainKey (js "path") :=
  ⟨by decide, forall_of_all (by decide), by decide⟩

theorem plainKey_linkpath : PlainKey (js "linkpath") :=
  ⟨by decide, forall_of_all (by decide), by decide⟩

/-- The bytes of a record, part by part. -/
theorem encode_record {key value : JsString} (hkey : PlainKey key)
    (hvalue : wellFormed value = true) :
    Utf8.encode (record key value) =
      Utf8.encode (natDecimal (recordSize (utf8Length (recordPayload key value)))) ++
        32 :: (Utf8.encode (key ++ 61 :: value) ++ [10]) := by
  have hdigits := (ascii_size (natDecimal (recordSize (utf8Length (recordPayload key value))))
    fun u hu => natDecimal_ascii hu).1
  have hbody : wellFormed (key ++ 61 :: value) = true :=
    wellFormed_append key _ (ascii_size key hkey.ascii).1
      (wellFormed_append [61] value (by decide) hvalue)
  have hpayload : recordPayload key value = [32] ++ ((key ++ 61 :: value) ++ [10]) := by
    show [32] ++ key ++ [61] ++ value ++ [10] = _
    simp
  rw [record, Utf8.encode_append hdigits, hpayload, Utf8.encode_append (by decide),
    Utf8.encode_append hbody]
  rfl

/-- A written record is read, whatever follows. -/
theorem readPaxRecord_record {key value : JsString} (hkey : PlainKey key)
    (hvalue : wellFormed value = true)
    (hsize : recordSize (utf8Length (recordPayload key value)) < 10 ^ 5) (rest : Bytes) :
    ∃ hpos, readPaxRecord (Utf8.encode (record key value) ++ rest) =
      .ok ⟨key, value, (Utf8.encode (record key value)).length, hpos⟩ := by
  let size := recordSize (utf8Length (recordPayload key value))
  let digits := Utf8.encode (natDecimal size)
  let body := key ++ 61 :: value
  have hascii : ∀ u ∈ natDecimal size, u.toNat < 0x80 := fun u hu => natDecimal_ascii hu
  have hdigitsWf := ascii_size (natDecimal size) hascii
  have hbody : wellFormed body = true :=
    wellFormed_append key _ (ascii_size key hkey.ascii).1
      (wellFormed_append [61] value (by decide) hvalue)
  have hbytes : Utf8.encode (record key value) = digits ++ 32 :: (Utf8.encode body ++ [10]) :=
    encode_record hkey hvalue
  have hlength : (Utf8.encode (record key value)).length = size := by
    rw [Utf8.length_encode, utf8Length_record]
  have hcount : digits.length = digitCount size := by
    rw [Utf8.length_encode, hdigitsWf.2]
    rfl
  have hshort : digitCount size ≤ 5 := (digitCount_le_iff (by omega)).2 hsize
  have htotal : size = digits.length + (Utf8.encode body).length + 2 := by
    rw [← hlength, hbytes]
    simp
    omega
  have hbodyPos : 0 < (Utf8.encode body).length := by
    have hle := length_le_utf8Length body
    have hpos : 0 < body.length := by simp [body]
    rw [Utf8.length_encode]
    omega
  have hwhole : Utf8.encode (record key value) ++ rest =
      digits ++ 32 :: (Utf8.encode body ++ 10 :: rest) := by
    rw [hbytes]
    simp
  have hspace : (digits ++ 32 :: (Utf8.encode body ++ 10 :: rest)).idxOf 32 = digits.length := by
    have hnot : (32 : UInt8) ∉ digits := by
      intro hmem
      obtain ⟨u, hu, heq⟩ := Utf8.mem_of_mem_encode hmem (by decide)
      have hdigit := isDigit_of_mem_natDecimal hu
      simp only [isDigit, Bool.and_eq_true, decide_eq_true_eq] at hdigit
      rw [heq] at hdigit
      exact absurd hdigit.1 (by decide)
    rw [List.idxOf_append_of_notMem hnot]
    simp
  have hnewline : (digits ++ 32 :: (Utf8.encode body ++ 10 :: rest)).getD (size - 1) 0 = 10 := by
    rw [List.getD_eq_getElem?_getD, List.getElem?_append_right (by omega),
      show size - 1 - digits.length = (Utf8.encode body).length + 1 by omega,
      List.getElem?_cons_succ, List.getElem?_append_right (Nat.le_refl _)]
    simp
  have hslice : slice (digits ++ 32 :: (Utf8.encode body ++ 10 :: rest)) (digits.length + 1)
      (size - 1 - (digits.length + 1)) = Utf8.encode body := by
    have hmid := slice_mid (digits ++ [32]) (Utf8.encode body) (10 :: rest)
    simp only [List.length_append, List.length_singleton, List.append_assoc,
      List.singleton_append] at hmid
    rw [show size - 1 - (digits.length + 1) = (Utf8.encode body).length by omega]
    exact hmid
  have hequals : body.idxOf 61 = key.length := by
    rw [List.idxOf_append_of_notMem hkey.equals_free]
    simp
  have hkeyPos := List.length_pos_iff.2 hkey.nonempty
  -- The facts are stated about the place of the space, as the reader has it.
  rw [← hspace] at hslice
  have hdigitText : text ((digits ++ 32 :: (Utf8.encode body ++ 10 :: rest)).take
      ((digits ++ 32 :: (Utf8.encode body ++ 10 :: rest)).idxOf 32)) = .ok (natDecimal size) := by
    rw [hspace, List.take_left, text, Utf8.decode_encode hdigitsWf.1]
  have hbodyText : text (Utf8.encode body) = .ok body := by
    rw [text, Utf8.decode_encode hbody]
  have hvalueSize : readRadix 10 (natDecimal size) = size :=
    readRadix_radix (b := 10) (by omega) (by omega) size
  have hall : (digits ++ 32 :: (Utf8.encode body ++ 10 :: rest)).length = size + rest.length := by
    simp only [List.length_append, List.length_cons]
    omega
  refine ⟨by omega, ?_⟩
  rw [hwhole, readPaxRecord]
  dsimp only
  rw [except_refuseIf_bind (by rw [hspace]; omega), except_bind_ok hdigitText,
    except_refuseIf_bind (by simp [canonicalDecimal_natDecimal (show size ≠ 0 by omega)])]
  split
  · rename_i hbad
    rw [hvalueSize, hspace] at hbad
    rcases hbad with hlong | hearly | hline
    · omega
    · omega
    · exact absurd hnewline hline
  · have hproper : ¬(body.idxOf 61 = body.length ∨ body.idxOf 61 = 0) := by
      rw [hequals]
      simp only [body, List.length_append, List.length_cons]
      omega
    simp only [hvalueSize, hslice]
    rw [except_bind_ok hbodyText, except_refuseIf_bind hproper]
    simp only [hequals, hlength]
    have htake : body.take key.length = key := by simp [body]
    have hdrop : body.drop (key.length + 1) = value := by simp [body, List.drop_append]
    simp only [htake, hdrop]
    rfl

/-- One record of the data is taken in. -/
theorem parsePaxFrom_record {key value : JsString} (hkey : PlainKey key)
    (hvalue : wellFormed value = true)
    (hsize : recordSize (utf8Length (recordPayload key value)) < 10 ^ 5) (rest : Bytes)
    {keys : List JsString} (hnew : key ∉ keys) (metadata : PaxMetadata) :
    parsePaxFrom (Utf8.encode (record key value) ++ rest) keys metadata =
      if key = js "path" then
        parsePaxFrom rest (key :: keys) { metadata with path := some value }
      else if key = js "linkpath" then
        parsePaxFrom rest (key :: keys) { metadata with linkpath := some value }
      else if isTimestampKey key && timestampPattern value then
        parsePaxFrom rest (key :: keys) metadata
      else
        unsafeArchive "only path, linkpath and inert timestamps are supported in PAX records." := by
  obtain ⟨hpos, hread⟩ := readPaxRecord_record hkey hvalue hsize rest
  have hne : Utf8.encode (record key value) ++ rest ≠ [] := by
    intro hempty
    rw [List.append_eq_nil_iff] at hempty
    rw [hempty.1] at hpos
    exact absurd hpos (by decide)
  rw [parsePaxFrom, dif_neg hne, hread]
  dsimp only
  rw [if_neg hnew, List.drop_left]

/-- Records of this size have a length prefix of at most five digits. -/
theorem recordSize_lt {payload : Nat} (h : recordSize payload ≤ maxPaxBytes) :
    recordSize payload < 10 ^ 5 := by
  have hmax : maxPaxBytes < 10 ^ 5 := by decide
  omega

/-- Written metadata is read back. -/
theorem parsePax_encodePax {overrides : PaxMetadata}
    (hpath : ∀ path ∈ overrides.path, wellFormed path = true)
    (hlinkpath : ∀ linkpath ∈ overrides.linkpath, wellFormed linkpath = true)
    (hsize : (encodePax overrides).length ≤ maxPaxBytes) :
    parsePax (encodePax overrides) = .ok overrides := by
  have hrecord : ∀ {key value : JsString}, PlainKey key → wellFormed value = true →
      wellFormed (record key value) = true := by
    intro key value hkey hvalue
    have hpayload : wellFormed (recordPayload key value) = true :=
      wellFormed_append _ _ (wellFormed_append _ _ (wellFormed_append _ _ (wellFormed_append _ _
        (by decide) (ascii_size key hkey.ascii).1) (by decide)) hvalue) (by decide)
    exact wellFormed_append _ _ (ascii_size _ fun u hu => natDecimal_ascii hu).1 hpayload
  have hbound : ∀ {key value : JsString} {rest : Bytes},
      (Utf8.encode (record key value) ++ rest).length ≤ maxPaxBytes →
      recordSize (utf8Length (recordPayload key value)) < 10 ^ 5 := by
    intro key value rest hle
    rw [List.length_append, Utf8.length_encode, utf8Length_record] at hle
    exact recordSize_lt (by omega)
  have hend : ∀ keys metadata, parsePaxFrom [] keys metadata = .ok metadata := by
    intro keys metadata
    rw [parsePaxFrom, dif_pos rfl]
  obtain ⟨path, linkpath⟩ := overrides
  unfold parsePax
  cases path with
  | none =>
    cases linkpath with
    | none => exact hend _ _
    | some target =>
      have hwf := hlinkpath target rfl
      have hbytes : encodePax ⟨none, some target⟩ =
          Utf8.encode (record (js "linkpath") target) ++ [] := by
        simp [encodePax]
      rw [hbytes] at hsize ⊢
      rw [parsePaxFrom_record plainKey_linkpath hwf (hbound hsize) _ (by simp),
        if_neg (by decide), if_pos rfl, hend]
  | some name =>
    have hwf := hpath name rfl
    cases linkpath with
    | none =>
      have hbytes : encodePax ⟨some name, none⟩ =
          Utf8.encode (record (js "path") name) ++ [] := by
        simp [encodePax]
      rw [hbytes] at hsize ⊢
      rw [parsePaxFrom_record plainKey_path hwf (hbound hsize) _ (by simp), if_pos rfl, hend]
    | some target =>
      have htarget := hlinkpath target rfl
      have hbytes : encodePax ⟨some name, some target⟩ =
          Utf8.encode (record (js "path") name) ++
            (Utf8.encode (record (js "linkpath") target) ++ []) := by
        rw [List.append_nil, ← Utf8.encode_append (hrecord plainKey_path hwf)]
        rfl
      rw [hbytes] at hsize ⊢
      have hlater : (Utf8.encode (record (js "linkpath") target) ++ []).length ≤
          maxPaxBytes := by
        rw [List.length_append] at hsize
        omega
      rw [parsePaxFrom_record plainKey_path hwf (hbound hsize) _ (by simp), if_pos rfl,
        parsePaxFrom_record plainKey_linkpath htarget (hbound hlater) _ (by decide),
        if_neg (by decide), if_pos rfl, hend]

end AgentSdk.Tar
