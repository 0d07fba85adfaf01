import AgentSdk.Lib.ByteFile
import AgentSdk.Lib.Radix
import AgentSdk.Tar.Names
import Mathlib.Algebra.Order.BigOperators.Group.List
import Mathlib.Data.List.DropRight

/-!
# Headers of archive entries

The 512-byte ustar header: its strict reader and its writer.

## Main results

* `parseHeader_ustar` — what an accepted header block looks like.
* `parseHeader_visible` — which of its bytes decide what is read.
-/

namespace AgentSdk.Tar

open AgentSdk.Text AgentSdk.Sandbox

def blockBytes : Nat := 512

def maxOctalSize : Nat := 8 * 1024 ^ 3 - 1

def maxPaxBytes : Nat := 16 * 1024

def maxTrailerBytes : Nat := 10 * 1024

def maxSafeInteger : Nat := 2 ^ 53 - 1

inductive EntryKind where
  | file
  | directory
  | symlink
  | pax
  deriving DecidableEq, Repr

structure TarHeader where
  path : JsString
  kind : EntryKind
  size : Nat
  mode : Nat
  target : JsString
  deriving DecidableEq

/-! ### Reading -/

def text (bytes : Bytes) : Except TarError JsString :=
  match Utf8.decode bytes with
  | some string => .ok string
  | none => unsafeArchive "header text must be valid UTF-8."

/-- The text of a field up to its first zero byte. -/
def field (block : Bytes) (offset length : Nat) : Except TarError JsString :=
  let bytes := slice block offset length
  let hidden := bytes.dropWhile (· != 0)
  if hidden.any (· != 0) then unsafeArchive "hidden bytes after a text terminator."
  else text (bytes.takeWhile (· != 0))

def isPad (u : UInt16) : Bool := u == 0 || u == 32

/-- The numeric pattern: padding, octal digits, padding. -/
def octalPattern (encoded : JsString) : Bool :=
  ((encoded.dropWhile isPad).dropWhile (isRadixDigit 8)).all isPad

/-- A byte that a numeric field may hold. -/
def isOctalByte (b : UInt8) : Bool :=
  b == 0 || b == 32 || (decide (48 ≤ b.toNat) && decide (b.toNat ≤ 55))

def octal (block : Bytes) (offset length : Nat) : Except TarError Nat := do
  let bytes := slice block offset length
  refuseIf (bytes.any fun b => !isOctalByte b)
    (archiveError "numeric headers require unsigned octal.")
  let encoded ← text bytes
  refuseIf (octalPattern encoded = false) (archiveError "numeric headers require unsigned octal.")
  let digits := (encoded.dropWhile isPad).rdropWhile isPad
  let value := readRadix 8 digits
  refuseIf (maxSafeInteger < value) (archiveError "numeric header exceeds the safe integer range.")
  return value

/-- The sum of a block's bytes, with blanks for the checksum itself. -/
def headerSum (block : Bytes) : Nat :=
  ((block.take blockBytes).zipIdx.map fun (byte, index) =>
    if 148 ≤ index ∧ index < 156 then 32 else byte.toNat).sum

def entryKind (flag : UInt8) : Except TarError EntryKind :=
  if flag = 53 then .ok .directory
  else if flag = 48 ∨ flag = 0 then .ok .file
  else if flag = 50 then .ok .symlink
  else if flag = 120 then .ok .pax
  else unsafeArchive ("only regular files, directories, symbolic links and local PAX records " ++
    "are supported; hardlinks and special files are forbidden.")

/-- The numeric fields that are checked and not used: owner, group, time and device. -/
def inertNumbers : List (Nat × Nat) := [(108, 8), (116, 8), (136, 12), (329, 8), (337, 8)]

def parseHeader (block : Bytes) : Except TarError TarHeader := do
  let checksum ← octal block 148 8
  refuseIf (headerSum block ≠ checksum) (archiveError "checksum mismatch.")
  let magic ← field block 257 6
  refuseIf (magic ≠ js "ustar") (archiveError "only POSIX ustar/PAX is supported.")
  let version ← text (slice block 263 2)
  refuseIf (version ≠ js "00") (archiveError "only POSIX ustar/PAX is supported.")
  let kind ← entryKind (block.getD 156 0)
  let target ← field block 157 100
  refuseIf (kind ≠ .symlink ∧ target ≠ [])
    (archiveError "only symbolic links can carry link metadata.")
  let directory ← field block 345 155
  let name ← field block 0 100
  let path := if directory ≠ [] then directory ++ slash :: name else name
  let mode ← octal block 100 8
  let size ← octal block 124 12
  inertNumbers.forM fun range => discard (octal block range.1 range.2)
  let _uname ← field block 265 32
  let _gname ← field block 297 32
  refuseIf (0o7777 < mode ∨ maxOctalSize < size ∨ (block.drop 500).any (· != 0))
    (archiveError "unsupported numeric or extension metadata.")
  refuseIf ((kind = .directory ∨ kind = .symlink) ∧ size ≠ 0)
    (archiveError "directory and symbolic-link entries cannot carry payload.")
  return { path, kind, size, mode, target }

/-! ### Writing -/

/-- What a header is made from.  The numbers are integers of any size. -/
structure HeaderEntry where
  path : JsString
  kind : EntryKind
  size : Int
  mode : Int
  uid : Int
  gid : Int
  target : Option JsString

def isSafeInteger (value : Int) : Bool := decide (value.natAbs ≤ maxSafeInteger)

def putOctal (header : Bytes) (offset length : Nat) (value : Int) : Except TarError Bytes :=
  if isSafeInteger value = false ∨ value < 0 ∨ length ≤ (radix 8 value.toNat).length then
    .error (.unsupported
      "Docker tar metadata exceeds the selected unsigned-octal representation.")
  else .ok (overwrite header offset (Utf8.encode (padStart (length - 1) (radix 8 value.toNat))))

def kindFlag : EntryKind → UInt8
  | .directory => 53
  | .pax => 120
  | .symlink => 50
  | .file => 48

/-- The numeric fields of a header: where they are, how long, and the number. -/
def headerNumbers (entry : HeaderEntry) : List (Nat × Nat × Int) :=
  [(100, 8, entry.mode), (108, 8, entry.uid), (116, 8, entry.gid), (124, 12, entry.size),
    (136, 12, 0), (329, 8, 0), (337, 8, 0)]

def makeHeader (entry : HeaderEntry) : Except TarError Bytes := do
  refuseIf (100 < utf8Length entry.path ∨ 0o7777 < entry.mode ∨
      100 < utf8Length (entry.target.getD []))
    (.unsupported "Docker tar header name, target or mode is not representable.")
  let header := overwrite (List.replicate blockBytes 0) 0 (Utf8.encode entry.path)
  let header ← (headerNumbers entry).foldlM (fun header number =>
    putOctal header number.1 number.2.1 number.2.2) header
  let header := overwrite header 156 [kindFlag entry.kind]
  let header := if entry.kind = .symlink then
    overwrite header 157 (Utf8.encode (entry.target.getD [])) else header
  let header := overwrite header 257 (Utf8.encode (js "ustar\x00"))
  let header := overwrite header 263 (Utf8.encode (js "00"))
  let header := overwrite header 148 (List.replicate 8 32)
  let sum := (header.map UInt8.toNat).sum
  let header := overwrite header 148 ((Utf8.encode (padStart 6 (radix 8 sum))).take 6)
  return overwrite header 154 [0]

/-! ### What an accepted block looks like -/

/-- A field that holds a text, filled up with zero bytes. -/
def TextField (block : Bytes) (offset length : Nat) (string : JsString) : Prop :=
  ∃ (bytes : Bytes) (k : Nat), slice block offset length = bytes ++ List.replicate k 0 ∧
    0 ∉ bytes ∧ Utf8.decode bytes = some string

/-- A field that holds octal digits between padding. -/
def OctalField (block : Bytes) (offset length value : Nat) : Prop :=
  ∃ before digits after : Bytes, slice block offset length = before ++ digits ++ after ∧
    (∀ b ∈ before ++ after, b = 0 ∨ b = 32) ∧ (∀ d ∈ digits, 48 ≤ d.toNat ∧ d.toNat ≤ 55) ∧
    value = digits.foldl (fun n d => n * 8 + (d.toNat - 48)) 0

/-- The whole block of a header: every field holds what its reading says. -/
structure Ustar (block : Bytes) (header : TarHeader) : Prop where
  checksum : OctalField block 148 8 (headerSum block)
  magic : TextField block 257 6 (js "ustar")
  version : Utf8.decode (slice block 263 2) = some (js "00")
  kind : entryKind (block.getD 156 0) = .ok header.kind
  target : TextField block 157 100 header.target
  target_kind : header.kind ≠ .symlink → header.target = []
  path : ∃ directory name, TextField block 345 155 directory ∧ TextField block 0 100 name ∧
    header.path = if directory ≠ [] then directory ++ slash :: name else name
  mode : OctalField block 100 8 header.mode
  mode_le : header.mode ≤ 0o7777
  size : OctalField block 124 12 header.size
  size_le : header.size ≤ maxOctalSize
  inert : ∀ range ∈ inertNumbers, ∃ value, OctalField block range.1 range.2 value
  owners : (∃ uname, TextField block 265 32 uname) ∧ ∃ gname, TextField block 297 32 gname
  tail : ∀ b ∈ block.drop 500, b = 0
  no_payload : header.kind = .directory ∨ header.kind = .symlink → header.size = 0

theorem text_ok {bytes : Bytes} {string : JsString} (h : text bytes = .ok string) :
    Utf8.decode bytes = some string := by
  unfold text at h
  split at h
  · rename_i decoded hdecoded
    rw [hdecoded, Except.ok.inj h]
  · cases h

variable {block block' : Bytes} {length offset : Nat} {header : TarHeader}

theorem field_ok {string : JsString} (h : field block offset length = .ok string) :
    TextField block offset length string := by
  unfold field at h
  dsimp only at h
  split at h
  · cases h
  · rename_i hhidden
    generalize hbytes : slice block offset length = bytes at h hhidden
    have hzero : bytes.dropWhile (· != 0) =
        List.replicate (bytes.dropWhile (· != 0)).length 0 := by
      rw [List.eq_replicate_iff]
      exact ⟨rfl, by simpa using hhidden⟩
    refine ⟨bytes.takeWhile (· != 0), (bytes.dropWhile (· != 0)).length, ?_, ?_, text_ok h⟩
    · rw [hbytes, ← hzero, List.takeWhile_append_dropWhile]
    · intro hmem
      have hne := List.mem_takeWhile_imp hmem
      simp at hne

/-- The code unit of a byte. -/
def byteUnit (b : UInt8) : UInt16 := UInt16.ofNat b.toNat

theorem toNat_byteUnit (b : UInt8) : (byteUnit b).toNat = b.toNat := by
  have hlt := b.toNat_lt
  simp only [byteUnit, UInt16.toNat_ofNat']
  omega

theorem isPad_byteUnit {b : UInt8} : isPad (byteUnit b) = true ↔ b = 0 ∨ b = 32 := by
  simp only [isPad, Bool.or_eq_true, beq_iff_eq, ← UInt16.toNat_inj, ← UInt8.toNat_inj,
    toNat_byteUnit]
  rfl

theorem isRadixDigit_byteUnit {b : UInt8} :
    isRadixDigit 8 (byteUnit b) = true ↔ 48 ≤ b.toNat ∧ b.toNat ≤ 55 := by
  simp only [isRadixDigit, Bool.and_eq_true, decide_eq_true_eq, toNat_byteUnit]
  omega

/-- Padding behind digits is dropped. -/
theorem rdropWhile_append {xs ys : JsString} (hx : ∀ u ∈ xs, isRadixDigit 8 u = true)
    (hy : ∀ u ∈ ys, isPad u = true) : (xs ++ ys).rdropWhile isPad = xs := by
  rw [List.rdropWhile, List.reverse_append, List.dropWhile_append_of_pos (by simpa using hy)]
  cases hlast : xs.reverse with
  | nil => simpa using hlast.symm
  | cons u rest =>
    have hdigit := hx u (by rw [← List.mem_reverse, hlast]; simp)
    have hpad : isPad u = false := by
      simp only [isRadixDigit, Bool.and_eq_true, decide_eq_true_eq] at hdigit
      simp only [isPad, Bool.or_eq_false_iff, beq_eq_false_iff_ne, ne_eq, ← UInt16.toNat_inj]
      exact ⟨fun h => by rw [h] at hdigit; exact absurd hdigit.1 (by decide),
        fun h => by rw [h] at hdigit; exact absurd hdigit.1 (by decide)⟩
    rw [List.dropWhile_cons_of_neg (by simp [hpad]), ← hlast, List.reverse_reverse]

theorem readRadix_map_byteUnit (digits : Bytes) :
    readRadix 8 (digits.map byteUnit) = digits.foldl (fun n d => n * 8 + (d.toNat - 48)) 0 := by
  simp [readRadix, List.foldl_map, toNat_byteUnit]

theorem octal_ok {value : Nat} (h : octal block offset length = .ok value) :
    OctalField block offset length value := by
  unfold octal at h
  generalize hbytes : slice block offset length = bytes at h
  obtain ⟨hascii, h⟩ := ok_of_refuseIf_bind h
  obtain ⟨encoded, hencoded, h⟩ := ok_of_except_bind h
  obtain ⟨hpattern, h⟩ := ok_of_refuseIf_bind h
  obtain ⟨_, h⟩ := ok_of_refuseIf_bind h
  have hlow : ∀ b ∈ bytes, b.toNat < 0x80 := by
    intro b hb
    have hbyte : isOctalByte b = true := by
      have hall := List.any_eq_false.1 (Bool.eq_false_of_not_eq_true hascii) b hb
      simpa using hall
    simp only [isOctalByte, Bool.or_eq_true, beq_iff_eq, Bool.and_eq_true,
      decide_eq_true_eq] at hbyte
    rcases hbyte with (rfl | rfl) | hdigit
    · decide
    · decide
    · omega
  have hmap : encoded = bytes.map byteUnit := by
    have hdecode := text_ok hencoded
    rw [Utf8.decode_ascii bytes hlow] at hdecode
    exact (Option.some.inj hdecode).symm
  -- The bytes are cut where the pattern cuts their text.
  let rest := bytes.dropWhile (isPad ∘ byteUnit)
  have hrest : encoded.dropWhile isPad = rest.map byteUnit := by
    rw [hmap, List.dropWhile_map]
  have hafter : ∀ u ∈ (rest.dropWhile (isRadixDigit 8 ∘ byteUnit)).map byteUnit,
      isPad u = true := by
    have hall := Bool.eq_true_of_not_eq_false hpattern
    rw [octalPattern, hrest, List.dropWhile_map] at hall
    exact List.all_eq_true.1 hall
  have hdigits : ∀ u ∈ (rest.takeWhile (isRadixDigit 8 ∘ byteUnit)).map byteUnit,
      isRadixDigit 8 u = true := by
    intro u hu
    obtain ⟨b, hb, rfl⟩ := List.mem_map.1 hu
    have hdigit : (isRadixDigit 8 ∘ byteUnit) b = true := List.mem_takeWhile_imp hb
    exact hdigit
  refine ⟨bytes.takeWhile (isPad ∘ byteUnit), rest.takeWhile (isRadixDigit 8 ∘ byteUnit),
    rest.dropWhile (isRadixDigit 8 ∘ byteUnit), ?_, ?_, ?_, ?_⟩
  · rw [hbytes, List.append_assoc, List.takeWhile_append_dropWhile,
      List.takeWhile_append_dropWhile]
  · intro b hb
    rcases List.mem_append.1 hb with hbefore | hbehind
    · have hpad : (isPad ∘ byteUnit) b = true := List.mem_takeWhile_imp hbefore
      exact isPad_byteUnit.1 hpad
    · exact isPad_byteUnit.1 (hafter _ (List.mem_map_of_mem hbehind))
  · intro d hd
    exact isRadixDigit_byteUnit.1 (hdigits _ (List.mem_map_of_mem hd))
  · have hsplit : rest.map byteUnit =
        (rest.takeWhile (isRadixDigit 8 ∘ byteUnit)).map byteUnit ++
          (rest.dropWhile (isRadixDigit 8 ∘ byteUnit)).map byteUnit := by
      rw [← List.map_append, List.takeWhile_append_dropWhile]
    have hvalue := Except.ok.inj h
    rw [hrest, hsplit, rdropWhile_append hdigits hafter, readRadix_map_byteUnit] at hvalue
    exact hvalue.symm

theorem forM_discard_ok {α : Type} {ranges : List α} {f : α → Except TarError Nat}
    (h : ranges.forM (fun range => discard (f range)) = .ok ()) :
    ∀ range ∈ ranges, ∃ value, f range = .ok value := by
  induction ranges with
  | nil => simp
  | cons range ranges ih =>
    have hcons : (discard (f range) >>= fun _ =>
        ranges.forM fun range => discard (f range)) = .ok () := h
    obtain ⟨_, hfirst, hrest⟩ := ok_of_except_bind hcons
    intro other hother
    rcases List.mem_cons.1 hother with rfl | hlater
    · cases hvalue : f other with
      | ok value => exact ⟨value, rfl⟩
      | error e =>
        rw [hvalue] at hfirst
        cases hfirst
    · exact ih hrest other hlater

theorem forM_discard_of {α : Type} {ranges : List α} {f : α → Except TarError Nat}
    (h : ∀ range ∈ ranges, ∃ value, f range = .ok value) :
    ranges.forM (fun range => discard (f range)) = .ok () := by
  induction ranges with
  | nil => rfl
  | cons range ranges ih =>
    obtain ⟨value, hvalue⟩ := h range (by simp)
    have hfirst : discard (f range) = .ok () := by
      rw [hvalue]
      rfl
    show (discard (f range) >>= fun _ => ranges.forM fun range => discard (f range)) = .ok ()
    rw [except_bind_ok hfirst]
    exact ih fun other hother => h other (by simp [hother])

/-- What `parseHeader` read of an accepted block. -/
structure HeaderReads (block : Bytes) (header : TarHeader) : Prop where
  checksum : octal block 148 8 = .ok (headerSum block)
  magic : field block 257 6 = .ok (js "ustar")
  version : text (slice block 263 2) = .ok (js "00")
  kind : entryKind (block.getD 156 0) = .ok header.kind
  target : field block 157 100 = .ok header.target
  target_kind : header.kind ≠ .symlink → header.target = []
  path : ∃ directory name, field block 345 155 = .ok directory ∧ field block 0 100 = .ok name ∧
    header.path = if directory ≠ [] then directory ++ slash :: name else name
  mode : octal block 100 8 = .ok header.mode
  mode_le : header.mode ≤ 0o7777
  size : octal block 124 12 = .ok header.size
  size_le : header.size ≤ maxOctalSize
  inert : ∀ range ∈ inertNumbers, ∃ value, octal block range.1 range.2 = .ok value
  uname : ∃ uname, field block 265 32 = .ok uname
  gname : ∃ gname, field block 297 32 = .ok gname
  tail : ∀ b ∈ block.drop 500, b = 0
  no_payload : header.kind = .directory ∨ header.kind = .symlink → header.size = 0

theorem parseHeader_reads (h : parseHeader block = .ok header) : HeaderReads block header := by
  unfold parseHeader at h
  obtain ⟨checksum, hchecksum, h⟩ := ok_of_except_bind h
  obtain ⟨hsum, h⟩ := ok_of_refuseIf_bind h
  obtain ⟨magic, hmagic, h⟩ := ok_of_except_bind h
  obtain ⟨hustar, h⟩ := ok_of_refuseIf_bind h
  obtain ⟨version, hversion, h⟩ := ok_of_except_bind h
  obtain ⟨hzeros, h⟩ := ok_of_refuseIf_bind h
  obtain ⟨kind, hkind, h⟩ := ok_of_except_bind h
  obtain ⟨target, htarget, h⟩ := ok_of_except_bind h
  obtain ⟨hlink, h⟩ := ok_of_refuseIf_bind h
  obtain ⟨directory, hdirectory, h⟩ := ok_of_except_bind h
  obtain ⟨name, hname, h⟩ := ok_of_except_bind h
  obtain ⟨mode, hmode, h⟩ := ok_of_except_bind h
  obtain ⟨size, hsize, h⟩ := ok_of_except_bind h
  obtain ⟨⟨⟩, hinert, h⟩ := ok_of_except_bind h
  obtain ⟨uname, huname, h⟩ := ok_of_except_bind h
  obtain ⟨gname, hgname, h⟩ := ok_of_except_bind h
  obtain ⟨hlimits, h⟩ := ok_of_refuseIf_bind h
  obtain ⟨hpayload, h⟩ := ok_of_refuseIf_bind h
  obtain rfl := Except.ok.inj h
  exact {
    checksum := not_ne_iff.1 hsum ▸ hchecksum
    magic := not_ne_iff.1 hustar ▸ hmagic
    version := not_ne_iff.1 hzeros ▸ hversion
    kind := hkind
    target := htarget
    target_kind := by
      intro hne
      by_contra hfilled
      exact hlink ⟨hne, hfilled⟩
    path := ⟨directory, name, hdirectory, hname, rfl⟩
    mode := hmode
    mode_le := by
      show mode ≤ 0o7777
      omega
    size := hsize
    size_le := by
      show size ≤ maxOctalSize
      omega
    inert := forM_discard_ok hinert
    uname := ⟨uname, huname⟩
    gname := ⟨gname, hgname⟩
    tail := by
      intro b hb
      by_contra hne
      exact hlimits (Or.inr (Or.inr (List.any_eq_true.2 ⟨b, hb, by simpa using hne⟩)))
    no_payload := by
      intro hkinds
      by_contra hne
      exact hpayload ⟨hkinds, hne⟩ }

/-- What an accepted header block looks like. -/
theorem parseHeader_ustar (h : parseHeader block = .ok header) : Ustar block header := by
  have hreads := parseHeader_reads h
  obtain ⟨directory, name, hdirectory, hname, hpath⟩ := hreads.path
  obtain ⟨uname, huname⟩ := hreads.uname
  obtain ⟨gname, hgname⟩ := hreads.gname
  exact {
    checksum := octal_ok hreads.checksum
    magic := field_ok hreads.magic
    version := text_ok hreads.version
    kind := hreads.kind
    target := field_ok hreads.target
    target_kind := hreads.target_kind
    path := ⟨directory, name, field_ok hdirectory, field_ok hname, hpath⟩
    mode := octal_ok hreads.mode
    mode_le := hreads.mode_le
    size := octal_ok hreads.size
    size_le := hreads.size_le
    inert := fun range hrange => (hreads.inert range hrange).imp fun _ => octal_ok
    owners := ⟨⟨uname, field_ok huname⟩, gname, field_ok hgname⟩
    tail := hreads.tail
    no_payload := hreads.no_payload }

/-! ### What a header depends on -/

theorem field_congr (h : slice block offset length = slice block' offset length) :
    field block offset length = field block' offset length := by
  unfold field
  rw [h]

theorem octal_congr (h : slice block offset length = slice block' offset length) :
    octal block offset length = octal block' offset length := by
  unfold octal
  rw [h]

/-- The fields that decide what is delivered: the two parts of the name, the
mode, the size, the type flag and the link target. -/
def visibleFields : List (Nat × Nat) :=
  [(0, 100), (345, 155), (100, 8), (124, 12), (156, 1), (157, 100)]

/-- Accepted blocks that agree in the visible fields have the same header. -/
theorem parseHeader_visible {header' : TarHeader} (h : parseHeader block = .ok header)
    (h' : parseHeader block' = .ok header')
    (hvisible : ∀ range ∈ visibleFields,
      slice block range.1 range.2 = slice block' range.1 range.2) : header = header' := by
  have hreads := parseHeader_reads h
  have hreads' := parseHeader_reads h'
  simp only [visibleFields, List.forall_mem_cons, List.not_mem_nil, false_implies, implies_true,
    and_true] at hvisible
  obtain ⟨hname, hdirectory, hmode, hsize, hflag, htarget⟩ := hvisible
  have hbyte : block.getD 156 0 = block'.getD 156 0 := by
    have hget := congrArg (fun bytes => bytes[0]?) hflag
    simp only [getElem?_slice] at hget
    rw [List.getD_eq_getElem?_getD, List.getD_eq_getElem?_getD]
    exact congrArg (fun b => b.getD 0) hget
  have hpathEq : header.path = header'.path := by
    obtain ⟨directory, name, hread, hread', hpath⟩ := hreads.path
    obtain ⟨directory', name', hread₂, hread₂', hpath'⟩ := hreads'.path
    rw [field_congr hdirectory, hread₂] at hread
    rw [field_congr hname, hread₂'] at hread'
    rw [hpath, hpath', Except.ok.inj hread, Except.ok.inj hread']
  have hkindEq := hreads.kind
  rw [hbyte, hreads'.kind] at hkindEq
  have htargetEq := hreads.target
  rw [field_congr htarget, hreads'.target] at htargetEq
  have hmodeEq := hreads.mode
  rw [octal_congr hmode, hreads'.mode] at hmodeEq
  have hsizeEq := hreads.size
  rw [octal_congr hsize, hreads'.size] at hsizeEq
  obtain ⟨path, kind, size, mode, target⟩ := header
  obtain ⟨path', kind', size', mode', target'⟩ := header'
  simp only [TarHeader.mk.injEq]
  exact ⟨hpathEq, (Except.ok.inj hkindEq).symm, (Except.ok.inj hsizeEq).symm,
    (Except.ok.inj hmodeEq).symm, (Except.ok.inj htargetEq).symm⟩

end AgentSdk.Tar
