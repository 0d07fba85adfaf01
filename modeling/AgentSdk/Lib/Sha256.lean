import AgentSdk.Lib.Text

/-!
# SHA-256 of text

The SHA-256 digest of the UTF-8 encoding of a string, spelled in lower-case
hexadecimal.  Words are natural numbers reduced modulo 2^32, so that a digest
can be evaluated inside a proof.

## Main results

* `length_hexDigest` — a digest is spelled with 64 units.
* `hexDigest_units` — every unit is a lower-case hexadecimal digit.
-/

namespace AgentSdk.Sha256

open AgentSdk.Text

/-! ## Words -/

/-- The number of values of a word. -/
def wordBase : Nat := 4294967296

/-- Rotation to the right. -/
def rotr (x n : Nat) : Nat := (x >>> n) ||| ((x <<< (32 - n)) % wordBase)

/-- The complement of a word. -/
def complement (x : Nat) : Nat := x ^^^ (wordBase - 1)

/-- The first 32 bits of the fractional parts of the cube roots of the first 64
primes. -/
def roundConstants : List Nat :=
  [0x428a2f98, 0x71374491, 0xb5c0fbcf, 0xe9b5dba5, 0x3956c25b, 0x59f111f1, 0x923f82a4, 0xab1c5ed5,
   0xd807aa98, 0x12835b01, 0x243185be, 0x550c7dc3, 0x72be5d74, 0x80deb1fe, 0x9bdc06a7, 0xc19bf174,
   0xe49b69c1, 0xefbe4786, 0x0fc19dc6, 0x240ca1cc, 0x2de92c6f, 0x4a7484aa, 0x5cb0a9dc, 0x76f988da,
   0x983e5152, 0xa831c66d, 0xb00327c8, 0xbf597fc7, 0xc6e00bf3, 0xd5a79147, 0x06ca6351, 0x14292967,
   0x27b70a85, 0x2e1b2138, 0x4d2c6dfc, 0x53380d13, 0x650a7354, 0x766a0abb, 0x81c2c92e, 0x92722c85,
   0xa2bfe8a1, 0xa81a664b, 0xc24b8b70, 0xc76c51a3, 0xd192e819, 0xd6990624, 0xf40e3585, 0x106aa070,
   0x19a4c116, 0x1e376c08, 0x2748774c, 0x34b0bcb5, 0x391c0cb3, 0x4ed8aa4a, 0x5b9cca4f, 0x682e6ff3,
   0x748f82ee, 0x78a5636f, 0x84c87814, 0x8cc70208, 0x90befffa, 0xa4506ceb, 0xbef9a3f7, 0xc67178f2]

/-! ## Compression -/

/-- The eight working words. -/
structure State where
  a : Nat
  b : Nat
  c : Nat
  d : Nat
  e : Nat
  f : Nat
  g : Nat
  h : Nat

/-- The first 32 bits of the fractional parts of the square roots of the first
eight primes. -/
def State.initial : State :=
  ⟨0x6a09e667, 0xbb67ae85, 0x3c6ef372, 0xa54ff53a, 0x510e527f, 0x9b05688c, 0x1f83d9ab, 0x5be0cd19⟩

/-- One round, with its constant and its word of the schedule. -/
def State.round (s : State) (k w : Nat) : State :=
  let choice := (s.e &&& s.f) ^^^ (complement s.e &&& s.g)
  let majority := (s.a &&& s.b) ^^^ (s.a &&& s.c) ^^^ (s.b &&& s.c)
  let t1 := s.h + (rotr s.e 6 ^^^ rotr s.e 11 ^^^ rotr s.e 25) + choice + k + w
  let t2 := (rotr s.a 2 ^^^ rotr s.a 13 ^^^ rotr s.a 22) + majority
  ⟨(t1 + t2) % wordBase, s.a, s.b, s.c, (s.d + t1) % wordBase, s.e, s.f, s.g⟩

/-- The word of the schedule that follows sixteen others. -/
def nextWord : List Nat → Nat
  | [w0, w1, _, _, _, _, _, _, _, w9, _, _, _, _, w14, _] =>
    ((rotr w14 17 ^^^ rotr w14 19 ^^^ (w14 >>> 10)) + w9 +
      (rotr w1 7 ^^^ rotr w1 18 ^^^ (w1 >>> 3)) + w0) % wordBase
  | _ => 0

/-- The rounds of a block.  The window holds the next sixteen words of the
schedule. -/
def rounds : List Nat → List Nat → State → State
  | [], _, s => s
  | _ :: _, [], s => s
  | k :: ks, w :: window, s => rounds ks (window ++ [nextWord (w :: window)]) (s.round k w)

/-- The words of a block, most significant byte first. -/
def words : List Nat → List Nat
  | a :: b :: c :: d :: rest => (((a * 256 + b) * 256 + c) * 256 + d) :: words rest
  | _ => []

def State.compress (s : State) (block : List Nat) : State :=
  let r := rounds roundConstants (words block) s
  ⟨(s.a + r.a) % wordBase, (s.b + r.b) % wordBase, (s.c + r.c) % wordBase,
   (s.d + r.d) % wordBase, (s.e + r.e) % wordBase, (s.f + r.f) % wordBase,
   (s.g + r.g) % wordBase, (s.h + r.h) % wordBase⟩

/-! ## Messages -/

/-- Compress blocks of 64 bytes. -/
def compressBlocks : Nat → List Nat → State → State
  | 0, _, s => s
  | n + 1, message, s => compressBlocks n (message.drop 64) (s.compress (message.take 64))

/-- The bytes of a 64-bit length, most significant first. -/
def lengthBytes (n : Nat) : List Nat :=
  [56, 48, 40, 32, 24, 16, 8, 0].map fun shift => (n >>> shift) % 256

/-- The message with its end mark, zeros and length in bits. -/
def pad (message : List Nat) : List Nat :=
  message ++ 128 :: (List.replicate ((119 - message.length % 64) % 64) 0 ++
    lengthBytes (8 * message.length))

def hash (message : List Nat) : State :=
  compressBlocks ((pad message).length / 64) (pad message) .initial

/-- The bytes of a code unit that is not half of a pair. -/
def unitUtf8 (u : UInt16) : List Nat :=
  let c := u.toNat
  if c < 0x80 then [c]
  else if c < 0x800 then [0xC0 + c / 64, 0x80 + c % 64]
  else if isSurrogate u then [0xEF, 0xBF, 0xBD]
  else [0xE0 + c / 4096, 0x80 + c / 64 % 64, 0x80 + c % 64]

/-- The bytes of a surrogate pair. -/
def pairUtf8 (u v : UInt16) : List Nat :=
  let c := 0x10000 + (u.toNat - 0xD800) * 0x400 + (v.toNat - 0xDC00)
  [0xF0 + c / 262144, 0x80 + c / 4096 % 64, 0x80 + c / 64 % 64, 0x80 + c % 64]

/-- The UTF-8 encoding of a string; a lone surrogate is written as U+FFFD. -/
def utf8 : JsString → List Nat
  | [] => []
  | [u] => unitUtf8 u
  | u :: v :: rest =>
    if isHighSurrogate u && isLowSurrogate v then pairUtf8 u v ++ utf8 rest
    else unitUtf8 u ++ utf8 (v :: rest)

/-! ## Spelling -/

/-- A hexadecimal digit in lower case. -/
def hexUnit (d : Nat) : UInt16 := UInt16.ofNat (if d < 10 then 48 + d else 87 + d)

/-- The eight hexadecimal digits of a word. -/
def wordHex (w : Nat) : JsString :=
  [28, 24, 20, 16, 12, 8, 4, 0].map fun shift => hexUnit ((w >>> shift) % 16)

/-- The digest of a string in hexadecimal. -/
def hexDigest (text : JsString) : JsString :=
  let s := hash (utf8 text)
  [s.a, s.b, s.c, s.d, s.e, s.f, s.g, s.h].flatMap wordHex

theorem length_wordHex (w : Nat) : (wordHex w).length = 8 := rfl

/-- A digest is spelled with 64 units. -/
theorem length_hexDigest (text : JsString) : (hexDigest text).length = 64 := by
  simp [hexDigest, length_wordHex]

theorem hexUnit_range {d : Nat} (hd : d < 16) :
    (48 ≤ (hexUnit d).toNat ∧ (hexUnit d).toNat ≤ 57) ∨
      (97 ≤ (hexUnit d).toNat ∧ (hexUnit d).toNat ≤ 102) := by
  unfold hexUnit
  split
  · rw [UInt16.toNat_ofNat']
    omega
  · rw [UInt16.toNat_ofNat']
    omega

/-- Every unit of a digest is a lower-case hexadecimal digit. -/
theorem hexDigest_units {text : JsString} {u : UInt16} (hu : u ∈ hexDigest text) :
    (48 ≤ u.toNat ∧ u.toNat ≤ 57) ∨ (97 ≤ u.toNat ∧ u.toNat ≤ 102) := by
  obtain ⟨w, -, hw⟩ := List.mem_flatMap.1 hu
  obtain ⟨shift, -, rfl⟩ := List.mem_map.1 hw
  exact hexUnit_range (Nat.mod_lt _ (by omega))

-- The digest of the first test vector of the standard, `abc`.
example : hexDigest (js "abc") =
    js "ba7816bf8f01cfea414140de5dae2223b00361a396177a9cb410ff61f20015ad" := by decide +kernel

end AgentSdk.Sha256
