import AgentSdk.Lib.Hex
import AgentSdk.Lib.Joined
import AgentSdk.Lib.PairSplit
import Mathlib.Data.List.DropRight

/-!
# Numeric addresses

An IP address is read as text and held as a number.  The literals are given twice:
as the grammar of four decimal octets and of eight hexadecimal groups, one run of
zero groups left out and the last two groups written as octets; and as the code
has them, `isIP` deciding and `numericValue` rewriting and splitting the text.

## Main results

* `isIP_iff` — `isIP` accepts the grammar.
* `parseNumericAddress_iff` — an address is read as the number of its literal.
* `parse_formatNumericAddress` — a formatted number is read back.
-/

namespace AgentSdk.Network

open AgentSdk.Text AgentSdk.PairSplit

inductive AddressFamily
  | ipv4
  | ipv6
  deriving DecidableEq

/-! ## The grammar -/

/-- Four octets in decimal, without zeros in front. -/
def Ipv4Literal (text : JsString) (value : Nat) : Prop :=
  ∃ octets : List Nat, octets.length = 4 ∧ (∀ octet ∈ octets, octet ≤ 255) ∧
    text = [46].intercalate (octets.map natDecimal) ∧
    value = octets.foldl (fun value octet => value * 256 + octet) 0

/-- One to four hexadecimal digits of either case. -/
structure HexGroup (text : JsString) (word : Nat) : Prop where
  nonempty : text ≠ []
  length : text.length ≤ 4
  digits : ∀ u ∈ text, isHexUnit u = true
  value : word = readHex text

/-- Groups between colons; the last two may be written as octets when `quad` is set. -/
inductive Pieces (quad : Bool) : JsString → List Nat → Prop
  | group {text : JsString} {word : Nat} (h : HexGroup text word) : Pieces quad text [word]
  | octets {text : JsString} {value : Nat} (hquad : quad = true) (h : Ipv4Literal text value) :
      Pieces quad text [value / 65536, value % 65536]
  | cons {text more : JsString} {word : Nat} {words : List Nat} (h : HexGroup text word)
      (rest : Pieces quad more words) : Pieces quad (text ++ 58 :: more) (word :: words)

/-- One side of `::`. -/
inductive Side (quad : Bool) : JsString → List Nat → Prop
  | none : Side quad [] []
  | some {text : JsString} {words : List Nat} (h : Pieces quad text words) : Side quad text words

/-- Eight groups, of which one run of zeros may be left out. -/
inductive Ipv6Literal : JsString → List Nat → Prop
  | full {text : JsString} {words : List Nat} (h : Pieces true text words)
      (hlength : words.length = 8) : Ipv6Literal text words
  | compressed {left right : JsString} {before after : List Nat} (hleft : Side false left before)
      (hright : Side true right after) (hlength : before.length + after.length ≤ 7) :
      Ipv6Literal (left ++ 58 :: 58 :: right)
        (before ++ (List.replicate (8 - before.length - after.length) 0 ++ after))

/-- The number of eight groups. -/
def wordsValue (words : List Nat) : Nat :=
  words.foldl (fun value word => value * 65536 + word) 0

/-- A literal of a family and its number. -/
def IpLiteral (text : JsString) : AddressFamily → Nat → Prop
  | .ipv4, value => Ipv4Literal text value
  | .ipv6, value => ∃ words, Ipv6Literal text words ∧ value = wordsValue words

/-! ## Recognising literals -/

def isOctet (part : JsString) : Bool :=
  part == natDecimal (readRadix 10 part) && decide (readRadix 10 part ≤ 255)

/-- `net.isIPv4` -/
def isIPv4 (text : JsString) : Bool :=
  decide ((text.splitOn 46).length = 4) && (text.splitOn 46).all isOctet

def isHexGroup (part : JsString) : Bool :=
  decide (part ≠ []) && decide (part.length ≤ 4) && part.all isHexUnit

/-- The number of groups that some parts between colons spell. -/
def countGroups (quad : Bool) : List JsString → Option Nat
  | [] => none
  | [last] =>
    if isHexGroup last = true then some 1
    else if quad = true ∧ isIPv4 last = true then some 2
    else none
  | part :: parts =>
    if isHexGroup part = true then (countGroups quad parts).map (· + 1) else none

/-- The number of groups on one side of `::`. -/
def countSide (quad : Bool) (text : JsString) : Option Nat :=
  if text = [] then some 0 else countGroups quad (text.splitOn 58)

/-- A literal without a zone. -/
def isPlainIPv6 (text : JsString) : Bool :=
  match splitPair 58 58 text with
  | [whole] => countGroups true (whole.splitOn 58) == some 8
  | [left, right] =>
    match countSide false left, countSide true right with
    | some before, some after => decide (before + after ≤ 7)
    | _, _ => false
  | _ => false

/-- `%[0-9a-zA-Z-.:]{1,}` -/
def isZone (text : JsString) : Bool :=
  decide (2 ≤ text.length) && (text.drop 1).all fun u =>
    isDigit u || (decide (97 ≤ u.toNat) && decide (u.toNat ≤ 122)) ||
      (decide (65 ≤ u.toNat) && decide (u.toNat ≤ 90)) || u == 45 || u == 46 || u == 58

/-- `net.isIPv6` -/
def isIPv6 (text : JsString) : Bool :=
  isPlainIPv6 (text.takeWhile (· ≠ 37)) &&
    (decide (text.dropWhile (· ≠ 37) = []) || isZone (text.dropWhile (· ≠ 37)))

/-- `net.isIP` -/
def isIP (text : JsString) : Option AddressFamily :=
  if isIPv4 text = true then some .ipv4
  else if isIPv6 text = true then some .ipv6
  else none

/-! ## Reading and formatting -/

structure NumericAddress where
  family : AddressFamily
  value : Nat
  deriving DecidableEq

/-- `numericValue` for the four octets. -/
def ipv4Value (address : JsString) : Nat :=
  (address.splitOn 46).foldl (fun value part => value * 256 + readRadix 10 part) 0

/-- `value.slice(0, value.lastIndexOf(':'))` -/
def beforeLast (value : JsString) : JsString :=
  if (58 : UInt16) ∈ value then (value.rdropWhile (· ≠ 58)).dropLast else value.dropLast

/-- `value.slice(value.lastIndexOf(':') + 1)` -/
def afterLast (value : JsString) : JsString := value.rtakeWhile (· ≠ 58)

/-- Trailing octets are rewritten as two groups. -/
def groupTail (value : JsString) : JsString :=
  if (46 : UInt16) ∈ value then
    let ipv4 := ipv4Value (afterLast value)
    beforeLast value ++ (58 : UInt16) :: (hexText (ipv4 >>> 16) ++ 58 :: hexText (ipv4 &&& 65535))
  else value

/-- `side ? side.split(':') : []` -/
def sideGroups (side : JsString) : List JsString := if side = [] then [] else side.splitOn 58

/-- The groups of a value, the ones left out filled in. -/
def filledGroups (value : JsString) : List JsString :=
  let parts := splitPair 58 58 value
  let before := sideGroups (parts.headD [])
  match parts.tail.head? with
  | none => before
  | some right =>
    let after := sideGroups right
    before ++ (List.replicate (8 - before.length - after.length) (js "0") ++ after)

def numericValue (address : JsString) : AddressFamily → Nat
  | .ipv4 => ipv4Value address
  | .ipv6 =>
    (filledGroups (groupTail address)).foldl (fun result word => result * 65536 + readHex word) 0

def parseNumericAddress (address : JsString) : Option NumericAddress :=
  match isIP address with
  | none => none
  | some family =>
    if (37 : UInt16) ∈ address then none else some ⟨family, numericValue address family⟩

def formatNumericAddress (value : Nat) : AddressFamily → JsString
  | .ipv4 =>
    [46].intercalate ([24, 16, 8, 0].map fun shift => natDecimal ((value >>> shift) &&& 255))
  | .ipv6 =>
    [58].intercalate ((List.range 8).map fun index =>
      hexText ((value >>> ((7 - index) * 16)) &&& 65535))

def addressWidth : AddressFamily → Nat
  | .ipv4 => 32
  | .ipv6 => 128

/-! ## Octets -/

variable {text : JsString} {value : Nat} {words : List Nat} {quad : Bool}

theorem dot_not_mem_natDecimal (n : Nat) : (46 : UInt16) ∉ natDecimal n := fun hmem => by
  have hno := isDigit_of_mem_natDecimal hmem
  revert hno
  decide

theorem readRadix_natDecimal (n : Nat) : readRadix 10 (natDecimal n) = n := by
  rw [← radix_ten]
  exact readRadix_radix (by omega) (by omega) n

theorem splitOn_octets {octets : List Nat} (hne : octets ≠ []) :
    ([46].intercalate (octets.map natDecimal)).splitOn 46 = octets.map natDecimal := by
  refine List.splitOn_intercalate 46 (fun part hpart => ?_) (by simpa using hne)
  have ⟨octet, _, heq⟩ := List.mem_map.1 hpart
  exact heq ▸ dot_not_mem_natDecimal octet

/-- The octets of a literal have one value: the one that the code computes. -/
theorem Ipv4Literal.ipv4Value (h : Ipv4Literal text value) : Network.ipv4Value text = value := by
  have ⟨octets, hlength, _, htext, hvalue⟩ := h
  have hne : octets ≠ [] := by
    intro hnil
    rw [hnil] at hlength
    cases hlength
  rw [Network.ipv4Value, htext, splitOn_octets hne, List.foldl_map, hvalue]
  congr 1
  funext value octet
  rw [readRadix_natDecimal]

theorem isIPv4_iff : isIPv4 text = true ↔ ∃ value, Ipv4Literal text value := by
  constructor
  · intro h
    simp only [isIPv4, Bool.and_eq_true, decide_eq_true_eq, List.all_eq_true] at h
    obtain ⟨hlength, hoctets⟩ := h
    refine ⟨_, (text.splitOn 46).map (readRadix 10), by simpa using hlength, ?_, ?_, rfl⟩
    · intro octet hoctet
      obtain ⟨part, hpart, heq⟩ := List.mem_map.1 hoctet
      have hthis := hoctets part hpart
      simp only [isOctet, Bool.and_eq_true, decide_eq_true_eq] at hthis
      exact heq ▸ hthis.2
    · have hspell : (text.splitOn 46).map (natDecimal ∘ readRadix 10) = text.splitOn 46 := by
        calc
          (text.splitOn 46).map (natDecimal ∘ readRadix 10) = (text.splitOn 46).map id :=
            List.map_congr_left fun part hpart => by
              have hthis := hoctets part hpart
              simp only [isOctet, Bool.and_eq_true, beq_iff_eq] at hthis
              exact hthis.1.symm
          _ = text.splitOn 46 := List.map_id _
      rw [List.map_map, hspell, List.intercalate_splitOn]
  · rintro ⟨value, octets, hlength, hle, htext, _⟩
    have hne : octets ≠ [] := by
      intro hnil
      rw [hnil] at hlength
      cases hlength
    simp only [isIPv4, htext, splitOn_octets hne, List.length_map, hlength, decide_true,
      Bool.true_and, List.all_eq_true]
    intro part hpart
    obtain ⟨octet, hoctet, heq⟩ := List.mem_map.1 hpart
    simp [isOctet, ← heq, readRadix_natDecimal, hle octet hoctet]

theorem Ipv4Literal.lt (h : Ipv4Literal text value) : value < 2 ^ 32 := by
  have ⟨octets, hlength, hle, _, hvalue⟩ := h
  match octets, hlength with
  | [a, b, c, d], _ =>
    have ha := hle a (by simp)
    have hb := hle b (by simp)
    have hc := hle c (by simp)
    have hd := hle d (by simp)
    simp only [List.foldl_cons, List.foldl_nil] at hvalue
    omega

/-- A literal of octets has dots, and no colons or percent signs. -/
theorem Ipv4Literal.units (h : Ipv4Literal text value) :
    (46 : UInt16) ∈ text ∧ ∀ u ∈ text, isDigit u = true ∨ u = 46 := by
  have ⟨octets, hlength, _, htext, _⟩ := h
  have hdot : (46 : UInt16) ∈ text := by
    match octets, hlength with
    | [a, b, c, d], _ => simp [htext, List.intercalate_cons_cons]
  refine ⟨hdot, fun u hu => ?_⟩
  rw [htext] at hu
  rcases Joined.mem_intercalate hu with hmark | hpart
  · exact .inr hmark
  · have ⟨part, hmem, hin⟩ := hpart
    have ⟨octet, _, heq⟩ := List.mem_map.1 hmem
    exact .inl (isDigit_of_mem_natDecimal (heq ▸ hin))

/-! ## Groups -/

theorem isHexGroup_iff {part : JsString} :
    isHexGroup part = true ↔ HexGroup part (readHex part) := by
  simp only [isHexGroup, Bool.and_eq_true, decide_eq_true_eq, List.all_eq_true]
  exact ⟨fun h => ⟨h.1.1, h.1.2, h.2, rfl⟩, fun h => ⟨⟨h.nonempty, h.length⟩, h.digits⟩⟩

theorem not_hex_colon : isHexUnit 58 = false := by decide

theorem not_hex_dot : isHexUnit 46 = false := by decide

theorem HexGroup.not_mem {word : Nat} (h : HexGroup text word) {u : UInt16}
    (hu : isHexUnit u = false) : u ∉ text := fun hmem => by
  rw [h.digits u hmem] at hu
  cases hu

theorem Ipv4Literal.not_mem (h : Ipv4Literal text value) {u : UInt16} (hu : isDigit u = false)
    (hdot : u ≠ 46) : u ∉ text := fun hmem => by
  rcases h.units.2 u hmem with hdigit | heq
  · rw [hdigit] at hu; cases hu
  · exact hdot heq

variable {n : Nat} {left right : JsString} {after before : List Nat} {family : AddressFamily}

theorem HexGroup.hexText (h : n < 65536) : HexGroup (hexText n) n where
  nonempty := hexText_ne_nil n
  length := length_hexText_le (by omega) h
  digits u hu := isHexUnit_of_mem_hexText hu
  value := (readHex_hexText n).symm

/-- The units of a literal of groups. -/
theorem Pieces.units (h : Pieces quad text words) :
    ∀ u ∈ text, isHexUnit u = true ∨ u = 58 ∨ u = 46 := by
  induction h with
  | group h => exact fun u hu => .inl (h.digits u hu)
  | octets _ h =>
    intro u hu
    rcases h.units.2 u hu with hdigit | hdot
    · exact .inl (by simp [isHexUnit, hdigit])
    · exact .inr (.inr hdot)
  | cons h _ ih =>
    intro u hu
    rcases List.mem_append.1 hu with hgroup | hmore
    · exact .inl (h.digits u hgroup)
    · cases hmore with
      | head => exact .inr (.inl rfl)
      | tail _ hin => exact ih u hin

/-- A literal of groups begins with no colon. -/
theorem Pieces.head (h : Pieces quad text words) : ∃ u rest, text = u :: rest ∧ u ≠ 58 := by
  have hgroup : ∀ {text : JsString} {word : Nat}, HexGroup text word →
      ∃ u rest, text = u :: rest ∧ u ≠ 58 := by
    intro text word h
    cases text with
    | nil => exact absurd rfl h.nonempty
    | cons u rest =>
      refine ⟨u, rest, rfl, fun heq => ?_⟩
      exact h.not_mem not_hex_colon (heq ▸ List.mem_cons_self)
  cases h with
  | group h => exact hgroup h
  | octets _ h =>
    cases text with
    | nil => exact absurd h.units.1 (by simp)
    | cons u rest =>
      refine ⟨u, rest, rfl, fun heq => ?_⟩
      exact h.not_mem (by decide : isDigit 58 = false) (by decide) (heq ▸ List.mem_cons_self)
  | cons h rest =>
    have ⟨u, tail, heq, hne⟩ := hgroup h
    exact ⟨u, tail ++ 58 :: _, by rw [heq, List.cons_append], hne⟩

theorem Pieces.ne_nil (h : Pieces quad text words) : text ≠ [] := by
  have ⟨u, rest, heq, _⟩ := h.head
  rw [heq]
  exact List.cons_ne_nil u rest

/-- The groups of a literal without octets, split at the colons. -/
theorem Pieces.splitOn (h : Pieces false text words) :
    (text.splitOn 58).map readHex = words := by
  generalize hquad : false = quad at h
  induction h with
  | group h => rw [List.splitOn_eq_singleton (h.not_mem not_hex_colon), h.value]; rfl
  | octets hno => rw [← hquad] at hno; cases hno
  | cons h _ ih =>
    rw [List.splitOn_append_cons_self_of_not_mem (h.not_mem not_hex_colon), List.map_cons, ih,
      h.value]

/-- No `::` is found among groups. -/
theorem Pieces.splitPair (h : Pieces quad text words) (tail : JsString) :
    PairSplit.splitPair 58 58 (text ++ tail) =
      (PairSplit.splitPair 58 58 tail).modifyHead (text ++ ·) := by
  induction h with
  | group h => exact splitPair_append (h.not_mem not_hex_colon) tail
  | octets _ h => exact splitPair_append (h.not_mem (by decide) (by decide)) tail
  | cons h rest ih =>
    have ⟨u, more, heq, hne⟩ := rest.head
    have hcolon : PairSplit.splitPair 58 58 (58 :: (u :: more ++ tail)) =
        (PairSplit.splitPair 58 58 (u :: more ++ tail)).modifyHead (List.cons 58) := by
      rw [List.cons_append, PairSplit.splitPair, if_neg fun hpair => hne hpair.2]
    rw [List.append_assoc, splitPair_append (h.not_mem not_hex_colon), List.cons_append, heq,
      hcolon, ← heq, ih]
    cases PairSplit.splitPair 58 58 tail with
    | nil => rfl
    | cons first others => simp

/-! ## Rewriting octets -/

theorem last_colon (front : JsString) {tail : JsString} (h : (58 : UInt16) ∉ tail) :
    beforeLast (front ++ 58 :: tail) = front ∧ afterLast (front ++ 58 :: tail) = tail := by
  have hreverse : (front ++ 58 :: tail).reverse = tail.reverse ++ 58 :: front.reverse := by simp
  have hstop : ∀ u ∈ tail.reverse, decide (u ≠ 58) = true := fun u hu => by
    simpa using fun heq : u = 58 => h (heq ▸ List.mem_reverse.1 hu)
  constructor
  · rw [beforeLast, if_pos (by simp), List.rdropWhile, hreverse,
      List.dropWhile_append_of_pos hstop]
    simp
  · rw [afterLast, List.rtakeWhile, hreverse, List.takeWhile_append_of_pos hstop]
    simp

theorem groupTail_of_not_mem (h : (46 : UInt16) ∉ text) : groupTail text = text := if_neg h

/-- Behind a colon, groups that end in octets are rewritten to groups of the same number. -/
theorem Pieces.groupTail (h : Pieces true text words) :
    ∃ groups, Pieces false groups words ∧
      ((46 : UInt16) ∉ text → groups = text) ∧
      ((46 : UInt16) ∈ text → ∀ front,
        Network.groupTail (front ++ 58 :: text) = front ++ 58 :: groups) := by
  induction h with
  | group h =>
    refine ⟨_, .group h, fun _ => rfl, fun hdot => ?_⟩
    exact absurd hdot (h.not_mem not_hex_dot)
  | @octets text value _ h =>
    have hhigh : value >>> 16 = value / 65536 := Nat.shiftRight_eq_div_pow value 16
    have hlow : value &&& 65535 = value % 65536 := Nat.and_two_pow_sub_one_eq_mod value 16
    have hlt : value / 65536 < 65536 := by
      have hbound := h.lt
      omega
    refine ⟨hexText (value / 65536) ++ 58 :: hexText (value % 65536),
      .cons (HexGroup.hexText hlt) (.group (HexGroup.hexText (Nat.mod_lt _ (by omega)))),
      fun hno => absurd h.units.1 hno, fun hdot front => ?_⟩
    have ⟨hbefore, hafter⟩ := 
      last_colon front (h.not_mem (by decide : isDigit 58 = false) (by decide))
    rw [Network.groupTail, if_pos (List.mem_append_right _ (.tail _ hdot))]
    simp only [hbefore, hafter, h.ipv4Value, hhigh, hlow]
  | @cons text more word words h _ ih =>
    have ⟨groups, hgroups, hsame, hrewrite⟩ := ih
    refine ⟨text ++ 58 :: groups, .cons h hgroups, fun hno => ?_, fun hdot front => ?_⟩
    · rw [hsame fun hin => hno (List.mem_append_right _ (.tail _ hin))]
    · have hmore : (46 : UInt16) ∈ more := by
        rcases List.mem_append.1 hdot with hin | hin
        · exact absurd hin (h.not_mem not_hex_dot)
        · cases hin with
          | tail _ hin => exact hin
      have hlater := hrewrite hmore (front ++ 58 :: text)
      simpa using hlater

theorem Pieces.no_dot (h : Pieces false text words) : (46 : UInt16) ∉ text := by
  generalize hquad : false = quad at h
  induction h with
  | group h => exact h.not_mem not_hex_dot
  | octets hno => rw [← hquad] at hno; cases hno
  | cons h _ ih =>
    intro hmem
    rcases List.mem_append.1 hmem with hin | hin
    · exact h.not_mem not_hex_dot hin
    · cases hin with
      | tail _ hin => exact ih hin

theorem Side.no_dot (h : Side false text words) : (46 : UInt16) ∉ text := by
  cases h with
  | none => simp
  | some h => exact h.no_dot

/-- The eight groups of a literal that leaves none out. -/
theorem groupTail_full (h : Pieces true text words) (hlength : words.length = 8) :
    Pieces false (groupTail text) words := by
  cases h with
  | group | octets => cases hlength
  | @cons group more word words hgroup rest =>
    have ⟨groups, hgroups, hsame, hrewrite⟩ := rest.groupTail
    by_cases hdot : (46 : UInt16) ∈ more
    · rw [hrewrite hdot group]
      exact .cons hgroup hgroups
    · rw [groupTail_of_not_mem]
      · exact hsame hdot ▸ .cons hgroup hgroups
      · intro hmem
        rcases List.mem_append.1 hmem with hin | hin
        · exact hgroup.not_mem not_hex_dot hin
        · cases hin with
          | tail _ hin => exact hdot hin

/-- The groups on the two sides of `::`. -/
theorem groupTail_compressed (hleft : Side false left before) (hright : Side true right after) :
    ∃ groups, Side false groups after ∧
      groupTail (left ++ 58 :: 58 :: right) = left ++ 58 :: 58 :: groups := by
  have hplain : (46 : UInt16) ∉ right → groupTail (left ++ 58 :: 58 :: right) =
      left ++ 58 :: 58 :: right := by
    intro hno
    refine groupTail_of_not_mem fun hmem => ?_
    rcases List.mem_append.1 hmem with hin | hin
    · exact hleft.no_dot hin
    · simp only [List.mem_cons] at hin
      rcases hin with heq | heq | hin
      · cases heq
      · cases heq
      · exact hno hin
  cases hright with
  | none => exact ⟨[], .none, hplain (by simp)⟩
  | some h =>
    have ⟨groups, hgroups, hsame, hrewrite⟩ := h.groupTail
    refine ⟨groups, .some hgroups, ?_⟩
    by_cases hdot : (46 : UInt16) ∈ right
    · have hfront := hrewrite hdot (left ++ [58])
      simpa using hfront
    · rw [hplain hdot, hsame hdot]

/-! ## The value of a literal -/

theorem Side.splitPair (hleft : Side false left before) (hright : Side quad right after) :
    PairSplit.splitPair 58 58 (left ++ 58 :: 58 :: right) = [left, right] := by
  have hrest : PairSplit.splitPair 58 58 right = [right] := by
    cases hright with
    | none => rfl
    | some h =>
      have hsplit := h.splitPair []
      simpa [PairSplit.splitPair] using hsplit
  have hmark : PairSplit.splitPair 58 58 (58 :: 58 :: right) = [[], right] := by
    rw [PairSplit.splitPair, if_pos ⟨rfl, rfl⟩, hrest]
  cases hleft with
  | none => exact hmark
  | some h => rw [h.splitPair, hmark]; simp

theorem Side.groups (h : Side false text words) : (sideGroups text).map readHex = words := by
  cases h with
  | none => rfl
  | some h =>
    rw [sideGroups, if_neg h.ne_nil]
    exact h.splitOn

theorem filledGroups_full (h : Pieces false text words) :
    (filledGroups text).map readHex = words := by
  have hsplit := h.splitPair []
  simp only [List.append_nil, PairSplit.splitPair, List.modifyHead_cons] at hsplit
  simp only [filledGroups, hsplit, List.headD_cons, List.tail_cons, List.head?_nil]
  exact (Side.some h).groups

theorem filledGroups_compressed (hleft : Side false left before) (hright : Side false right after) :
    (filledGroups (left ++ 58 :: 58 :: right)).map readHex =
      before ++ (List.replicate (8 - before.length - after.length) 0 ++ after) := by
  have hzero : readHex (js "0") = 0 := by decide
  have hbefore := congrArg List.length hleft.groups
  have hafter := congrArg List.length hright.groups
  rw [List.length_map] at hbefore hafter
  simp only [filledGroups, hleft.splitPair hright, List.headD_cons, List.tail_cons,
    List.head?_cons, List.map_append, List.map_replicate, hzero, hleft.groups, hright.groups,
    hbefore, hafter]

/-- **The number of an IPv6 literal** is the one that the code computes. -/
theorem Ipv6Literal.numericValue (h : Ipv6Literal text words) :
    Network.numericValue text .ipv6 = wordsValue words := by
  have hgroups : (filledGroups (groupTail text)).map readHex = words := by
    cases h with
    | full h hlength => exact filledGroups_full (groupTail_full h hlength)
    | compressed hleft hright _ =>
      have ⟨groups, hside, heq⟩ := groupTail_compressed hleft hright
      rw [heq]
      exact filledGroups_compressed hleft hside
  rw [wordsValue, ← hgroups, List.foldl_map]
  rfl

/-! ## Recognition -/

theorem countGroups_cons {part : JsString} {parts : List JsString} (hne : parts ≠ []) :
    countGroups quad (part :: parts) =
      if isHexGroup part = true then (countGroups quad parts).map (· + 1) else none := by
  cases parts with
  | nil => exact absurd rfl hne
  | cons => rfl

theorem Pieces.count (h : Pieces quad text words) :
    countGroups quad (text.splitOn 58) = some words.length := by
  induction h with
  | @group text word h =>
    have hgroup : isHexGroup text = true := isHexGroup_iff.2 (h.value ▸ h)
    rw [List.splitOn_eq_singleton (h.not_mem not_hex_colon), countGroups, if_pos hgroup]
    rfl
  | @octets text value hquad h =>
    have hno : ¬isHexGroup text = true := fun hgroup =>
      (isHexGroup_iff.1 hgroup).not_mem not_hex_dot h.units.1
    rw [List.splitOn_eq_singleton (h.not_mem (by decide) (by decide)), countGroups, if_neg hno,
      if_pos ⟨hquad, isIPv4_iff.2 ⟨value, h⟩⟩]
    rfl
  | @cons text more word words h _ ih =>
    have hgroup : isHexGroup text = true := isHexGroup_iff.2 (h.value ▸ h)
    rw [List.splitOn_append_cons_self_of_not_mem (h.not_mem not_hex_colon),
      countGroups_cons (List.splitOn_ne_nil 58 more), if_pos hgroup, ih]
    rfl

theorem pieces_of_count {parts : List JsString} (h : countGroups quad parts = some n) :
    ∃ words, Pieces quad ([58].intercalate parts) words ∧ words.length = n := by
  induction parts generalizing n with
  | nil => cases h
  | cons part parts ih =>
    by_cases hlast : parts = []
    · subst hlast
      rw [countGroups] at h
      rw [List.intercalate_singleton]
      split at h
      next hgroup =>
        cases h
        exact ⟨_, .group (isHexGroup_iff.1 hgroup), rfl⟩
      · split at h
        next hoctets =>
          cases h
          have ⟨value, hliteral⟩ := isIPv4_iff.1 hoctets.2
          exact ⟨_, .octets hoctets.1 hliteral, rfl⟩
        · cases h
    · rw [countGroups_cons hlast] at h
      split at h
      next hgroup =>
        have ⟨m, hm, heq⟩ := Option.map_eq_some_iff.1 h
        have ⟨words, hwords, hlength⟩ := ih hm
        rw [List.intercalate_cons_of_ne_nil hlast]
        refine ⟨readHex part :: words, ?_, by rw [List.length_cons, hlength, heq]⟩
        rw [List.append_assoc]
        exact .cons (isHexGroup_iff.1 hgroup) hwords
      · cases h

theorem countSide_eq :
    countSide quad text = some n ↔ ∃ words, Side quad text words ∧ words.length = n := by
  unfold countSide
  constructor
  · intro h
    by_cases hnil : text = []
    · rw [if_pos hnil] at h
      cases h
      exact ⟨[], hnil ▸ .none, rfl⟩
    · rw [if_neg hnil] at h
      have ⟨words, hwords, hlength⟩ := pieces_of_count h
      rw [List.intercalate_splitOn] at hwords
      exact ⟨words, .some hwords, hlength⟩
  · rintro ⟨words, hside, hlength⟩
    cases hside with
    | none => rw [if_pos rfl, ← hlength]; rfl
    | some h => rw [if_neg h.ne_nil, h.count, hlength]

theorem isPlainIPv6_iff : isPlainIPv6 text = true ↔ ∃ words, Ipv6Literal text words := by
  constructor
  · intro h
    have hjoin := intercalate_splitPair (a := 58) (b := 58) text
    unfold isPlainIPv6 at h
    split at h
    next whole hsplit =>
      rw [hsplit, List.intercalate_singleton] at hjoin
      have ⟨words, hwords, hlength⟩ := pieces_of_count (beq_iff_eq.1 h)
      rw [List.intercalate_splitOn, hjoin] at hwords
      exact ⟨words, .full hwords hlength⟩
    next left right hsplit =>
      rw [hsplit, List.intercalate_cons_cons, List.intercalate_singleton] at hjoin
      split at h
      next before after hbefore hafter =>
        have ⟨ls, hleft, hls⟩ := countSide_eq.1 hbefore
        have ⟨rs, hright, hrs⟩ := countSide_eq.1 hafter
        refine ⟨ls ++ (List.replicate (8 - ls.length - rs.length) 0 ++ rs), ?_⟩
        rw [← hjoin, List.append_assoc]
        exact .compressed hleft hright (by
          have hle := of_decide_eq_true h
          omega)
      · cases h
    · cases h
  · rintro ⟨words, h⟩
    cases h with
    | full h hlength =>
      have hsplit := h.splitPair []
      simp only [List.append_nil, PairSplit.splitPair, List.modifyHead_cons] at hsplit
      simp only [isPlainIPv6, hsplit, h.count, hlength, beq_self_eq_true]
    | @compressed left right before after hleft hright hlength =>
      have hbefore := countSide_eq.2 ⟨before, hleft, rfl⟩
      have hafter := countSide_eq.2 ⟨after, hright, rfl⟩
      simp only [isPlainIPv6, hleft.splitPair hright, hbefore, hafter, hlength, decide_true]

theorem Side.units (h : Side quad text words) :
    ∀ u ∈ text, isHexUnit u = true ∨ u = 58 ∨ u = 46 := by
  cases h with
  | none => simp
  | some h => exact h.units

/-- The units of an IPv6 literal; a colon is among them. -/
theorem Ipv6Literal.units (h : Ipv6Literal text words) :
    (58 : UInt16) ∈ text ∧ ∀ u ∈ text, isHexUnit u = true ∨ u = 58 ∨ u = 46 := by
  cases h with
  | full h hlength =>
    refine ⟨?_, h.units⟩
    cases h with
    | group | octets => cases hlength
    | cons => simp
  | compressed hleft hright _ =>
    refine ⟨by simp, fun u hu => ?_⟩
    rcases List.mem_append.1 hu with hin | hin
    · exact hleft.units u hin
    · simp only [List.mem_cons] at hin
      rcases hin with heq | heq | hin
      · exact .inr (.inl heq)
      · exact .inr (.inl heq)
      · exact hright.units u hin

theorem isIPv6_of_plain (h : (37 : UInt16) ∉ text) : isIPv6 text = isPlainIPv6 text := by
  have hunits : ∀ u ∈ text, decide (u ≠ 37) = true := fun u hu => by
    simpa using fun heq : u = 37 => h (heq ▸ hu)
  have htake : text.takeWhile (fun u => decide (u ≠ 37)) = text :=
    List.takeWhile_eq_self_iff.2 hunits
  have hdrop : text.dropWhile (fun u => decide (u ≠ 37)) = [] := List.dropWhile_eq_nil_iff.2 hunits
  rw [isIPv6, htake, hdrop]
  simp

theorem IpLiteral.no_zone (h : IpLiteral text family value) : (37 : UInt16) ∉ text := by
  cases family with
  | ipv4 => exact Ipv4Literal.not_mem h (by decide) (by decide)
  | ipv6 =>
    have ⟨words, hliteral, _⟩ := h
    intro hmem
    rcases hliteral.units.2 37 hmem with hhex | heq | heq
    · exact absurd hhex (by decide)
    · cases heq
    · cases heq

/-- Without a zone, `isIP` accepts the literals of the grammar. -/
theorem isIP_iff (hzone : (37 : UInt16) ∉ text) :
    isIP text = some family ↔ ∃ value, IpLiteral text family value := by
  have hsix : isIPv6 text = true ↔ ∃ value, IpLiteral text .ipv6 value := by
    rw [isIPv6_of_plain hzone, isPlainIPv6_iff]
    exact ⟨fun ⟨words, h⟩ => ⟨wordsValue words, words, h, rfl⟩,
      fun ⟨_, words, h, _⟩ => ⟨words, h⟩⟩
  have hapart : isIPv4 text = true → ¬isIPv6 text = true := by
    intro hfour hboth
    have ⟨value, hliteral⟩ := isIPv4_iff.1 hfour
    have ⟨_, words, hwords, _⟩ := hsix.1 hboth
    exact hliteral.not_mem (by decide) (by decide) hwords.units.1
  unfold isIP
  cases family with
  | ipv4 =>
    rw [show (∃ value, IpLiteral text .ipv4 value) ↔ isIPv4 text = true from isIPv4_iff.symm]
    by_cases hfour : isIPv4 text = true
    · simp [hfour]
    · by_cases hother : isIPv6 text = true
      · simp [hfour, hother]
      · simp [hfour, hother]
  | ipv6 =>
    rw [← hsix]
    by_cases hfour : isIPv4 text = true
    · simp [hfour, hapart hfour]
    · by_cases hother : isIPv6 text = true
      · simp [hfour, hother]
      · simp [hfour, hother]

theorem IpLiteral.numericValue (h : IpLiteral text family value) :
    Network.numericValue text family = value := by
  cases family with
  | ipv4 => exact Ipv4Literal.ipv4Value h
  | ipv6 =>
    have ⟨words, hliteral, hvalue⟩ := h
    rw [hliteral.numericValue, hvalue]

/-- **Addresses are read as the numbers of their literals**, and nothing else is read. -/
theorem parseNumericAddress_iff :
    parseNumericAddress text = some ⟨family, value⟩ ↔ IpLiteral text family value := by
  unfold parseNumericAddress
  constructor
  · intro h
    split at h
    · cases h
    next found hfound =>
      split at h
      · cases h
      next hzone =>
        simp only [Option.some.injEq, NumericAddress.mk.injEq] at h
        have ⟨hfamily, hvalue⟩ := h
        subst hfamily
        have ⟨number, hliteral⟩ := (isIP_iff hzone).1 hfound
        rw [hliteral.numericValue] at hvalue
        exact hvalue ▸ hliteral
  · intro h
    rw [(isIP_iff h.no_zone).2 ⟨value, h⟩]
    simp only [if_neg h.no_zone, h.numericValue]

/-! ## Bounds -/

theorem HexGroup.lt {word : Nat} (h : HexGroup text word) : word < 65536 := by
  have hlt := readHex_lt h.digits
  have hpow : 16 ^ text.length ≤ 16 ^ 4 := Nat.pow_le_pow_right (by omega) h.length
  rw [h.value]
  omega

theorem Pieces.small (h : Pieces quad text words) : ∀ word ∈ words, word < 65536 := by
  induction h with
  | group h => simpa using h.lt
  | @octets text value _ h =>
    have hlt := h.lt
    intro word hword
    simp only [List.mem_cons, List.not_mem_nil, or_false] at hword
    omega
  | cons h _ ih => simpa using ⟨h.lt, ih⟩

theorem Side.small (h : Side quad text words) : ∀ word ∈ words, word < 65536 := by
  cases h with
  | none => simp
  | some h => exact h.small

/-- Eight groups of sixteen bits. -/
theorem Ipv6Literal.eight (h : Ipv6Literal text words) :
    words.length = 8 ∧ ∀ word ∈ words, word < 65536 := by
  cases h with
  | full h hlength => exact ⟨hlength, h.small⟩
  | compressed hleft hright hlength =>
    refine ⟨?_, fun word hword => ?_⟩
    · simp only [List.length_append, List.length_replicate]
      omega
    · rcases List.mem_append.1 hword with hin | hin
      · exact hleft.small word hin
      · rcases List.mem_append.1 hin with hzero | hin
        · rw [List.eq_of_mem_replicate hzero]
          omega
        · exact hright.small word hin

/-- The number of a literal fits its family. -/
theorem IpLiteral.lt (h : IpLiteral text family value) : value < 2 ^ addressWidth family := by
  cases family with
  | ipv4 => exact Ipv4Literal.lt h
  | ipv6 =>
    have ⟨words, hliteral, hvalue⟩ := h
    have ⟨hlength, hsmall⟩ := hliteral.eight
    have hlt := foldl_digits_lt (f := id) hsmall 0
    rw [hlength] at hlt
    rw [hvalue, wordsValue]
    exact Nat.lt_of_lt_of_le hlt (by decide)

/-! ## Formatting -/

theorem pieces_hexText {words : List Nat} (hne : words ≠ []) (h : ∀ word ∈ words, word < 65536) :
    Pieces quad ([58].intercalate (words.map hexText)) words := by
  induction words with
  | nil => exact absurd rfl hne
  | cons word words ih =>
    have hword := HexGroup.hexText (h word (by simp))
    by_cases hlast : words = []
    · subst hlast
      simpa using Pieces.group hword
    · have hrest := ih hlast fun other hother => h other (by simp [hother])
      rw [List.map_cons, List.intercalate_cons_of_ne_nil (by simpa using hlast),
        List.append_assoc]
      exact .cons hword hrest

theorem and_low (value shift width : Nat) :
    (value >>> shift) &&& (2 ^ width - 1) = value / 2 ^ shift % 2 ^ width := by
  rw [Nat.and_two_pow_sub_one_eq_mod, Nat.shiftRight_eq_div_pow]

theorem format_ipv4 (h : value < 2 ^ 32) :
    Ipv4Literal (formatNumericAddress value .ipv4) value := by
  refine ⟨[24, 16, 8, 0].map fun shift => (value >>> shift) &&& 255, rfl, ?_, ?_, ?_⟩
  · intro octet hoctet
    have ⟨shift, _, heq⟩ := List.mem_map.1 hoctet
    rw [← heq]
    exact Nat.and_le_right
  · rw [formatNumericAddress, List.map_map]
    rfl
  · have hoctet : ∀ shift, (value >>> shift) &&& 255 = value / 2 ^ shift % 256 := fun shift =>
      and_low value shift 8
    simp only [List.map_cons, List.map_nil, List.foldl_cons, List.foldl_nil, hoctet]
    omega

theorem words_value (h : value < 2 ^ 128) :
    wordsValue ((List.range 8).map fun index => (value >>> ((7 - index) * 16)) &&& 65535) =
      value := by
  have hword : ∀ shift, (value >>> shift) &&& 65535 = value / 2 ^ shift % 65536 := fun shift =>
    and_low value shift 16
  have hstep : ∀ k, value / 2 ^ (k + 16) = value / 2 ^ k / 65536 := fun k => by
    rw [Nat.pow_add, ← Nat.div_div_eq_div_mul]
  have hbase : value / 2 ^ 0 = value := by rw [Nat.pow_zero, Nat.div_one]
  have hnone : value / 2 ^ 128 = 0 := Nat.div_eq_of_lt h
  have h1 : value / 2 ^ 16 = value / 2 ^ 0 / 65536 := hstep 0
  have h2 : value / 2 ^ 32 = value / 2 ^ 16 / 65536 := hstep 16
  have h3 : value / 2 ^ 48 = value / 2 ^ 32 / 65536 := hstep 32
  have h4 : value / 2 ^ 64 = value / 2 ^ 48 / 65536 := hstep 48
  have h5 : value / 2 ^ 80 = value / 2 ^ 64 / 65536 := hstep 64
  have h6 : value / 2 ^ 96 = value / 2 ^ 80 / 65536 := hstep 80
  have h7 : value / 2 ^ 112 = value / 2 ^ 96 / 65536 := hstep 96
  have h8 : value / 2 ^ 128 = value / 2 ^ 112 / 65536 := hstep 112
  rw [show List.range 8 = [0, 1, 2, 3, 4, 5, 6, 7] from rfl]
  simp only [wordsValue, List.map_cons, List.map_nil, List.foldl_cons, List.foldl_nil, hword,
    Nat.reduceSub, Nat.reduceMul]
  clear hword hstep h
  generalize value / 2 ^ 0 = low at *
  generalize value / 2 ^ 16 = a at *
  generalize value / 2 ^ 32 = b at *
  generalize value / 2 ^ 48 = c at *
  generalize value / 2 ^ 64 = d at *
  generalize value / 2 ^ 80 = e at *
  generalize value / 2 ^ 96 = f at *
  generalize value / 2 ^ 112 = g at *
  generalize value / 2 ^ 128 = k at *
  omega

theorem format_ipv6 (value : Nat) :
    Ipv6Literal (formatNumericAddress value .ipv6)
      ((List.range 8).map fun index => (value >>> ((7 - index) * 16)) &&& 65535) := by
  have hpieces : Pieces true
      ([58].intercalate (((List.range 8).map fun index =>
        (value >>> ((7 - index) * 16)) &&& 65535).map hexText))
      ((List.range 8).map fun index => (value >>> ((7 - index) * 16)) &&& 65535) := by
    refine pieces_hexText (by simp) fun word hword => ?_
    have ⟨index, _, heq⟩ := List.mem_map.1 hword
    rw [← heq]
    exact Nat.lt_of_le_of_lt Nat.and_le_right (by omega)
  rw [List.map_map] at hpieces
  exact .full hpieces (by simp)

/-- **A formatted number is read back.** -/
theorem parse_formatNumericAddress (h : value < 2 ^ addressWidth family) :
    parseNumericAddress (formatNumericAddress value family) = some ⟨family, value⟩ := by
  rw [parseNumericAddress_iff]
  cases family with
  | ipv4 => exact format_ipv4 h
  | ipv6 => exact ⟨_, format_ipv6 value, (words_value h).symm⟩

end AgentSdk.Network
