import AgentSdk.Lib.JsonData
import AgentSdk.Lib.JsonText
import AgentSdk.Lib.Hex

/-!
# Reading JSON text

`JSON.parse`, with numbers kept as the numerals they are spelled with.  The
members of an object keep their order, repeated keys included; where a runtime
keeps the last of them, `member?` finds the last.

## Main results

* `readString_escape` — a string literal is read back.
* `parse_stringify` — the text of a value is read back.
-/

namespace AgentSdk

open AgentSdk.Text AgentSdk.Json

/-! ## Numerals -/

/-- The units a JSON number is made of. -/
def isNumeralUnit (u : UInt16) : Bool :=
  isDigit u || u == 43 || u == 45 || u == 46 || u == 69 || u == 101

/-- The value of a run of digits. -/
def readDigits (digits : JsString) : Nat := digits.foldl (fun n u => n * 10 + (u.toNat - 48)) 0

/-- Sign, digits, fraction and exponent of a JSON number. -/
structure NumeralParts where
  negative : Bool
  whole : JsString
  fraction : JsString
  small : Bool
  exponent : JsString

/-- The exponent behind `e` or `E`: whether it is negative, and its digits. -/
def exponentParts : JsString → Option (Bool × JsString)
  | [] => some (false, [48])
  | mark :: rest =>
    let digits := if rest.head? = some 43 ∨ rest.head? = some 45 then rest.tail else rest
    if (mark = 101 ∨ mark = 69) ∧ digits ≠ [] ∧ digits.all isDigit = true then
      some (decide (rest.head? = some 45), digits)
    else none

/-- The fraction behind a point, and what follows it. -/
def fractionParts : JsString → Option (JsString × JsString)
  | [] => some ([], [])
  | point :: rest =>
    if point = 46 then
      if rest.takeWhile isDigit = [] then none
      else some (rest.takeWhile isDigit, rest.dropWhile isDigit)
    else some ([], point :: rest)

/-- The parts of a text in the grammar of JSON numbers. -/
def numeralParts (text : JsString) : Option NumeralParts := do
  let unsigned := if text.head? = some 45 then text.tail else text
  let whole := unsigned.takeWhile isDigit
  if whole = [] ∨ (whole.head? = some 48 ∧ whole.length ≠ 1) then none
  else
    let (fraction, rest) ← fractionParts (unsigned.dropWhile isDigit)
    let (small, exponent) ← exponentParts rest
    pure ⟨decide (text.head? = some 45), whole, fraction, small, exponent⟩

/-- A JSON number as it is spelled. -/
structure Numeral where
  text : JsString
  units : text.all isNumeralUnit = true
  valid : (numeralParts text).isSome = true
  deriving DecidableEq

namespace Numeral

/-- Is the number read as 1?  So are the numbers that round to it in double precision. -/
def isOne (numeral : Numeral) : Bool :=
  match numeralParts numeral.text with
  | none => false
  | some parts =>
    let exponent := readDigits parts.exponent
    let up := if parts.small then 0 else exponent
    let down := parts.fraction.length + if parts.small then exponent else 0
    let above := readDigits (parts.whole ++ parts.fraction) * 10 ^ up
    let below := 10 ^ down
    !parts.negative && decide ((2 ^ 54 - 1) * below ≤ 2 ^ 54 * above) &&
      decide (2 ^ 53 * above ≤ (2 ^ 53 + 1) * below)

def one : Numeral := ⟨[49], by decide, by decide⟩

theorem text_ne_nil (numeral : Numeral) : numeral.text ≠ [] := by
  intro h
  have hvalid := numeral.valid
  rw [h] at hvalid
  exact absurd hvalid (by decide)

end Numeral

namespace JsonData

/-! ## Tokens -/

/-- JSON white space. -/
def isJsonSpace (u : UInt16) : Bool := u == 32 || u == 9 || u == 10 || u == 13

/-- The next unit behind white space. -/
def token (text : JsString) : Option (UInt16 × JsString) :=
  match text.dropWhile isJsonSpace with
  | [] => none
  | u :: rest => some (u, rest)

/-- What a one-letter escape stands for. -/
def shortEscape (u : UInt16) : Option UInt16 :=
  if u = 34 ∨ u = 92 ∨ u = 47 then some u
  else if u = 98 then some 8
  else if u = 102 then some 12
  else if u = 110 then some 10
  else if u = 114 then some 13
  else if u = 116 then some 9
  else none

/-- An escape behind its backslash. -/
def readEscape : JsString → Option (UInt16 × JsString)
  | [] => none
  | mark :: rest =>
    if mark = 117 then
      let digits := rest.take 4
      if digits.length = 4 ∧ digits.all isHexUnit = true then
        some (UInt16.ofNat (readHex digits), rest.drop 4)
      else none
    else (shortEscape mark).map fun u => (u, rest)

/-- A string literal behind its opening quote.  Every round takes a unit or an escape. -/
def readString : Nat → JsString → Option (JsString × JsString)
  | 0, _ => none
  | _ + 1, [] => none
  | fuel + 1, u :: rest =>
    if u = 34 then some ([], rest)
    else if u.toNat < 0x20 then none
    else do
      let (unit, rest) ← if u = 92 then readEscape rest else some (u, rest)
      let (text, rest) ← readString fuel rest
      pure (unit :: text, rest)

/-- A number, up to the first unit that no number holds. -/
def readNumeral (text : JsString) : Option (Numeral × JsString) :=
  let digits := text.takeWhile isNumeralUnit
  if h : digits.all isNumeralUnit = true ∧ (numeralParts digits).isSome = true then
    some (⟨digits, h.1, h.2⟩, text.dropWhile isNumeralUnit)
  else none

/-- A value that starts with neither a quote nor a bracket. -/
def readPlain (text : JsString) : Option (JsonData Numeral × JsString) :=
  if (js "null").isPrefixOf text then some (.null, text.drop 4)
  else if (js "true").isPrefixOf text then some (.bool true, text.drop 4)
  else if (js "false").isPrefixOf text then some (.bool false, text.drop 5)
  else (readNumeral text).map fun (numeral, rest) => (.num numeral, rest)

/-! ## Values -/

mutual

/-- A value at the front of a text. -/
def readValue : Nat → JsString → Option (JsonData Numeral × JsString)
  | 0, _ => none
  | fuel + 1, text => do
      let (u, rest) ← token text
      if u = 34 then
        let (value, rest) ← readString rest.length rest
        pure (.str value, rest)
      else if u = 91 then
        let (next, behind) ← token rest
        if next = 93 then pure (.arr [], behind)
        else
          let (items, rest) ← readItems fuel rest
          pure (.arr items, rest)
      else if u = 123 then
        let (next, behind) ← token rest
        if next = 125 then pure (.obj [], behind)
        else
          let (fields, rest) ← readFields fuel rest
          pure (.obj fields, rest)
      else readPlain (u :: rest)

/-- The elements of an array up to its bracket. -/
def readItems : Nat → JsString → Option (List (JsonData Numeral) × JsString)
  | 0, _ => none
  | fuel + 1, text => do
      let (item, rest) ← readValue fuel text
      let (next, rest) ← token rest
      if next = 44 then
        let (items, rest) ← readItems fuel rest
        pure (item :: items, rest)
      else if next = 93 then pure ([item], rest)
      else none

/-- The members of an object up to its bracket. -/
def readFields : Nat → JsString → Option (List (JsString × JsonData Numeral) × JsString)
  | 0, _ => none
  | fuel + 1, text => do
      let (quotation, rest) ← token text
      if quotation ≠ 34 then none
      else
        let (key, rest) ← readString rest.length rest
        let (colon, rest) ← token rest
        if colon ≠ 58 then none
        else
          let (value, rest) ← readValue fuel rest
          let (next, rest) ← token rest
          if next = 44 then
            let (fields, rest) ← readFields fuel rest
            pure ((key, value) :: fields, rest)
          else if next = 125 then pure ([(key, value)], rest)
          else none

end

/-- `JSON.parse`.  A value takes a unit for every two rounds. -/
def parse (text : JsString) : Option (JsonData Numeral) := do
  let (value, rest) ← readValue (2 * text.length + 2) text
  if rest.all isJsonSpace then some value else none

/-- The member of an object with a key. -/
def member? (fields : List (JsString × JsonData Numeral)) (key : JsString) :
    Option (JsonData Numeral) :=
  fields.reverse.lookup key

/-! ## A string literal is read back -/

theorem token_cons {u : UInt16} (h : isJsonSpace u = false) (rest : JsString) :
    token (u :: rest) = some (u, rest) := by
  simp [token, h]

theorem readEscape_unicodeEscape (u : UInt16) (rest : JsString) :
    readEscape ((unicodeEscape u).tail ++ rest) = some (u, rest) := by
  have hu := u.toNat_lt
  have h1 : u.toNat / 4096 % 16 < 16 := Nat.mod_lt _ (by omega)
  have h2 : u.toNat / 256 % 16 < 16 := Nat.mod_lt _ (by omega)
  have h3 : u.toNat / 16 % 16 < 16 := Nat.mod_lt _ (by omega)
  have h4 : u.toNat % 16 < 16 := Nat.mod_lt _ (by omega)
  have hread : readHex [hexUnit (u.toNat / 4096 % 16), hexUnit (u.toNat / 256 % 16),
      hexUnit (u.toNat / 16 % 16), hexUnit (u.toNat % 16)] = u.toNat := by
    simp only [readHex, List.foldl_cons, List.foldl_nil, hexDigit_hexUnit h1,
      hexDigit_hexUnit h2, hexDigit_hexUnit h3, hexDigit_hexUnit h4]
    omega
  simp [readEscape, unicodeEscape, hread, isHexUnit_hexUnit h1, isHexUnit_hexUnit h2,
    isHexUnit_hexUnit h3, isHexUnit_hexUnit h4]

/-- A unit that is written as itself. -/
theorem readString_verbatim {u : UInt16} (hquote : u ≠ 34) (hslash : u ≠ 92)
    (hlow : 0x20 ≤ u.toNat) (fuel : Nat) (rest : JsString) :
    readString (fuel + 1) (u :: rest) =
      (readString fuel rest).map fun found => (u :: found.1, found.2) := by
  rw [readString, if_neg hquote, if_neg (by omega), if_neg hslash]
  simp only [Option.bind_eq_bind, Option.bind_some]
  cases readString fuel rest <;> rfl

theorem readString_escapeUnit (u : UInt16) (fuel : Nat) (rest : JsString) :
    readString (fuel + 1) (escapeUnit u ++ rest) =
      (readString fuel rest).map fun found => (u :: found.1, found.2) := by
  have hescape : ∀ body, readEscape body = some (u, rest) →
      readString (fuel + 1) (92 :: body) =
        (readString fuel rest).map fun found => (u :: found.1, found.2) := by
    intro body hbody
    rw [readString, if_neg (by decide), if_neg (by decide), if_pos rfl, hbody]
    simp only [Option.bind_eq_bind, Option.bind_some]
    cases readString fuel rest <;> rfl
  rcases escapeUnit_cases u with ⟨c, -, hu, hmem⟩ | hu | ⟨hu, hslash, hquote, -, hlow⟩
  · rw [hu]
    refine hescape _ ?_
    simp only [List.mem_cons, Prod.mk.injEq, List.not_mem_nil, or_false] at hmem
    rcases hmem with ⟨rfl, rfl⟩ | ⟨rfl, rfl⟩ | ⟨rfl, rfl⟩ | ⟨rfl, rfl⟩ | ⟨rfl, rfl⟩ |
      ⟨rfl, rfl⟩ | ⟨rfl, rfl⟩ <;> rfl
  · rw [hu]
    exact hescape _ (readEscape_unicodeEscape u rest)
  · rw [hu]
    exact readString_verbatim hquote hslash hlow fuel rest

/-- **A string literal is read back** up to its closing quote. -/
theorem readString_escape (s rest : JsString) {fuel : Nat} (hfuel : s.length < fuel) :
    readString fuel (escape s ++ 34 :: rest) = some (s, rest) := by
  induction s using escape.induct generalizing fuel with
  | case1 =>
    obtain ⟨fuel, rfl⟩ := Nat.exists_eq_add_one_of_ne_zero (by omega : fuel ≠ 0)
    rfl
  | case2 u =>
    obtain ⟨fuel, rfl⟩ := Nat.exists_eq_add_of_lt hfuel
    rw [escape, List.length_singleton, readString_escapeUnit, Nat.add_comm 1]
    rfl
  | case3 u v s hpair ih =>
    simp only [List.length_cons] at hfuel
    obtain ⟨fuel, rfl⟩ := Nat.exists_eq_add_of_lt hfuel
    rw [Bool.and_eq_true] at hpair
    have hplain : ∀ w : UInt16, 0xD800 ≤ w.toNat → w ≠ 34 ∧ w ≠ 92 ∧ 0x20 ≤ w.toNat := by
      intro w hw
      refine ⟨?_, ?_, by omega⟩
      · rintro rfl
        exact absurd hw (by decide)
      · rintro rfl
        exact absurd hw (by decide)
    have hhigh := hpair.1
    have hlow := hpair.2
    simp only [isHighSurrogate, isLowSurrogate, Bool.and_eq_true, decide_eq_true_eq] at hhigh hlow
    obtain ⟨hu1, hu2, hu3⟩ := hplain u (by omega)
    obtain ⟨hv1, hv2, hv3⟩ := hplain v (by omega)
    rw [escape, if_pos (by simp [hpair]), List.cons_append, List.cons_append,
      show s.length + 1 + 1 + fuel + 1 = (s.length + fuel + 1) + 1 + 1 by omega,
      readString_verbatim hu1 hu2 hu3, readString_verbatim hv1 hv2 hv3, ih (by omega)]
    rfl
  | case4 u v s hpair ih =>
    simp only [List.length_cons] at hfuel ih
    obtain ⟨fuel, rfl⟩ := Nat.exists_eq_add_of_lt hfuel
    rw [escape, if_neg hpair, List.append_assoc,
      show s.length + 1 + 1 + fuel + 1 = (s.length + 1 + fuel + 1) + 1 by omega,
      readString_escapeUnit, ih (by omega)]
    rfl

theorem length_le_escape (s : JsString) : s.length ≤ (escape s).length := by
  have hunit : ∀ u, 1 ≤ (escapeUnit u).length := by
    intro u
    rcases escapeUnit_cases u with ⟨c, -, hu, -⟩ | hu | ⟨hu, -⟩ <;> simp [hu, unicodeEscape]
  induction s using escape.induct with
  | case1 => simp
  | case2 u => simpa [escape] using hunit u
  | case3 u v s hpair ih =>
    simp only [escape, hpair, if_true, List.length_cons]
    omega
  | case4 u v s hpair ih =>
    have hpos := hunit u
    simp only [escape, hpair, Bool.false_eq_true, if_false, List.length_append,
      List.length_cons] at ih ⊢
    omega

theorem readString_quote (s rest : JsString) :
    readString (escape s ++ 34 :: rest).length (escape s ++ 34 :: rest) = some (s, rest) := by
  refine readString_escape s rest ?_
  have hlength := length_le_escape s
  simp only [List.length_append, List.length_cons]
  omega

/-! ## A value is read back -/

theorem not_numeralUnit_of_boundary {rest : JsString} (h : Boundary rest) :
    rest.takeWhile isNumeralUnit = [] ∧ rest.dropWhile isNumeralUnit = rest := by
  cases rest with
  | nil => simp
  | cons u rest =>
    have hu : isNumeralUnit u = false := by
      rcases h u rfl with rfl | rfl | rfl <;> decide
    simp [hu]

theorem readNumeral_text (numeral : Numeral) {rest : JsString} (h : Boundary rest) :
    readNumeral (numeral.text ++ rest) = some (numeral, rest) := by
  have hunits := List.all_eq_true.1 numeral.units
  obtain ⟨htake, hdrop⟩ := not_numeralUnit_of_boundary h
  have hdigits : (numeral.text ++ rest).takeWhile isNumeralUnit = numeral.text := by
    rw [List.takeWhile_append_of_pos hunits, htake, List.append_nil]
  have hbehind : (numeral.text ++ rest).dropWhile isNumeralUnit = rest := by
    rw [List.dropWhile_append_of_pos hunits, hdrop]
  simp only [readNumeral, hdigits, hbehind, numeral.units, numeral.valid, and_self, dite_true]

/-- A numeral starts with a unit that starts no other value. -/
theorem numeral_head (numeral : Numeral) : ∃ u rest, numeral.text = u :: rest ∧
    isJsonSpace u = false ∧ u ∉ [34, 91, 93, 123, 110, 116, 102] := by
  have hunits := List.all_eq_true.1 numeral.units
  cases htext : numeral.text with
  | nil => exact absurd htext numeral.text_ne_nil
  | cons u rest =>
    have hu := hunits u (by simp [htext])
    refine ⟨u, rest, rfl, ?_, ?_⟩
    · cases hspace : isJsonSpace u with
      | false => rfl
      | true =>
        simp only [isJsonSpace, Bool.or_eq_true, beq_iff_eq] at hspace
        rcases hspace with ((rfl | rfl) | rfl) | rfl <;> exact absurd hu (by decide)
    · intro hmem
      simp only [List.mem_cons, List.not_mem_nil, or_false] at hmem
      rcases hmem with rfl | rfl | rfl | rfl | rfl | rfl | rfl <;> exact absurd hu (by decide)

/-- No value starts with white space or with a closing bracket. -/
theorem text_head (value : JsonData Numeral) :
    ∃ u rest, stringify Numeral.text value = u :: rest ∧ isJsonSpace u = false ∧ u ≠ 93 := by
  cases value with
  | null => exact ⟨110, _, rfl, by decide, by decide⟩
  | bool value =>
    cases value
    · exact ⟨102, _, rfl, by decide, by decide⟩
    · exact ⟨116, _, rfl, by decide, by decide⟩
  | num numeral =>
    obtain ⟨u, rest, htext, hspace, hmem⟩ := numeral_head numeral
    refine ⟨u, rest, htext, hspace, ?_⟩
    rintro rfl
    exact hmem (by decide)
  | str value => exact ⟨34, _, rfl, by decide, by decide⟩
  | arr items => exact ⟨91, _, rfl, by decide, by decide⟩
  | obj fields => exact ⟨123, _, rfl, by decide, by decide⟩

theorem boundary_cons {u : UInt16} (h : u = 44 ∨ u = 93 ∨ u = 125) (rest : JsString) :
    Boundary (u :: rest) := by
  intro v hv
  rw [List.head?_cons, Option.mem_some_iff] at hv
  exact hv ▸ h

theorem readValue_num (numeral : Numeral) {rest : JsString} {n : Nat} (hrest : Boundary rest)
    (hfuel : 2 * (stringify Numeral.text (.num numeral)).length ≤ n) :
    readValue n (stringify Numeral.text (.num numeral) ++ rest) = some (.num numeral, rest) := by
  cases n with
  | zero =>
    simp only [stringify, Nat.le_zero, Nat.mul_eq_zero, List.length_eq_zero_iff] at hfuel
    exact absurd (hfuel.resolve_left (by omega)) numeral.text_ne_nil
  | succ fuel =>
    obtain ⟨u, digits, htext, hspace, hmem⟩ := numeral_head numeral
    have hread := readNumeral_text numeral hrest
    simp only [List.mem_cons, List.not_mem_nil, or_false, not_or] at hmem
    obtain ⟨hquote, harr, -, hobj, hnull, htrue, hfalse⟩ := hmem
    have hplain : readPlain (u :: (digits ++ rest)) = some (.num numeral, rest) := by
      have hwords : (js "null").isPrefixOf (u :: (digits ++ rest)) = false ∧
          (js "true").isPrefixOf (u :: (digits ++ rest)) = false ∧
          (js "false").isPrefixOf (u :: (digits ++ rest)) = false := by
        have hn : js "null" = [110, 117, 108, 108] := rfl
        have ht : js "true" = [116, 114, 117, 101] := rfl
        have hf : js "false" = [102, 97, 108, 115, 101] := rfl
        simp [hn, ht, hf, List.isPrefixOf, Ne.symm hnull, Ne.symm htrue, Ne.symm hfalse]
      rw [htext, List.cons_append] at hread
      simp [readPlain, hwords, hread]
    rw [stringify, htext, List.cons_append, readValue, token_cons hspace]
    simp [hquote, harr, hobj, hplain]

mutual

theorem readValue_text : ∀ (value : JsonData Numeral) {r : JsString} {n : Nat},
    Boundary r → 2 * (stringify Numeral.text value).length ≤ n →
    readValue n (stringify Numeral.text value ++ r) = some (value, r)
  | .null, rest, fuel + 1, _, _ => rfl
  | .bool true, rest, fuel + 1, _, _ => rfl
  | .bool false, rest, fuel + 1, _, _ => rfl
  | .num numeral, _, _, hrest, hfuel => readValue_num numeral hrest hfuel
  | .str value, rest, fuel + 1, _, _ => by
      have hstring := readString_quote value rest
      have htext : stringify Numeral.text (.str value) ++ rest =
          34 :: (escape value ++ 34 :: rest) := by
        simp [stringify, quote]
      rw [htext, readValue, token_cons (by decide)]
      simp only [Option.bind_eq_bind, Option.bind_some, if_pos, hstring, Option.pure_def]
  | .arr [], rest, fuel + 1, _, _ => rfl
  | .arr (item :: items), rest, fuel + 1, _, hfuel => by
      have hlength : (stringify Numeral.text (.arr (item :: items))).length =
          (stringifyItems Numeral.text (item :: items)).length + 2 := by
        simp [stringify]
      have hitems := readItems_text item items (r := rest) (n := fuel) (by omega)
      obtain ⟨u, tail, hhead, hspace, hclose⟩ := text_head item
      obtain ⟨more, hmore⟩ : ∃ more, stringifyItems Numeral.text (item :: items) = u :: more := by
        cases items with
        | nil => exact ⟨tail, hhead⟩
        | cons next items => exact ⟨_, by rw [stringifyItems, hhead]; rfl⟩
      have htext : stringify Numeral.text (.arr (item :: items)) ++ rest =
          91 :: (stringifyItems Numeral.text (item :: items) ++ 93 :: rest) := by
        simp [stringify]
      rw [htext, readValue, token_cons (by decide)]
      have hnext : token (stringifyItems Numeral.text (item :: items) ++ 93 :: rest) =
          some (u, more ++ 93 :: rest) := by
        rw [hmore, List.cons_append, token_cons hspace]
      simp [hnext, hclose, hitems]
  | .obj [], rest, fuel + 1, _, _ => rfl
  | .obj ((key, value) :: fields), rest, fuel + 1, _, hfuel => by
      have hlength : (stringify Numeral.text (.obj ((key, value) :: fields))).length =
          (stringifyFields Numeral.text ((key, value) :: fields)).length + 2 := by
        simp [stringify]
      have hfields := readFields_text key value fields (r := rest) (n := fuel) (by omega)
      obtain ⟨more, hmore⟩ : ∃ more,
          stringifyFields Numeral.text ((key, value) :: fields) = 34 :: more := by
        cases fields with
        | nil | cons => exact ⟨_, rfl⟩
      have htext : stringify Numeral.text (.obj ((key, value) :: fields)) ++ rest =
          123 :: (stringifyFields Numeral.text ((key, value) :: fields) ++ 125 :: rest) := by
        simp [stringify]
      rw [htext, readValue, token_cons (by decide)]
      have hnext : token (stringifyFields Numeral.text ((key, value) :: fields) ++ 125 :: rest) =
          some (34, more ++ 125 :: rest) := by
        rw [hmore, List.cons_append, token_cons (by decide)]
      simp [hnext, hfields]

theorem readItems_text : ∀ (item : JsonData Numeral) (items : List (JsonData Numeral))
    {r : JsString} {n : Nat},
    2 * (stringifyItems Numeral.text (item :: items)).length + 1 ≤ n →
    readItems n (stringifyItems Numeral.text (item :: items) ++ 93 :: r) =
      some (item :: items, r)
  | item, [], rest, fuel + 1, hfuel => by
      have hvalue := readValue_text item (r := 93 :: rest) (n := fuel)
        (boundary_cons (by simp) rest) (by simpa [stringifyItems] using hfuel)
      rw [stringifyItems, readItems, hvalue]
      simp [token_cons (u := 93) (by decide)]
  | item, next :: items, rest, fuel + 1, hfuel => by
      simp only [stringifyItems, List.length_append, List.length_cons] at hfuel
      have hvalue := readValue_text item (n := fuel)
        (r := 44 :: (stringifyItems Numeral.text (next :: items) ++ 93 :: rest))
        (boundary_cons (by simp) _) (by omega)
      have hitems := readItems_text next items (r := rest) (n := fuel) (by omega)
      rw [stringifyItems, List.append_assoc, List.cons_append, readItems, hvalue]
      simp [token_cons (u := 44) (by decide), hitems]

theorem readFields_text : ∀ (key : JsString) (value : JsonData Numeral)
    (fields : List (JsString × JsonData Numeral)) {r : JsString} {n : Nat},
    2 * (stringifyFields Numeral.text ((key, value) :: fields)).length + 1 ≤ n →
    readFields n (stringifyFields Numeral.text ((key, value) :: fields) ++ 125 :: r) =
      some ((key, value) :: fields, r)
  | key, value, [], rest, fuel + 1, hfuel => by
      simp only [stringifyFields, List.length_append, List.length_cons] at hfuel
      have hvalue := readValue_text value (r := 125 :: rest) (n := fuel)
        (boundary_cons (by simp) rest) (by omega)
      have htext : stringifyFields Numeral.text [(key, value)] ++ 125 :: rest =
          34 :: (escape key ++ 34 :: (58 :: (stringify Numeral.text value ++ 125 :: rest))) := by
        simp [stringifyFields, quote]
      rw [htext, readFields, token_cons (by decide)]
      simp only [Option.bind_eq_bind, Option.bind_some, ne_eq, not_true, if_false]
      rw [readString_quote]
      simp [token_cons (u := 58) (by decide), token_cons (u := 125) (by decide), hvalue]
  | key, value, (key', value') :: fields, rest, fuel + 1, hfuel => by
      simp only [stringifyFields, List.length_append, List.length_cons] at hfuel
      have hvalue := readValue_text value (n := fuel)
        (r := 44 :: (stringifyFields Numeral.text ((key', value') :: fields) ++ 125 :: rest))
        (boundary_cons (by simp) _) (by omega)
      have hfields := readFields_text key' value' fields (r := rest) (n := fuel) (by omega)
      have htext : stringifyFields Numeral.text ((key, value) :: (key', value') :: fields) ++
          125 :: rest = 34 :: (escape key ++ 34 :: (58 :: (stringify Numeral.text value ++
            44 :: (stringifyFields Numeral.text ((key', value') :: fields) ++ 125 :: rest)))) := by
        simp [stringifyFields, quote]
      rw [htext, readFields, token_cons (by decide)]
      simp only [Option.bind_eq_bind, Option.bind_some, ne_eq, not_true, if_false]
      rw [readString_quote]
      simp [token_cons (u := 58) (by decide), token_cons (u := 44) (by decide), hvalue, hfields]

end

/-- **The text of a value is read back.** -/
theorem parse_stringify (value : JsonData Numeral) :
    parse (stringify Numeral.text value) = some value := by
  have hread := readValue_text value (r := [])
    (n := 2 * (stringify Numeral.text value).length + 2) (fun u hu => by simp at hu) (by omega)
  rw [List.append_nil] at hread
  rw [parse, hread]
  rfl

end JsonData

end AgentSdk
