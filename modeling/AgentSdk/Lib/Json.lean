import AgentSdk.Lib.Text

/-!
# Canonical JSON text and its size

Finite JSON data, its compact text with keys in ascending order, and the
number of UTF-8 bytes of that text.  The text follows `JSON.stringify`: two
character escapes where they exist, lower-case `\u` escapes for the other
control characters and for lone surrogates, everything else verbatim.

`jsonBytes` counts without building the text.  It does not look at the order
of keys, so it is the size of the canonical text as well (`canonicalBytes_eq`);
every byte bound of a development over this module is an inequality about
`jsonBytes`.

Keys are assumed not to spell array indices, which a runtime would move in
front of the other keys of an object.
-/

namespace AgentSdk

open AgentSdk.Text

/-- Finite JSON data.  Numbers are integers. -/
inductive Json where
  | null
  | bool (value : Bool)
  | num (value : Int)
  | str (value : JsString)
  | arr (items : List Json)
  | obj (fields : List (JsString × Json))

namespace Json

/-! ## Strings -/

/-- The code unit of one lower-case hexadecimal digit. -/
def hexUnit (d : Nat) : UInt16 :=
  if d < 10 then UInt16.ofNat (48 + d) else UInt16.ofNat (87 + d)

/-- `\uXXXX` for one code unit. -/
def unicodeEscape (u : UInt16) : JsString :=
  [92, 117, hexUnit (u.toNat / 4096 % 16), hexUnit (u.toNat / 256 % 16),
    hexUnit (u.toNat / 16 % 16), hexUnit (u.toNat % 16)]

/-- How a code unit that is not half of a pair is written inside a JSON
string. -/
def escapeUnit (u : UInt16) : JsString :=
  if u = 34 then [92, 34]
  else if u = 92 then [92, 92]
  else if u = 8 then [92, 98]
  else if u = 12 then [92, 102]
  else if u = 10 then [92, 110]
  else if u = 13 then [92, 114]
  else if u = 9 then [92, 116]
  else if u.toNat < 0x20 ∨ isSurrogate u = true then unicodeEscape u
  else [u]

/-- The body of a JSON string literal. -/
def escape : JsString → JsString
  | [] => []
  | [u] => escapeUnit u
  | u :: v :: rest =>
    if isHighSurrogate u && isLowSurrogate v then u :: v :: escape rest
    else escapeUnit u ++ escape (v :: rest)

/-- A JSON string literal. -/
def quote (s : JsString) : JsString := 34 :: (escape s ++ [34])

/-! ## Text -/

mutual

/-- The compact text of a value, keys in the order they are stored. -/
def stringify : Json → JsString
  | .null => js "null"
  | .bool value => if value then js "true" else js "false"
  | .num value => decimal value
  | .str value => quote value
  | .arr items => 91 :: (stringifyItems items ++ [93])
  | .obj fields => 123 :: (stringifyFields fields ++ [125])

/-- Array elements separated by commas. -/
def stringifyItems : List Json → JsString
  | [] => []
  | [item] => stringify item
  | item :: next :: rest => stringify item ++ 44 :: stringifyItems (next :: rest)

/-- Object members separated by commas. -/
def stringifyFields : List (JsString × Json) → JsString
  | [] => []
  | [(key, value)] => quote key ++ 58 :: stringify value
  | (key, value) :: next :: rest =>
    (quote key ++ 58 :: stringify value) ++ 44 :: stringifyFields (next :: rest)

end

/-! ## Canonical order -/

/-- Strings compare by code units, as the runtime's `<` does. -/
def textLt : JsString → JsString → Bool
  | [], [] => false
  | [], _ :: _ => true
  | _ :: _, [] => false
  | u :: s, v :: t =>
    if u.toNat < v.toNat then true else if v.toNat < u.toNat then false else textLt s t

/-- Insertion of one member before the first key that is not smaller. -/
def insertField (field : JsString × Json) :
    List (JsString × Json) → List (JsString × Json)
  | [] => [field]
  | head :: rest =>
    if textLt head.1 field.1 then head :: insertField field rest
    else field :: head :: rest

/-- Members in ascending order of their keys. -/
def sortFields : List (JsString × Json) → List (JsString × Json)
  | [] => []
  | field :: rest => insertField field (sortFields rest)

mutual

/-- The same data with the members of every object sorted. -/
def canonicalize : Json → Json
  | .arr items => .arr (canonicalizeItems items)
  | .obj fields => .obj (sortFields (canonicalizeFields fields))
  | .null => .null
  | .bool value => .bool value
  | .num value => .num value
  | .str value => .str value

/-- `canonicalize` on the elements of an array. -/
def canonicalizeItems : List Json → List Json
  | [] => []
  | item :: rest => canonicalize item :: canonicalizeItems rest

/-- `canonicalize` on the member values of an object. -/
def canonicalizeFields : List (JsString × Json) → List (JsString × Json)
  | [] => []
  | (key, value) :: rest => (key, canonicalize value) :: canonicalizeFields rest

end

/-- The canonical text of a value. -/
def canonicalText (value : Json) : JsString := stringify (canonicalize value)

/-- The number of UTF-8 bytes of the canonical text. -/
def canonicalBytes (value : Json) : Nat := utf8Length (canonicalText value)

/-! ## Counting without building the text -/

/-- Bytes of one escaped code unit. -/
def escapeUnitBytes (u : UInt16) : Nat :=
  if u = 34 ∨ u = 92 ∨ u = 8 ∨ u = 12 ∨ u = 10 ∨ u = 13 ∨ u = 9 then 2
  else if u.toNat < 0x20 ∨ isSurrogate u = true then 6
  else unitBytes u

/-- Bytes of the body of a JSON string literal. -/
def escapeBytes : JsString → Nat
  | [] => 0
  | [u] => escapeUnitBytes u
  | u :: v :: rest =>
    if isHighSurrogate u && isLowSurrogate v then 4 + escapeBytes rest
    else escapeUnitBytes u + escapeBytes (v :: rest)

/-- Bytes of a JSON string literal. -/
def quoteBytes (s : JsString) : Nat := 2 + escapeBytes s

mutual

/-- Bytes of the compact text of a value. -/
def jsonBytes : Json → Nat
  | .null => 4
  | .bool value => if value then 4 else 5
  | .num value => (decimal value).length
  | .str value => quoteBytes value
  | .arr items => 2 + (items.length - 1) + itemsBytes items
  | .obj fields => 2 + (fields.length - 1) + fieldsBytes fields

/-- Bytes of the elements of an array, separators apart. -/
def itemsBytes : List Json → Nat
  | [] => 0
  | item :: rest => jsonBytes item + itemsBytes rest

/-- Bytes of the members of an object, separators apart. -/
def fieldsBytes : List (JsString × Json) → Nat
  | [] => 0
  | (key, value) :: rest => (quoteBytes key + 1 + jsonBytes value) + fieldsBytes rest

end

/-! ### Escapes -/

theorem toNat_hexUnit_lt {d : Nat} (hd : d < 16) : (hexUnit d).toNat < 0x80 := by
  unfold hexUnit
  split <;> simp only [UInt16.toNat_ofNat'] <;> omega

private theorem unicodeEscape_size (u : UInt16) :
    wellFormed (unicodeEscape u) = true ∧ utf8Length (unicodeEscape u) = 6 := by
  have h := ascii_size (unicodeEscape u) (by
    intro v hv
    simp only [unicodeEscape, List.mem_cons, List.not_mem_nil, or_false] at hv
    rcases hv with rfl | rfl | rfl | rfl | rfl | rfl
    · decide
    · decide
    all_goals exact toNat_hexUnit_lt (Nat.mod_lt _ (by omega)))
  exact ⟨h.1, by rw [h.2]; rfl⟩

private theorem escapeUnit_size (u : UInt16) :
    wellFormed (escapeUnit u) = true ∧ utf8Length (escapeUnit u) = escapeUnitBytes u := by
  unfold escapeUnit escapeUnitBytes
  split_ifs with h1 h2 h3 h4 h5 h6 h7 h8 h9
  all_goals first
    | (exact ⟨by decide, by decide⟩)
    | (exact unicodeEscape_size u)
    | (exfalso; simp_all; done)
    | skip
  have hu : isSurrogate u = false := by
    cases hs : isSurrogate u with
    | false => rfl
    | true => simp_all
  exact ⟨by simp [wellFormed, hu], by simp [utf8Length]⟩

/-- A JSON string body holds no lone surrogate, and its size is what
`escapeBytes` counts. -/
theorem escape_size (s : JsString) :
    wellFormed (escape s) = true ∧ utf8Length (escape s) = escapeBytes s := by
  induction s using escape.induct with
  | case1 => exact ⟨rfl, rfl⟩
  | case2 u => simpa [escape, escapeBytes] using escapeUnit_size u
  | case3 u v rest hpair ih =>
    simp only [escape, escapeBytes, hpair, if_true, wellFormed, utf8Length]
    exact ⟨ih.1, by rw [ih.2]⟩
  | case4 u v rest hpair ih =>
    obtain ⟨hwf, hsize⟩ := escapeUnit_size u
    simp only [escape, escapeBytes, hpair, if_false, Bool.false_eq_true]
    exact ⟨wellFormed_append _ _ hwf ih.1,
      by rw [utf8Length_append _ _ hwf, hsize, ih.2]⟩

private theorem ascii_cons {u : UInt16} {s : JsString} (hu : u.toNat < 0x80)
    (hs : wellFormed s = true) :
    wellFormed (u :: s) = true ∧ utf8Length (u :: s) = 1 + utf8Length s := by
  obtain ⟨hwf, hlen⟩ := ascii_size [u] (by simpa using hu)
  have h := utf8Length_append [u] s hwf
  rw [hlen] at h
  exact ⟨wellFormed_append [u] s hwf hs, by simpa using h⟩

theorem quote_size (s : JsString) :
    wellFormed (quote s) = true ∧ utf8Length (quote s) = quoteBytes s := by
  obtain ⟨hwf, hsize⟩ := escape_size s
  have hbody : wellFormed (escape s ++ [34]) = true := wellFormed_append _ _ hwf (by decide)
  obtain ⟨hq, hlen⟩ := ascii_cons (u := 34) (by decide) hbody
  refine ⟨hq, ?_⟩
  have hend : utf8Length [34] = 1 := by decide
  rw [quote, hlen, utf8Length_append _ _ hwf, hsize, hend, quoteBytes]
  omega

private theorem decimal_size (n : Int) :
    wellFormed (decimal n) = true ∧ utf8Length (decimal n) = (decimal n).length := by
  refine ascii_size _ fun u hu => ?_
  have hdigit : ∀ v ∈ natDecimal n.natAbs, v.toNat < 0x80 := by
    intro v hv
    have := isDigit_of_mem_natDecimal hv
    simp only [isDigit, Bool.and_eq_true, decide_eq_true_eq] at this
    omega
  unfold decimal at hu
  split at hu
  · rcases List.mem_cons.1 hu with rfl | hu
    · decide
    · exact hdigit u hu
  · exact hdigit u hu

/-! ### Values -/

mutual

/-- The text of a value is well-formed UTF-16 of the counted size. -/
theorem stringify_size : ∀ v : Json,
    wellFormed (stringify v) = true ∧ utf8Length (stringify v) = jsonBytes v
  | .null => by simp only [stringify, jsonBytes]; decide
  | .bool true => by simp only [stringify, jsonBytes, if_true]; decide
  | .bool false => by
      simp only [stringify, jsonBytes, Bool.false_eq_true, if_false]; decide
  | .num n => by simpa only [stringify, jsonBytes] using decimal_size n
  | .str s => by simpa only [stringify, jsonBytes] using quote_size s
  | .arr items => by
      obtain ⟨hwf, hsize⟩ := stringifyItems_size items
      obtain ⟨hq, hlen⟩ := ascii_cons (u := 91) (by decide)
        (wellFormed_append _ [93] hwf (by decide))
      have hend : utf8Length [93] = 1 := by decide
      simp only [stringify, jsonBytes]
      refine ⟨hq, ?_⟩
      rw [hlen, utf8Length_append _ _ hwf, hend, hsize]
      omega
  | .obj fields => by
      obtain ⟨hwf, hsize⟩ := stringifyFields_size fields
      obtain ⟨hq, hlen⟩ := ascii_cons (u := 123) (by decide)
        (wellFormed_append _ [125] hwf (by decide))
      have hend : utf8Length [125] = 1 := by decide
      simp only [stringify, jsonBytes]
      refine ⟨hq, ?_⟩
      rw [hlen, utf8Length_append _ _ hwf, hend, hsize]
      omega

theorem stringifyItems_size : ∀ items : List Json,
    wellFormed (stringifyItems items) = true ∧
      utf8Length (stringifyItems items) = (items.length - 1) + itemsBytes items
  | [] => by simp only [stringifyItems, itemsBytes]; decide
  | [item] => by
      simpa [stringifyItems, itemsBytes] using stringify_size item
  | item :: next :: rest => by
      obtain ⟨hwf, hsize⟩ := stringify_size item
      obtain ⟨hwfs, hsizes⟩ := stringifyItems_size (next :: rest)
      obtain ⟨hc, hclen⟩ := ascii_cons (u := 44) (by decide) hwfs
      simp only [stringifyItems]
      refine ⟨wellFormed_append _ _ hwf hc, ?_⟩
      rw [utf8Length_append _ _ hwf, hclen, hsize, hsizes]
      simp only [itemsBytes, List.length_cons]
      omega

theorem stringifyFields_size : ∀ fields : List (JsString × Json),
    wellFormed (stringifyFields fields) = true ∧
      utf8Length (stringifyFields fields) = (fields.length - 1) + fieldsBytes fields
  | [] => by simp only [stringifyFields, fieldsBytes]; decide
  | [(key, value)] => by
      obtain ⟨hk, hklen⟩ := quote_size key
      obtain ⟨hv, hvlen⟩ := stringify_size value
      obtain ⟨hc, hclen⟩ := ascii_cons (u := 58) (by decide) hv
      simp only [stringifyFields]
      refine ⟨wellFormed_append _ _ hk hc, ?_⟩
      rw [utf8Length_append _ _ hk, hclen, hklen, hvlen]
      simp only [fieldsBytes, List.length_singleton]
      omega
  | (key, value) :: next :: rest => by
      obtain ⟨hk, hklen⟩ := quote_size key
      obtain ⟨hv, hvlen⟩ := stringify_size value
      obtain ⟨hc, hclen⟩ := ascii_cons (u := 58) (by decide) hv
      obtain ⟨hwfs, hsizes⟩ := stringifyFields_size (next :: rest)
      obtain ⟨hs, hslen⟩ := ascii_cons (u := 44) (by decide) hwfs
      have hmember := wellFormed_append _ _ hk hc
      simp only [stringifyFields]
      refine ⟨wellFormed_append _ _ hmember hs, ?_⟩
      rw [utf8Length_append _ _ hmember, utf8Length_append _ _ hk, hclen, hklen,
        hvlen, hslen, hsizes]
      simp only [fieldsBytes, List.length_cons]
      omega

end

/-! ### Canonical order keeps the size -/

theorem insertField_size (field : JsString × Json) (fields : List (JsString × Json)) :
    (insertField field fields).length = fields.length + 1 ∧
      fieldsBytes (insertField field fields) =
        (quoteBytes field.1 + 1 + jsonBytes field.2) + fieldsBytes fields := by
  obtain ⟨key, value⟩ := field
  induction fields with
  | nil => simp [insertField, fieldsBytes]
  | cons head rest ih =>
    obtain ⟨headKey, headValue⟩ := head
    unfold insertField
    split
    · simp only [List.length_cons, fieldsBytes, ih.1, ih.2]
      exact ⟨trivial, by omega⟩
    · simp only [List.length_cons, fieldsBytes]
      exact ⟨trivial, trivial⟩

theorem sortFields_size (fields : List (JsString × Json)) :
    (sortFields fields).length = fields.length ∧
      fieldsBytes (sortFields fields) = fieldsBytes fields := by
  induction fields with
  | nil => simp [sortFields]
  | cons field rest ih =>
    obtain ⟨key, value⟩ := field
    obtain ⟨hlen, hsize⟩ := insertField_size (key, value) (sortFields rest)
    simp only [sortFields, hlen, hsize, ih.1, ih.2, List.length_cons, fieldsBytes]
    exact ⟨trivial, trivial⟩

mutual

theorem jsonBytes_canonicalize : ∀ v : Json, jsonBytes (canonicalize v) = jsonBytes v
  | .null | .bool _ | .num _ | .str _ => by simp only [canonicalize]
  | .arr items => by
      obtain ⟨hlen, hsize⟩ := itemsBytes_canonicalizeItems items
      simp only [canonicalize, jsonBytes, hlen, hsize]
  | .obj fields => by
      obtain ⟨hlen, hsize⟩ := fieldsBytes_canonicalizeFields fields
      obtain ⟨hslen, hssize⟩ := sortFields_size (canonicalizeFields fields)
      simp only [canonicalize, jsonBytes, hslen, hssize, hlen, hsize]

theorem itemsBytes_canonicalizeItems : ∀ items : List Json,
    (canonicalizeItems items).length = items.length ∧
      itemsBytes (canonicalizeItems items) = itemsBytes items
  | [] => by simp only [canonicalizeItems]; decide
  | item :: rest => by
      obtain ⟨hlen, hsize⟩ := itemsBytes_canonicalizeItems rest
      simp only [canonicalizeItems, List.length_cons, itemsBytes, hlen, hsize,
        jsonBytes_canonicalize item]
      exact ⟨trivial, trivial⟩

theorem fieldsBytes_canonicalizeFields : ∀ fields : List (JsString × Json),
    (canonicalizeFields fields).length = fields.length ∧
      fieldsBytes (canonicalizeFields fields) = fieldsBytes fields
  | [] => by simp only [canonicalizeFields]; decide
  | (key, value) :: rest => by
      obtain ⟨hlen, hsize⟩ := fieldsBytes_canonicalizeFields rest
      simp only [canonicalizeFields, List.length_cons, fieldsBytes, hlen, hsize,
        jsonBytes_canonicalize value]
      exact ⟨trivial, trivial⟩

end

/-- **The size of the canonical text** is what the byte counter returns. -/
theorem canonicalBytes_eq (v : Json) : canonicalBytes v = jsonBytes v := by
  rw [canonicalBytes, canonicalText, (stringify_size (canonicalize v)).2,
    jsonBytes_canonicalize]

-- Proofs know these two by their theorems and never compute with them.
attribute [irreducible] canonicalText canonicalBytes

end Json

end AgentSdk
