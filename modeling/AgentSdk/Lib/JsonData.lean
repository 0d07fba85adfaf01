import AgentSdk.Lib.Json

/-!
# JSON data over any numbers

JSON data whose numbers come from a type of the caller's choice, and its
compact text as `JSON.stringify` prints it, given how a number is spelled.  The
canonical form and the byte counts of integer data are in `AgentSdk.Lib.Json`;
here the members of an object keep their order.

## Main results

* `stringify_printable` — the text holds no control character and no lone
  surrogate when the spelling of numbers holds none.
-/

namespace AgentSdk

open AgentSdk.Text

/-- Finite JSON data with numbers in `ν`. -/
inductive JsonData (ν : Type) where
  | null
  | bool (value : Bool)
  | num (value : ν)
  | str (value : JsString)
  | arr (items : List (JsonData ν))
  | obj (fields : List (JsString × JsonData ν))

namespace JsonData

variable {ν : Type}

section Text

variable (spell : ν → JsString)

mutual

/-- The compact text of a value. -/
def stringify : JsonData ν → JsString
  | .null => js "null"
  | .bool value => if value then js "true" else js "false"
  | .num value => spell value
  | .str value => Json.quote value
  | .arr items => 91 :: (stringifyItems items ++ [93])
  | .obj fields => 123 :: (stringifyFields fields ++ [125])

/-- Array elements separated by commas. -/
def stringifyItems : List (JsonData ν) → JsString
  | [] => []
  | [item] => stringify item
  | item :: next :: rest => stringify item ++ 44 :: stringifyItems (next :: rest)

/-- Object members separated by commas. -/
def stringifyFields : List (JsString × JsonData ν) → JsString
  | [] => []
  | [(key, value)] => Json.quote key ++ 58 :: stringify value
  | (key, value) :: next :: rest =>
    (Json.quote key ++ 58 :: stringify value) ++ 44 :: stringifyFields (next :: rest)

end

end Text

/-! ## Printable text -/

/-- Text without control characters and without lone surrogates. -/
structure Printable (s : JsString) : Prop where
  wellFormed : wellFormed s = true
  noControl : ∀ u ∈ s, 0x20 ≤ u.toNat

theorem Printable.append {s t : JsString} (hs : Printable s) (ht : Printable t) :
    Printable (s ++ t) := by
  refine ⟨wellFormed_append s t hs.wellFormed ht.wellFormed, fun u hu => ?_⟩
  rw [List.mem_append] at hu
  exact hu.elim (hs.noControl u) (ht.noControl u)

/-- A visible ASCII character in front keeps text printable. -/
theorem Printable.cons {u : UInt16} {s : JsString} (hlow : 0x20 ≤ u.toNat)
    (hhigh : u.toNat < 0x80) (hs : Printable s) : Printable (u :: s) := by
  have hone : Printable [u] :=
    ⟨(ascii_size [u] (by simpa using hhigh)).1, by simpa using hlow⟩
  exact hone.append hs

theorem Printable.nil : Printable [] := ⟨rfl, by simp⟩

private theorem escapeUnit_noControl (u v : UInt16) (hv : v ∈ Json.escapeUnit u) :
    0x20 ≤ v.toNat := by
  have hhex : ∀ d < 16, 0x20 ≤ (Json.hexUnit d).toNat := by decide
  have hshort : ∀ w ∈ ([34, 92, 98, 102, 110, 114, 116] : List UInt16),
      v ∈ ([92, w] : List UInt16) → 0x20 ≤ v.toNat := by
    intro w hw hv
    have hrange : ∀ x ∈ ([34, 92, 98, 102, 110, 114, 116] : List UInt16), 0x20 ≤ x.toNat :=
      forall_of_all (by decide)
    simp only [List.mem_cons, List.not_mem_nil, or_false] at hv
    rcases hv with rfl | rfl
    · decide
    · exact hrange v hw
  unfold Json.escapeUnit at hv
  split_ifs at hv with h1 h2 h3 h4 h5 h6 h7 h8
  · exact hshort 34 (by decide) hv
  · exact hshort 92 (by decide) hv
  · exact hshort 98 (by decide) hv
  · exact hshort 102 (by decide) hv
  · exact hshort 110 (by decide) hv
  · exact hshort 114 (by decide) hv
  · exact hshort 116 (by decide) hv
  · simp only [Json.unicodeEscape, List.mem_cons, List.not_mem_nil, or_false] at hv
    rcases hv with rfl | rfl | rfl | rfl | rfl | rfl
    · decide
    · decide
    all_goals exact hhex _ (Nat.mod_lt _ (by omega))
  · rw [List.mem_singleton] at hv
    rw [hv]
    omega

private theorem escape_noControl (s : JsString) : ∀ u ∈ Json.escape s, 0x20 ≤ u.toNat := by
  induction s using Json.escape.induct with
  | case1 => simp [Json.escape]
  | case2 u => exact fun v hv => escapeUnit_noControl u v hv
  | case3 u v rest hpair ih =>
    have hsurrogate : 0xD800 ≤ u.toNat ∧ 0xDC00 ≤ v.toNat := by
      simp only [isHighSurrogate, isLowSurrogate, Bool.and_eq_true, decide_eq_true_eq] at hpair
      omega
    intro w hw
    simp only [Json.escape, hpair, if_true, List.mem_cons] at hw
    rcases hw with rfl | rfl | hw
    · omega
    · omega
    · exact ih w hw
  | case4 u v rest hpair ih =>
    intro w hw
    simp only [Json.escape, hpair, Bool.false_eq_true, if_false, List.mem_append] at hw
    exact hw.elim (escapeUnit_noControl u w) (ih w)

/-- A string literal is printable, whatever the string holds. -/
theorem quote_printable (s : JsString) : Printable (Json.quote s) := by
  refine ⟨(Json.quote_size s).1, fun u hu => ?_⟩
  simp only [Json.quote, List.mem_cons, List.mem_append, List.not_mem_nil, or_false] at hu
  rcases hu with rfl | hu | rfl
  · decide
  · exact escape_noControl s u hu
  · decide

private theorem word_printable :
    ∀ s ∈ [js "null", js "true", js "false"], Printable s := by
  have hword : ∀ s ∈ [js "null", js "true", js "false"],
      Text.wellFormed s = true ∧ s.all (fun u => decide (0x20 ≤ u.toNat)) = true := by decide
  exact fun s hs => ⟨(hword s hs).1, forall_of_all (hword s hs).2⟩

variable {spell : ν → JsString}

mutual

/-- The text of JSON data is printable when the numbers' spellings are. -/
theorem stringify_printable (hspell : ∀ n, Printable (spell n)) :
    ∀ v : JsonData ν, Printable (stringify spell v)
  | .null => word_printable (js "null") (by simp)
  | .bool true => word_printable (js "true") (by simp)
  | .bool false => word_printable (js "false") (by simp)
  | .num value => hspell value
  | .str value => quote_printable value
  | .arr items =>
    Printable.cons (by decide) (by decide)
      ((stringifyItems_printable hspell items).append ⟨by decide, forall_of_all (by decide)⟩)
  | .obj fields =>
    Printable.cons (by decide) (by decide)
      ((stringifyFields_printable hspell fields).append ⟨by decide, forall_of_all (by decide)⟩)

theorem stringifyItems_printable (hspell : ∀ n, Printable (spell n)) :
    ∀ items : List (JsonData ν), Printable (stringifyItems spell items)
  | [] => Printable.nil
  | [item] => stringify_printable hspell item
  | item :: next :: rest =>
    (stringify_printable hspell item).append
      (Printable.cons (by decide) (by decide) (stringifyItems_printable hspell (next :: rest)))

theorem stringifyFields_printable (hspell : ∀ n, Printable (spell n)) :
    ∀ fields : List (JsString × JsonData ν), Printable (stringifyFields spell fields)
  | [] => Printable.nil
  | [(key, value)] =>
    (quote_printable key).append
      (Printable.cons (by decide) (by decide) (stringify_printable hspell value))
  | (key, value) :: next :: rest =>
    ((quote_printable key).append
      (Printable.cons (by decide) (by decide) (stringify_printable hspell value))).append
      (Printable.cons (by decide) (by decide) (stringifyFields_printable hspell (next :: rest)))

end

end JsonData

end AgentSdk
