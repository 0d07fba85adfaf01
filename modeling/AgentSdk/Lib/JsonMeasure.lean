import AgentSdk.Lib.JsonData
import AgentSdk.Lib.JsonSize
import AgentSdk.Lib.CodePoints

/-!
# The measures of JSON data

Three sizes of JSON data over any numbers: the bytes of its text, its nodes and
its depth.  A single value has one node and depth one.  The byte count never
looks at the text; it is the size of the text when numbers are spelled in ASCII.

## Main results

* `stringify_bytes` — the byte count is the size of the text.
* `sum_le_sum_of_keys` — parts with different keys cost no more than the members
  they are found in.
* `length_characters_le` — a code point takes at least one byte in JSON.
-/

namespace AgentSdk

open AgentSdk.Text

namespace JsonData

variable {ν : Type}

/-! ## Measures -/

section Measures

variable (spell : ν → JsString)

mutual

/-- Bytes of the compact text of a value. -/
def bytes : JsonData ν → Nat
  | .null => 4
  | .bool value => if value then 4 else 5
  | .num value => (spell value).length
  | .str value => Json.quoteBytes value
  | .arr items => 2 + (items.length - 1) + itemsBytes items
  | .obj fields => 2 + (fields.length - 1) + fieldsBytes fields

/-- Bytes of the elements of an array, separators apart. -/
def itemsBytes : List (JsonData ν) → Nat
  | [] => 0
  | item :: rest => bytes item + itemsBytes rest

/-- Bytes of the members of an object, separators apart. -/
def fieldsBytes : List (JsString × JsonData ν) → Nat
  | [] => 0
  | (key, value) :: rest => (Json.quoteBytes key + 1 + bytes value) + fieldsBytes rest

end

end Measures

mutual

/-- The values inside a value, itself included. -/
def nodes : JsonData ν → Nat
  | .null | .bool _ | .num _ | .str _ => 1
  | .arr items => 1 + itemsNodes items
  | .obj fields => 1 + fieldsNodes fields

def itemsNodes : List (JsonData ν) → Nat
  | [] => 0
  | item :: rest => nodes item + itemsNodes rest

def fieldsNodes : List (JsString × JsonData ν) → Nat
  | [] => 0
  | (_, value) :: rest => nodes value + fieldsNodes rest

end

mutual

/-- The levels of a value. -/
def depth : JsonData ν → Nat
  | .null | .bool _ | .num _ | .str _ => 1
  | .arr items => 1 + itemsDepth items
  | .obj fields => 1 + fieldsDepth fields

def itemsDepth : List (JsonData ν) → Nat
  | [] => 0
  | item :: rest => max (depth item) (itemsDepth rest)

def fieldsDepth : List (JsString × JsonData ν) → Nat
  | [] => 0
  | (_, value) :: rest => max (depth value) (fieldsDepth rest)

end

variable {spell : ν → JsString}

theorem itemsBytes_eq (items : List (JsonData ν)) :
    itemsBytes spell items = (items.map (bytes spell)).sum := by
  induction items with
  | nil => rfl
  | cons item rest ih => simp [itemsBytes, ih]

theorem fieldsBytes_eq (fields : List (JsString × JsonData ν)) :
    fieldsBytes spell fields =
      (fields.map fun field => Json.quoteBytes field.1 + 1 + bytes spell field.2).sum := by
  induction fields with
  | nil => rfl
  | cons field rest ih => simp [fieldsBytes, ih]

theorem itemsNodes_eq (items : List (JsonData ν)) : itemsNodes items = (items.map nodes).sum := by
  induction items with
  | nil => rfl
  | cons item rest ih => simp [itemsNodes, ih]

theorem fieldsNodes_eq (fields : List (JsString × JsonData ν)) :
    fieldsNodes fields = (fields.map fun field => nodes field.2).sum := by
  induction fields with
  | nil => rfl
  | cons field rest ih => simp [fieldsNodes, ih]

theorem depth_le_itemsDepth {items : List (JsonData ν)} {item : JsonData ν} (h : item ∈ items) :
    item.depth ≤ itemsDepth items := by
  induction items with
  | nil => simp at h
  | cons head rest ih =>
    simp only [itemsDepth]
    rcases List.mem_cons.1 h with heq | hin
    · exact heq ▸ Nat.le_max_left _ _
    · exact (ih hin).trans (Nat.le_max_right _ _)

theorem depth_le_fieldsDepth {fields : List (JsString × JsonData ν)}
    {field : JsString × JsonData ν} (h : field ∈ fields) :
    field.2.depth ≤ fieldsDepth fields := by
  induction fields with
  | nil => simp at h
  | cons head rest ih =>
    simp only [fieldsDepth]
    rcases List.mem_cons.1 h with heq | hin
    · exact heq ▸ Nat.le_max_left _ _
    · exact (ih hin).trans (Nat.le_max_right _ _)

theorem nodes_pos (value : JsonData ν) : 1 ≤ value.nodes := by
  cases value <;> simp only [nodes] <;> omega

theorem depth_pos (value : JsonData ν) : 1 ≤ value.depth := by
  cases value <;> simp only [depth] <;> omega

/-! ## The size of the text -/

/-- Well-formed text of a known size. -/
structure Sized (s : JsString) (n : Nat) : Prop where
  wellFormed : wellFormed s = true
  size : utf8Length s = n

theorem Sized.append {s t : JsString} {m n : Nat} (hs : Sized s m) (ht : Sized t n) :
    Sized (s ++ t) (m + n) := by
  refine ⟨wellFormed_append s t hs.wellFormed ht.wellFormed, ?_⟩
  rw [utf8Length_append s t hs.wellFormed, hs.size, ht.size]

theorem Sized.ascii {s : JsString} (h : ∀ u ∈ s, u.toNat < 0x80) : Sized s s.length :=
  ⟨(ascii_size s h).1, (ascii_size s h).2⟩

theorem Sized.cons {u : UInt16} {s : JsString} {n : Nat} (hu : u.toNat < 0x80) (hs : Sized s n) :
    Sized (u :: s) (1 + n) := by
  have hone : Sized [u] 1 := Sized.ascii (by simpa using hu)
  exact hone.append hs

theorem Sized.quote (s : JsString) : Sized (Json.quote s) (Json.quoteBytes s) :=
  ⟨(Json.quote_size s).1, (Json.quote_size s).2⟩

theorem sized_words :
    Sized (js "null") 4 ∧ Sized (js "true") 4 ∧ Sized (js "false") 5 :=
  ⟨⟨by decide, by decide⟩, ⟨by decide, by decide⟩, ⟨by decide, by decide⟩⟩

theorem Sized.of_eq {s : JsString} {m n : Nat} (h : Sized s m) (heq : m = n) : Sized s n :=
  heq ▸ h

mutual

theorem stringify_sized (hspell : ∀ n, ∀ u ∈ spell n, u.toNat < 0x80) :
    ∀ v : JsonData ν, Sized (stringify spell v) (bytes spell v)
  | .null => sized_words.1
  | .bool true => sized_words.2.1
  | .bool false => sized_words.2.2
  | .num value => Sized.ascii (hspell value)
  | .str value => Sized.quote value
  | .arr items => by
      have hend : Sized ([93] : JsString) 1 := ⟨by decide, by decide⟩
      have htext := Sized.cons (u := 91) (by decide)
        ((stringifyItems_sized hspell items).append hend)
      exact htext.of_eq (by simp only [bytes]; omega)
  | .obj fields => by
      have hend : Sized ([125] : JsString) 1 := ⟨by decide, by decide⟩
      have htext := Sized.cons (u := 123) (by decide)
        ((stringifyFields_sized hspell fields).append hend)
      exact htext.of_eq (by simp only [bytes]; omega)

theorem stringifyItems_sized (hspell : ∀ n, ∀ u ∈ spell n, u.toNat < 0x80) :
    ∀ items : List (JsonData ν),
      Sized (stringifyItems spell items) ((items.length - 1) + itemsBytes spell items)
  | [] => ⟨rfl, rfl⟩
  | [item] => (stringify_sized hspell item).of_eq (by simp [itemsBytes])
  | item :: next :: rest => by
      have htext := (stringify_sized hspell item).append
        (Sized.cons (u := 44) (by decide) (stringifyItems_sized hspell (next :: rest)))
      exact htext.of_eq (by simp only [itemsBytes, List.length_cons]; omega)

theorem stringifyFields_sized (hspell : ∀ n, ∀ u ∈ spell n, u.toNat < 0x80) :
    ∀ fields : List (JsString × JsonData ν),
      Sized (stringifyFields spell fields) ((fields.length - 1) + fieldsBytes spell fields)
  | [] => ⟨rfl, rfl⟩
  | [(key, value)] => by
      have htext := (Sized.quote key).append
        (Sized.cons (u := 58) (by decide) (stringify_sized hspell value))
      exact htext.of_eq (by simp only [fieldsBytes, List.length_singleton]; omega)
  | (key, value) :: next :: rest => by
      have hmember := (Sized.quote key).append
        (Sized.cons (u := 58) (by decide) (stringify_sized hspell value))
      have htext := hmember.append
        (Sized.cons (u := 44) (by decide) (stringifyFields_sized hspell (next :: rest)))
      exact htext.of_eq (by simp only [fieldsBytes, List.length_cons]; omega)

end

/-- **The byte count is the size of the text.** -/
theorem stringify_bytes (hspell : ∀ n, ∀ u ∈ spell n, u.toNat < 0x80) (value : JsonData ν) :
    utf8Length (value.stringify spell) = value.bytes spell :=
  (stringify_sized hspell value).size

/-! ## Members by key -/

/-- **Parts with different keys** that are found among the members of an object cost no
more than the members do. -/
theorem sum_le_sum_of_keys {κ α β : Type} {parts : List (κ × α)} {members : List (κ × β)}
    {cost : κ × α → Nat} {price : κ × β → Nat} (hkeys : (parts.map Prod.fst).Nodup)
    (hfound : ∀ part ∈ parts, ∃ member ∈ members, member.1 = part.1 ∧ cost part ≤ price member) :
    (parts.map cost).sum ≤ (members.map price).sum := by
  induction parts generalizing members with
  | nil => simp
  | cons part rest ih =>
    obtain ⟨member, hmember, hkey, hcost⟩ := hfound part (by simp)
    obtain ⟨left, right, hsplit⟩ := List.append_of_mem hmember
    rw [List.map_cons, List.nodup_cons] at hkeys
    have hrest : (rest.map cost).sum ≤ ((left ++ right).map price).sum := by
      refine ih hkeys.2 fun other hother => ?_
      obtain ⟨found, hin, hsame, hle⟩ := hfound other (List.mem_cons_of_mem part hother)
      -- the other part has another key, so it was found in another member
      have hne : found ≠ member := by
        intro heq
        refine hkeys.1 (List.mem_map.2 ⟨other, hother, ?_⟩)
        rw [← hsame, heq, hkey]
      refine ⟨found, ?_, hsame, hle⟩
      rw [hsplit, List.mem_append, List.mem_cons] at hin
      rw [List.mem_append]
      rcases hin with hleft | heq | hright
      · exact .inl hleft
      · exact absurd heq hne
      · exact .inr hright
    rw [hsplit]
    simp only [List.map_append, List.map_cons, List.sum_append, List.sum_cons] at hrest ⊢
    omega

/-! ## Code points -/

/-- A code point takes at least one byte in JSON. -/
theorem length_characters_le (s : JsString) : (characters s).length ≤ Json.escapeBytes s := by
  induction s using characters.induct with
  | case1 => simp [characters]
  | case2 u => simpa [characters, Json.escapeBytes] using Json.escapeUnitBytes_pos u
  | case3 u v rest hpair ih =>
    simp only [characters_pair hpair, Json.escapeBytes, hpair, if_true, List.length_cons]
    omega
  | case4 u v rest hpair ih =>
    have hsplit : (isHighSurrogate u && isLowSurrogate v) = false := by simpa using hpair
    have hunit := Json.escapeUnitBytes_pos u
    simp only [characters_single hsplit, Json.escapeBytes, hsplit, Bool.false_eq_true, if_false,
      List.length_cons]
    omega

end JsonData

end AgentSdk
