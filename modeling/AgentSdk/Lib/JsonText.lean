import AgentSdk.Lib.Json

/-!
# JSON text determines the value

Two values with the same compact text are equal.  The proof reads the text from
the left: a string literal ends at its first unescaped quote, a number at the
first unit that is no digit, and arrays and objects at their closing bracket.
What follows a value is therefore part of the statement.

## Main results

* `quote_append_inj` — a string literal can be read back from the front.
* `stringify_inj` — equal text, equal value.
* `canonicalText_inj` — equal canonical text, equal up to the order of keys.
-/

namespace AgentSdk.Json

open AgentSdk.Text

/-! ## String literals -/

/-- Does the string start with a surrogate pair? -/
def startsPair : JsString → Bool
  | u :: v :: _ => isHighSurrogate u && isLowSurrogate v
  | _ => false

theorem escape_cons_of_pair {u v : UInt16} {s : JsString}
    (h : startsPair (u :: v :: s) = true) :
    escape (u :: v :: s) = u :: v :: escape s := by
  simp only [startsPair] at h
  simp [escape, h]

theorem escape_cons_of_not_pair {u : UInt16} {s : JsString}
    (h : startsPair (u :: s) = false) :
    escape (u :: s) = escapeUnit u ++ escape s := by
  cases s with
  | nil => simp [escape]
  | cons v rest =>
    simp only [startsPair] at h
    simp [escape, h]

private theorem hexUnit_inj {a b : Nat} (ha : a < 16) (hb : b < 16)
    (h : hexUnit a = hexUnit b) : a = b := by
  have hn : (hexUnit a).toNat = (hexUnit b).toNat := by rw [h]
  unfold hexUnit at hn
  split at hn <;> split at hn <;> simp only [UInt16.toNat_ofNat'] at hn <;> omega

private theorem unicodeEscape_append_inj {u v : UInt16} {r r' : JsString}
    (h : unicodeEscape u ++ r = unicodeEscape v ++ r') : u = v ∧ r = r' := by
  simp only [unicodeEscape, List.cons_append, List.nil_append, List.cons.injEq,
    true_and] at h
  obtain ⟨h1, h2, h3, h4, hr⟩ := h
  have e1 := hexUnit_inj (Nat.mod_lt _ (by omega)) (Nat.mod_lt _ (by omega)) h1
  have e2 := hexUnit_inj (Nat.mod_lt _ (by omega)) (Nat.mod_lt _ (by omega)) h2
  have e3 := hexUnit_inj (Nat.mod_lt _ (by omega)) (Nat.mod_lt _ (by omega)) h3
  have e4 := hexUnit_inj (Nat.mod_lt _ (by omega)) (Nat.mod_lt _ (by omega)) h4
  have hu := u.toNat_lt
  have hv := v.toNat_lt
  exact ⟨UInt16.toNat_inj.1 (by omega), hr⟩

/-- How one unit is written: after a backslash, as a `\u` escape, or as
itself. -/
theorem escapeUnit_cases (u : UInt16) :
    (∃ c, c ≠ 117 ∧ escapeUnit u = [92, c] ∧
      ((u, c) ∈ [((34 : UInt16), (34 : UInt16)), (92, 92), (8, 98), (12, 102), (10, 110),
        (13, 114), (9, 116)])) ∨
    escapeUnit u = unicodeEscape u ∨
    (escapeUnit u = [u] ∧ u ≠ 92 ∧ u ≠ 34 ∧ isSurrogate u = false ∧ 0x20 ≤ u.toNat) := by
  unfold escapeUnit
  split_ifs with h1 h2 h3 h4 h5 h6 h7 h8
  · exact Or.inl ⟨34, by decide, rfl, by simp [h1]⟩
  · exact Or.inl ⟨92, by decide, rfl, by simp [h2]⟩
  · exact Or.inl ⟨98, by decide, rfl, by simp [h3]⟩
  · exact Or.inl ⟨102, by decide, rfl, by simp [h4]⟩
  · exact Or.inl ⟨110, by decide, rfl, by simp [h5]⟩
  · exact Or.inl ⟨114, by decide, rfl, by simp [h6]⟩
  · exact Or.inl ⟨116, by decide, rfl, by simp [h7]⟩
  · exact Or.inr (Or.inl rfl)
  · rw [not_or, Nat.not_lt, Bool.not_eq_true] at h8
    exact Or.inr (Or.inr ⟨rfl, h2, h1, h8.2, h8.1⟩)

/-- The escapes of single units form a prefix code. -/
private theorem escapeUnit_append_inj {u v : UInt16} {r r' : JsString}
    (h : escapeUnit u ++ r = escapeUnit v ++ r') : u = v ∧ r = r' := by
  rcases escapeUnit_cases u with ⟨c, hc, hu, hmem⟩ | hu | ⟨hu, hu92, _, _⟩ <;>
    rcases escapeUnit_cases v with ⟨d, hd, hv, hmem'⟩ | hv | ⟨hv, hv92, _, _⟩ <;>
    rw [hu, hv] at h
  · simp only [List.cons_append, List.nil_append, List.cons.injEq, true_and] at h
    obtain ⟨rfl, hr⟩ := h
    simp only [List.mem_cons, Prod.mk.injEq, List.not_mem_nil, or_false] at hmem hmem'
    refine ⟨?_, hr⟩
    rcases hmem with ⟨rfl, rfl⟩ | ⟨rfl, rfl⟩ | ⟨rfl, rfl⟩ | ⟨rfl, rfl⟩ | ⟨rfl, rfl⟩ |
      ⟨rfl, rfl⟩ | ⟨rfl, rfl⟩ <;> simpa [eq_comm] using hmem'
  · simp only [unicodeEscape, List.cons_append, List.nil_append, List.cons.injEq,
      true_and] at h
    exact absurd h.1 hc
  · simp only [List.cons_append, List.nil_append, List.cons.injEq] at h
    exact absurd h.1.symm hv92
  · simp only [unicodeEscape, List.cons_append, List.nil_append, List.cons.injEq,
      true_and] at h
    exact absurd h.1.symm hd
  · exact unicodeEscape_append_inj h
  · simp only [unicodeEscape, List.cons_append, List.nil_append, List.cons.injEq] at h
    exact absurd h.1.symm hv92
  · simp only [List.cons_append, List.nil_append, List.cons.injEq] at h
    exact absurd h.1 hu92
  · simp only [unicodeEscape, List.cons_append, List.nil_append, List.cons.injEq] at h
    exact absurd h.1 hu92
  · simpa using h

/-- An escaped unit starts neither like a pair nor like the closing quote. -/
private theorem escapeUnit_head (u : UInt16) (r : JsString) :
    ∃ c t, escapeUnit u ++ r = c :: t ∧ isSurrogate c = false ∧ c ≠ 34 := by
  rcases escapeUnit_cases u with ⟨c, _, hu, _⟩ | hu | ⟨hu, _, h34, hs, _⟩
  · exact ⟨92, c :: r, by rw [hu]; rfl, by decide, by decide⟩
  · exact ⟨92, _, by rw [hu]; rfl, by decide, by decide⟩
  · exact ⟨u, r, by rw [hu]; rfl, hs, h34⟩

private theorem escape_head_ne_quote (u : UInt16) (s r : JsString) :
    ∃ c t, escape (u :: s) ++ 34 :: r = c :: t ∧ c ≠ 34 ∧
      (isSurrogate c = true ↔ startsPair (u :: s) = true) := by
  cases hp : startsPair (u :: s) with
  | false =>
    obtain ⟨c, t, heq, hs, hne⟩ := escapeUnit_head u (escape s ++ 34 :: r)
    exact ⟨c, t, by rw [escape_cons_of_not_pair hp, List.append_assoc, heq], hne, by simp [hs]⟩
  | true =>
    cases s with
    | nil => simp [startsPair] at hp
    | cons v rest =>
      have hhigh : isHighSurrogate u = true := by
        simp only [startsPair, Bool.and_eq_true] at hp
        exact hp.1
      refine ⟨u, v :: escape rest ++ 34 :: r, by rw [escape_cons_of_pair hp]; rfl, ?_,
        by simp [isSurrogate_of_high hhigh]⟩
      rintro rfl
      exact absurd hhigh (by decide)

/-- The body of a literal ends at its first bare quote. -/
theorem escape_append_inj (s t : JsString) {r r' : JsString}
    (h : escape s ++ 34 :: r = escape t ++ 34 :: r') : s = t ∧ r = r' := by
  induction s using List.twoStepInduction generalizing t with
  | nil =>
    cases t with
    | nil => simpa [escape] using h
    | cons v t =>
      obtain ⟨c, tail, heq, hne, _⟩ := escape_head_ne_quote v t r'
      rw [heq] at h
      simp only [escape, List.nil_append, List.cons.injEq] at h
      exact absurd h.1.symm hne
  | singleton u =>
    cases t with
    | nil =>
      obtain ⟨c, tail, heq, hne, _⟩ := escape_head_ne_quote u [] r
      rw [heq] at h
      simp only [escape, List.nil_append, List.cons.injEq] at h
      exact absurd h.1 hne
    | cons v t =>
      obtain ⟨c, _, hc, _, hpair⟩ := escape_head_ne_quote u [] r
      obtain ⟨d, _, hd, _, hpair'⟩ := escape_head_ne_quote v t r'
      have hcd : c = d := by
        rw [hc, hd] at h
        simpa using (List.cons.inj h).1
      have hnp : startsPair [u] = false := rfl
      have hnp' : startsPair (v :: t) = false := by
        by_contra hne
        have hsd := hpair'.2 (by simpa using hne)
        rw [← hcd, hpair] at hsd
        exact absurd hsd (by simp [hnp])
      rw [escape_cons_of_not_pair hnp, escape_cons_of_not_pair hnp',
        List.append_assoc, List.append_assoc] at h
      obtain ⟨rfl, hrest⟩ := escapeUnit_append_inj h
      cases t with
      | nil => simpa [escape] using hrest
      | cons w t =>
        obtain ⟨e, _, he, hne, _⟩ := escape_head_ne_quote w t r'
        rw [he] at hrest
        simp only [escape, List.nil_append, List.cons.injEq] at hrest
        exact absurd hrest.1.symm hne
  | cons_cons u u' s ih ih' =>
    cases t with
    | nil =>
      obtain ⟨c, tail, heq, hne, _⟩ := escape_head_ne_quote u (u' :: s) r
      rw [heq] at h
      simp only [escape, List.nil_append, List.cons.injEq] at h
      exact absurd h.1 hne
    | cons v t =>
      obtain ⟨c, _, hc, _, hpair⟩ := escape_head_ne_quote u (u' :: s) r
      obtain ⟨d, _, hd, _, hpair'⟩ := escape_head_ne_quote v t r'
      have hcd : c = d := by
        rw [hc, hd] at h
        simpa using (List.cons.inj h).1
      have hiff : startsPair (u :: u' :: s) = true ↔ startsPair (v :: t) = true := by
        rw [← hpair, ← hpair', hcd]
      cases hp : startsPair (u :: u' :: s) with
      | false =>
        have hp' : startsPair (v :: t) = false := by
          cases hv : startsPair (v :: t) with
          | false => rfl
          | true => rw [hiff.2 hv] at hp; exact Bool.noConfusion hp
        rw [escape_cons_of_not_pair hp, escape_cons_of_not_pair hp',
          List.append_assoc, List.append_assoc] at h
        obtain ⟨rfl, hrest⟩ := escapeUnit_append_inj h
        obtain ⟨htail, hr⟩ := ih' u' t hrest
        exact ⟨by rw [htail], hr⟩
      | true =>
        have hp' := hiff.1 hp
        cases t with
        | nil => simp [startsPair] at hp'
        | cons v' t =>
          rw [escape_cons_of_pair hp, escape_cons_of_pair hp'] at h
          simp only [List.cons_append, List.cons.injEq] at h
          obtain ⟨rfl, rfl, hrest⟩ := h
          obtain ⟨htail, hr⟩ := ih t hrest
          exact ⟨by rw [htail], hr⟩

/-- A string literal can be read back from the front of a text. -/
theorem quote_append_inj {s t r r' : JsString} (h : quote s ++ r = quote t ++ r') :
    s = t ∧ r = r' := by
  simp only [quote, List.cons_append, List.append_assoc, List.cons.injEq, true_and,
    List.nil_append] at h
  exact escape_append_inj s t h

/-! ## Values -/

/-- What may follow a value inside a text: nothing, a comma or a closing
bracket. -/
def Boundary (r : JsString) : Prop := ∀ u ∈ r.head?, u = 44 ∨ u = 93 ∨ u = 125

theorem Boundary.not_digit {r : JsString} (h : Boundary r) :
    ∀ u ∈ r.head?, isDigit u = false := by
  intro u hu
  rcases h u hu with rfl | rfl | rfl <;> decide

/-- The constructor a text announces with its first unit. -/
def leadKind (u : UInt16) : Nat :=
  if u = 110 then 0 else if u = 116 ∨ u = 102 then 1 else if u = 34 then 2
  else if u = 91 then 3 else if u = 123 then 4
  else if u = 45 ∨ isDigit u = true then 5 else 6

/-- The number of a constructor. -/
def kindNumber : Json → Nat
  | .null => 0
  | .bool _ => 1
  | .str _ => 2
  | .arr _ => 3
  | .obj _ => 4
  | .num _ => 5

/-- No text starts with a closing bracket. -/
theorem leadKind_close_ne (v : Json) : leadKind 93 ≠ kindNumber v := by
  have hclose : leadKind 93 = 6 := by decide
  cases v <;> simp [hclose, kindNumber]

private theorem leadKind_digit {u : UInt16} (h : isDigit u = true) : leadKind u = 5 := by
  have hne : ∀ v : UInt16, isDigit v = false → u ≠ v := by
    rintro v hv rfl
    rw [h] at hv
    exact Bool.noConfusion hv
  simp [leadKind, h, hne 110 (by decide), hne 116 (by decide), hne 102 (by decide),
    hne 34 (by decide), hne 91 (by decide), hne 123 (by decide)]

/-- The first unit of a text tells the constructor. -/
theorem stringify_lead (v : Json) :
    ∃ u t, stringify v = u :: t ∧ leadKind u = kindNumber v := by
  cases v with
  | null => exact ⟨_, _, by rw [stringify]; rfl, by decide⟩
  | bool b =>
    cases b
    · exact ⟨_, _, by rw [stringify]; rfl, by decide⟩
    · exact ⟨_, _, by rw [stringify]; rfl, by decide⟩
  | num n =>
    rw [stringify, decimal]
    split
    · exact ⟨_, _, rfl, by rw [kindNumber]; decide⟩
    · cases hk : natDecimal n.natAbs with
      | nil => exact absurd hk (natDecimal_ne_nil _)
      | cons u t =>
        exact ⟨u, t, rfl, leadKind_digit
          (isDigit_of_mem_natDecimal (n := n.natAbs) (by simp [hk]))⟩
  | str s => exact ⟨34, _, by rw [stringify]; rfl, by rw [kindNumber]; decide⟩
  | arr items => exact ⟨91, _, by rw [stringify], by rw [kindNumber]; decide⟩
  | obj fields => exact ⟨123, _, by rw [stringify], by rw [kindNumber]; decide⟩

private theorem kindNumber_eq {v w : Json} {r r' : JsString}
    (h : stringify v ++ r = stringify w ++ r') : kindNumber v = kindNumber w := by
  obtain ⟨u, t, hv, hkv⟩ := stringify_lead v
  obtain ⟨u', t', hw, hkw⟩ := stringify_lead w
  rw [hv, hw] at h
  simp only [List.cons_append, List.cons.injEq] at h
  rw [← hkv, ← hkw, h.1]

/-- What follows the first element of an array, up to the end of the text. -/
private def itemsRest (items : List Json) (r : JsString) : JsString :=
  match items with
  | [] => 93 :: r
  | item :: rest => 44 :: (stringifyItems (item :: rest) ++ 93 :: r)

private theorem stringifyItems_cons (item : Json) (rest : List Json) (r : JsString) :
    stringifyItems (item :: rest) ++ 93 :: r = stringify item ++ itemsRest rest r := by
  cases rest with
  | nil | cons => simp [stringifyItems, itemsRest]

private theorem boundary_itemsRest (items : List Json) (r : JsString) :
    Boundary (itemsRest items r) := by
  intro u hu
  cases items <;> simp [itemsRest] at hu <;> simp [← hu]

/-- What follows the first member of an object, up to the end of the text. -/
private def fieldsRest (fields : List (JsString × Json)) (r : JsString) : JsString :=
  match fields with
  | [] => 125 :: r
  | field :: rest => 44 :: (stringifyFields (field :: rest) ++ 125 :: r)

private theorem stringifyFields_cons (key : JsString) (value : Json)
    (rest : List (JsString × Json)) (r : JsString) :
    stringifyFields ((key, value) :: rest) ++ 125 :: r =
      quote key ++ 58 :: (stringify value ++ fieldsRest rest r) := by
  cases rest with
  | nil | cons => simp [stringifyFields, fieldsRest]

private theorem boundary_fieldsRest (fields : List (JsString × Json)) (r : JsString) :
    Boundary (fieldsRest fields r) := by
  intro u hu
  cases fields <;> simp [fieldsRest] at hu <;> simp [← hu]

mutual

/-- A value can be read back from the front of a text. -/
theorem stringify_append_inj : ∀ (v w : Json) {r r' : JsString}, Boundary r → Boundary r' →
    stringify v ++ r = stringify w ++ r' → v = w ∧ r = r'
  | .null, w, _, _, _, _, h => by
      have hkind := kindNumber_eq h
      cases w with
      | null => exact ⟨rfl, List.append_cancel_left h⟩
      | _ => simp [kindNumber] at hkind
  | .bool b, w, _, _, _, _, h => by
      have hkind := kindNumber_eq h
      cases w with
      | bool c =>
        cases b <;> cases c
        · exact ⟨rfl, List.append_cancel_left h⟩
        · simp [stringify, js, encodeChar] at h
        · simp [stringify, js, encodeChar] at h
        · exact ⟨rfl, List.append_cancel_left h⟩
      | _ => simp [kindNumber] at hkind
  | .num m, w, _, _, hr, hr', h => by
      have hkind := kindNumber_eq h
      cases w with
      | num n =>
        simp only [stringify] at h
        obtain ⟨hnum, hrest⟩ := decimal_append_inj hr.not_digit hr'.not_digit h
        exact ⟨by rw [hnum], hrest⟩
      | _ => simp [kindNumber] at hkind
  | .str s, w, _, _, _, _, h => by
      have hkind := kindNumber_eq h
      cases w with
      | str t =>
        simp only [stringify] at h
        obtain ⟨htext, hrest⟩ := quote_append_inj h
        exact ⟨by rw [htext], hrest⟩
      | _ => simp [kindNumber] at hkind
  | .arr xs, w, _, _, _, _, h => by
      have hkind := kindNumber_eq h
      cases w with
      | arr ys =>
        simp only [stringify, List.cons_append, List.append_assoc, List.cons.injEq,
          true_and, List.nil_append] at h
        obtain ⟨hitems, hrest⟩ := stringifyItems_append_inj xs ys h
        exact ⟨by rw [hitems], hrest⟩
      | _ => simp [kindNumber] at hkind
  | .obj xs, w, _, _, _, _, h => by
      have hkind := kindNumber_eq h
      cases w with
      | obj ys =>
        simp only [stringify, List.cons_append, List.append_assoc, List.cons.injEq,
          true_and, List.nil_append] at h
        obtain ⟨hfields, hrest⟩ := stringifyFields_append_inj xs ys h
        exact ⟨by rw [hfields], hrest⟩
      | _ => simp [kindNumber] at hkind

theorem stringifyItems_append_inj : ∀ (xs ys : List Json) {r r' : JsString},
    stringifyItems xs ++ 93 :: r = stringifyItems ys ++ 93 :: r' → xs = ys ∧ r = r'
  | [], [], _, _, h => by simpa [stringifyItems] using h
  | [], y :: ys, r, r', h => by
      obtain ⟨u, t, hlead, hkind⟩ := stringify_lead y
      rw [stringifyItems_cons y ys, hlead] at h
      simp only [stringifyItems, List.nil_append, List.cons_append, List.cons.injEq] at h
      rw [← h.1] at hkind
      exact absurd hkind (leadKind_close_ne y)
  | x :: xs, [], r, r', h => by
      obtain ⟨u, t, hlead, hkind⟩ := stringify_lead x
      rw [stringifyItems_cons x xs, hlead] at h
      simp only [stringifyItems, List.nil_append, List.cons_append, List.cons.injEq] at h
      rw [h.1] at hkind
      exact absurd hkind (leadKind_close_ne x)
  | x :: xs, y :: ys, r, r', h => by
      rw [stringifyItems_cons, stringifyItems_cons] at h
      obtain ⟨rfl, hrest⟩ := stringify_append_inj x y (boundary_itemsRest xs r)
        (boundary_itemsRest ys r') h
      cases xs with
      | nil =>
        cases ys with
        | nil => simpa [itemsRest] using hrest
        | cons y' ys => simp [itemsRest] at hrest
      | cons x' xs =>
        cases ys with
        | nil => simp [itemsRest] at hrest
        | cons y' ys =>
          simp only [itemsRest, List.cons.injEq, true_and] at hrest
          obtain ⟨htail, hr⟩ := stringifyItems_append_inj (x' :: xs) (y' :: ys) hrest
          exact ⟨by rw [htail], hr⟩

theorem stringifyFields_append_inj : ∀ (xs ys : List (JsString × Json)) {r r' : JsString},
    stringifyFields xs ++ 125 :: r = stringifyFields ys ++ 125 :: r' → xs = ys ∧ r = r'
  | [], [], _, _, h => by simpa [stringifyFields] using h
  | [], (key, value) :: ys, r, r', h => by
      rw [stringifyFields_cons key value ys] at h
      simp [stringifyFields, quote] at h
  | (key, value) :: xs, [], r, r', h => by
      rw [stringifyFields_cons key value xs] at h
      simp [stringifyFields, quote] at h
  | (key, value) :: xs, (key', value') :: ys, r, r', h => by
      rw [stringifyFields_cons, stringifyFields_cons] at h
      obtain ⟨rfl, hvalue⟩ := quote_append_inj h
      simp only [List.cons.injEq, true_and] at hvalue
      obtain ⟨rfl, hrest⟩ := stringify_append_inj value value' (boundary_fieldsRest xs r)
        (boundary_fieldsRest ys r') hvalue
      cases xs with
      | nil =>
        cases ys with
        | nil => simpa [fieldsRest] using hrest
        | cons y' ys => simp [fieldsRest] at hrest
      | cons x' xs =>
        cases ys with
        | nil => simp [fieldsRest] at hrest
        | cons y' ys =>
          simp only [fieldsRest, List.cons.injEq, true_and] at hrest
          obtain ⟨htail, hr⟩ := stringifyFields_append_inj (x' :: xs) (y' :: ys) hrest
          exact ⟨by rw [htail], hr⟩

end

/-- **Equal text, equal value.** -/
theorem stringify_inj {v w : Json} (h : stringify v = stringify w) : v = w := by
  have hnil : Boundary [] := fun u hu => by simp at hu
  exact (stringify_append_inj v w hnil hnil (by simpa using h)).1

/-- Equal canonical text means equal data, up to the order of keys. -/
theorem canonicalText_inj {v w : Json} (h : canonicalText v = canonicalText w) :
    canonicalize v = canonicalize w := by
  rw [canonicalText, canonicalText] at h
  exact stringify_inj h

end AgentSdk.Json
