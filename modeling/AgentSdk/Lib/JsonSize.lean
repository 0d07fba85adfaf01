import AgentSdk.Lib.Json

/-!
# Bounds on the size of JSON text

How many bytes a string takes inside a JSON literal, by what its units are, and
how the sizes of the parts of an array or an object bound the whole.

## Main results

* `length_le_escapeBytes` — a code unit takes at least one byte.
* `escapeBytes_le_length` — six bytes a unit are always enough.
* `escapeBytes_le_utf8` — a well-formed string grows at most sixfold.
* `escapeBytes_le_printable` — without control characters it grows at most twofold.
* `escapeBytes_plain` — plain characters are written verbatim.
-/

namespace AgentSdk

open AgentSdk.Text

namespace Json

/-! ## Strings -/

theorem escapeUnitBytes_le (u : UInt16) : escapeUnitBytes u ≤ 6 := by
  unfold escapeUnitBytes
  have hunit := unitBytes_le u
  split
  · omega
  · split
    · omega
    · omega

theorem escapeUnitBytes_pos (u : UInt16) : 1 ≤ escapeUnitBytes u := by
  have hpos := unitBytes_pos u
  unfold escapeUnitBytes
  split
  · omega
  · split
    · omega
    · exact hpos

/-- A literal has at least one byte for each code unit. -/
theorem length_le_escapeBytes (s : JsString) : s.length ≤ escapeBytes s := by
  induction s using escape.induct with
  | case1 => simp
  | case2 u => simpa [escapeBytes] using escapeUnitBytes_pos u
  | case3 u v rest hpair ih =>
    simp only [escapeBytes, hpair, if_true, List.length_cons]
    omega
  | case4 u v rest hpair ih =>
    have hunit := escapeUnitBytes_pos u
    simp only [escapeBytes, hpair, if_false, Bool.false_eq_true]
    simp only [List.length_cons] at ih ⊢
    omega

theorem escapeBytes_le_length (s : JsString) : escapeBytes s ≤ 6 * s.length := by
  induction s using escape.induct with
  | case1 => simp [escapeBytes]
  | case2 u => simpa [escapeBytes] using escapeUnitBytes_le u
  | case3 u v rest hpair ih =>
    simp only [escapeBytes, hpair, if_true, List.length_cons]
    omega
  | case4 u v rest hpair ih =>
    have hunit := escapeUnitBytes_le u
    simp only [escapeBytes, hpair, if_false, Bool.false_eq_true]
    simp only [List.length_cons] at ih ⊢
    omega

/-- A string grows by a factor that bounds the growth of each unit outside pairs. -/
theorem escapeBytes_le_of {k : Nat} (hk : 1 ≤ k) (s : JsString) (hwf : wellFormed s = true)
    (hunit : ∀ u ∈ s, isSurrogate u = false → escapeUnitBytes u ≤ k * unitBytes u) :
    escapeBytes s ≤ k * utf8Length s := by
  induction s using escape.induct with
  | case1 => simp [escapeBytes, utf8Length]
  | case2 u =>
    have hplain : isSurrogate u = false := by simpa [wellFormed] using hwf
    simpa [escapeBytes, utf8Length] using hunit u (by simp) hplain
  | case3 u v rest hpair ih =>
    simp only [wellFormed, hpair, if_true] at hwf
    have hrest := ih hwf fun w hw => hunit w (by simp [hw])
    simp only [escapeBytes, utf8Length, hpair, if_true, Nat.mul_add]
    omega
  | case4 u v rest hpair ih =>
    simp only [wellFormed, hpair, if_false, Bool.false_eq_true, Bool.and_eq_true,
      Bool.not_eq_true'] at hwf
    have hrest := ih hwf.2 fun w hw => hunit w (List.mem_cons_of_mem u hw)
    have hhead := hunit u (by simp) hwf.1
    simp only [escapeBytes, utf8Length, hpair, if_false, Bool.false_eq_true, Nat.mul_add]
    omega

/-- A well-formed string grows at most sixfold. -/
theorem escapeBytes_le_utf8 (s : JsString) (hwf : wellFormed s = true) :
    escapeBytes s ≤ 6 * utf8Length s := by
  refine escapeBytes_le_of (by omega) s hwf fun u _ _ => ?_
  have hescape := escapeUnitBytes_le u
  have hpos := unitBytes_pos u
  omega

/-- A well-formed string without control characters grows at most twofold. -/
theorem escapeBytes_le_printable (s : JsString) (hwf : wellFormed s = true)
    (hprintable : ∀ u ∈ s, 0x20 ≤ u.toNat) : escapeBytes s ≤ 2 * utf8Length s := by
  refine escapeBytes_le_of (by omega) s hwf fun u hu hplain => ?_
  have hpos := unitBytes_pos u
  unfold escapeUnitBytes
  split
  · omega
  · rw [if_neg (by
      simp only [hplain, Bool.false_eq_true, or_false]
      exact Nat.not_lt.2 (hprintable u hu))]
    omega

/-- A printable ASCII unit other than a quote and a backslash. -/
def isPlain (u : UInt16) : Bool :=
  decide (0x20 ≤ u.toNat) && decide (u.toNat < 0x80) && u != 34 && u != 92

theorem escapeUnitBytes_plain {u : UInt16} (h : isPlain u = true) : escapeUnitBytes u = 1 := by
  simp only [isPlain, Bool.and_eq_true, decide_eq_true_eq, bne_iff_ne, ne_eq] at h
  obtain ⟨⟨⟨hlow, hhigh⟩, hquote⟩, hslash⟩ := h
  have hcontrol : ∀ c : UInt16, c.toNat < 0x20 → u ≠ c := by
    intro c hc hu
    rw [hu] at hlow
    omega
  have hsurrogate : isSurrogate u = false := by
    simp only [isSurrogate, Bool.and_eq_false_iff, decide_eq_false_iff_not]
    omega
  unfold escapeUnitBytes
  rw [if_neg (by
    simp only [hquote, hslash, hcontrol 8 (by decide), hcontrol 12 (by decide),
      hcontrol 10 (by decide), hcontrol 13 (by decide), hcontrol 9 (by decide), or_self,
      not_false_eq_true]), if_neg (by
    simp only [hsurrogate, Bool.false_eq_true, or_false]
    omega)]
  unfold unitBytes
  rw [if_pos hhigh]

/-- Plain characters are written verbatim. -/
theorem escapeBytes_plain (s : JsString) (h : s.all isPlain = true) : escapeBytes s = s.length := by
  induction s using escape.induct with
  | case1 => rfl
  | case2 u =>
    simp only [List.all_cons, List.all_nil, Bool.and_true] at h
    simp [escapeBytes, escapeUnitBytes_plain h]
  | case3 u v rest hpair _ =>
    simp only [List.all_cons, Bool.and_eq_true] at h
    have hplain := h.1
    simp only [isPlain, Bool.and_eq_true, decide_eq_true_eq] at hplain
    simp only [Bool.and_eq_true, isHighSurrogate, decide_eq_true_eq] at hpair
    omega
  | case4 u v rest hpair ih =>
    rw [List.all_cons, Bool.and_eq_true] at h
    simp only [escapeBytes, hpair, if_false, Bool.false_eq_true, escapeUnitBytes_plain h.1,
      ih h.2, List.length_cons]
    omega

/-! ## Values -/

/-- Numbers below a power of ten have at most as many digits. -/
theorem jsonBytes_num_le {n k : Nat} (hk : 0 < k) (h : n < 10 ^ k) : jsonBytes (.num n) ≤ k := by
  have hlength := length_natDecimal_le hk h
  simp only [jsonBytes, decimal]
  rw [if_neg (by omega)]
  simpa using hlength

theorem itemsBytes_append (xs ys : List Json) :
    itemsBytes (xs ++ ys) = itemsBytes xs + itemsBytes ys := by
  induction xs with
  | nil => simp [itemsBytes]
  | cons x xs ih =>
    simp only [List.cons_append, itemsBytes, ih]
    omega

/-- The bytes of an object apart from its values. -/
def keyBytes (keys : List JsString) : Nat :=
  2 + (keys.length - 1) + (keys.map fun key => quoteBytes key + 1).sum

theorem jsonBytes_obj (fields : List (JsString × Json)) :
    jsonBytes (.obj fields) =
      keyBytes (fields.map Prod.fst) + itemsBytes (fields.map Prod.snd) := by
  have hfields : fieldsBytes fields =
      ((fields.map Prod.fst).map fun key => quoteBytes key + 1).sum +
        itemsBytes (fields.map Prod.snd) := by
    induction fields with
    | nil => rfl
    | cons field fields ih =>
      obtain ⟨key, value⟩ := field
      simp only [fieldsBytes, ih, List.map_cons, List.sum_cons, itemsBytes]
      omega
  rw [jsonBytes, hfields, keyBytes, List.length_map]
  omega

/-- An object whose keys and whose values are of bounded size. -/
theorem jsonBytes_obj_le {fields : List (JsString × Json)} (keys values : Nat)
    (hkeys : keyBytes (fields.map Prod.fst) ≤ keys)
    (hvalues : itemsBytes (fields.map Prod.snd) ≤ values) :
    jsonBytes (.obj fields) ≤ keys + values := by
  rw [jsonBytes_obj]
  omega

/-- An array of elements of bounded size. -/
theorem jsonBytes_arr_le {items : List Json} {count bytes : Nat} (hcount : items.length ≤ count)
    (hbytes : itemsBytes items ≤ bytes) : jsonBytes (.arr items) ≤ 2 + count + bytes := by
  rw [jsonBytes]
  omega

/-- Elements of bounded size. -/
theorem itemsBytes_le {α : Type} (f : α → Json) {n : Nat} (xs : List α)
    (h : ∀ x ∈ xs, jsonBytes (f x) ≤ n) : itemsBytes (xs.map f) ≤ n * xs.length := by
  induction xs with
  | nil => simp [itemsBytes]
  | cons x xs ih =>
    have hhead := h x (by simp)
    have htail := ih fun y hy => h y (by simp [hy])
    simp only [List.map_cons, itemsBytes, List.length_cons, Nat.mul_add, Nat.mul_one]
    omega

theorem jsonBytes_map_le {α : Type} {xs : List α} {f : α → Json} {k n : Nat} (hcount : xs.length ≤ n)
    (h : ∀ x ∈ xs, jsonBytes (f x) ≤ k) : jsonBytes (.arr (xs.map f)) ≤ 2 + n + k * n :=
  jsonBytes_arr_le (by simpa using hcount)
    ((itemsBytes_le f xs h).trans (Nat.mul_le_mul_left k hcount))

/-- Elements of bounded size, all but those of one key, which is unique. -/
theorem itemsBytes_le_except {α β : Type} [DecidableEq β] (f : α → Json) (key : α → β) (k : β)
    {n extra : Nat} (xs : List α) (hnodup : (xs.map key).Nodup)
    (h : ∀ x ∈ xs, jsonBytes (f x) ≤ n + if key x = k then extra else 0) :
    itemsBytes (xs.map f) ≤ n * xs.length + extra := by
  induction xs with
  | nil => simp [itemsBytes]
  | cons x xs ih =>
    rw [List.map_cons, List.nodup_cons] at hnodup
    have hhead := h x (by simp)
    simp only [List.map_cons, itemsBytes, List.length_cons, Nat.mul_add, Nat.mul_one]
    by_cases hkey : key x = k
    · rw [if_pos hkey] at hhead
      have htail := itemsBytes_le f (n := n) xs fun y hy => by
        have hy' := h y (by simp [hy])
        rw [if_neg (fun hk => hnodup.1 (by
          rw [hkey, ← hk]
          exact List.mem_map_of_mem hy))] at hy'
        exact hy'
      omega
    · rw [if_neg hkey] at hhead
      have htail := ih hnodup.2 fun y hy => h y (by simp [hy])
      omega

end Json

end AgentSdk
