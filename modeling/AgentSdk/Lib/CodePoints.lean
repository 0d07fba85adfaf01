import AgentSdk.Lib.Json

/-!
# Code points

The split of a string into its code points: a surrogate pair is one of them, and so
is a surrogate on its own.  A prefix of code points never cuts a pair.

## Main results

* `characters_take` — the first code points of a string are the code points of
  their text.
* `IsCharPrefix.escapeBytes_le` — a longer prefix takes no fewer bytes in JSON.
* `length_of_longer` — a prefix that goes beyond a part of the string takes the next
  code point with it.
-/

namespace AgentSdk.Text

/-- `Array.from`: the code points of a string. -/
def characters : JsString → List JsString
  | [] => []
  | [u] => [[u]]
  | u :: v :: rest =>
    if isHighSurrogate u && isLowSurrogate v then [u, v] :: characters rest
    else [u] :: characters (v :: rest)

variable {v : UInt16} {b c p q s : JsString}

theorem characters_pair {u : UInt16} (h : (isHighSurrogate u && isLowSurrogate v) = true)
    (rest : JsString) : characters (u :: v :: rest) = [u, v] :: characters rest := by
  simp only [characters, h, if_true]

theorem characters_single {u : UInt16} (h : (isHighSurrogate u && isLowSurrogate v) = false)
    (rest : JsString) : characters (u :: v :: rest) = [u] :: characters (v :: rest) := by
  simp only [characters, h, Bool.false_eq_true, if_false]

@[simp] theorem flatten_characters (s : JsString) : (characters s).flatten = s := by
  induction s using characters.induct with
  | case1 => rfl
  | case2 u => rfl
  | case3 u v rest hpair ih => simp [characters_pair hpair, ih]
  | case4 u v rest hpair ih =>
    rw [characters_single (by simpa using hpair), List.flatten_cons, ih]
    rfl

theorem characters_eq_nil : characters s = [] ↔ s = [] := by
  constructor
  · intro h
    have hs := flatten_characters s
    rw [h] at hs
    exact hs.symm
  · intro h
    rw [h]
    rfl

/-- The first code point of a string that starts with a unit starts with that unit. -/
theorem characters_cons (u : UInt16) (s : JsString) :
    ∃ c rest, characters (u :: s) = (u :: c) :: rest := by
  cases s with
  | nil => exact ⟨[], [], rfl⟩
  | cons v s =>
    cases hpair : isHighSurrogate u && isLowSurrogate v with
    | true => exact ⟨[v], _, characters_pair hpair s⟩
    | false => exact ⟨[], _, characters_single hpair s⟩

/-- **The first code points of a string** are the code points of their text. -/
theorem characters_take (s : JsString) (n : Nat) :
    characters ((characters s).take n).flatten = (characters s).take n := by
  induction s using characters.induct generalizing n with
  | case1 => simp [characters]
  | case2 u => cases n <;> simp [characters]
  | case3 u v rest hpair ih =>
    cases n with
    | zero => simp [characters]
    | succ n =>
      rw [characters_pair hpair, List.take_succ_cons, List.flatten_cons]
      change characters (u :: v :: ((characters rest).take n).flatten) = _
      rw [characters_pair hpair, ih]
  | case4 u v rest hpair ih =>
    have hsplit : (isHighSurrogate u && isLowSurrogate v) = false := by simpa using hpair
    cases n with
    | zero => simp [characters]
    | succ n =>
      rw [characters_single hsplit, List.take_succ_cons, List.flatten_cons]
      cases n with
      | zero => rfl
      | succ n =>
        obtain ⟨c, others, hfirst⟩ := characters_cons v rest
        have hrest := ih (n + 1)
        rw [hfirst, List.take_succ_cons, List.flatten_cons] at hrest ⊢
        change characters (u :: v :: (c ++ (others.take n).flatten)) = _
        rw [characters_single hsplit]
        exact congrArg _ hrest

/-! ## Prefixes of code points -/

/-- The code points of `p` are the first ones of `s`. -/
def IsCharPrefix (p s : JsString) : Prop := characters p <+: characters s

instance isCharPrefixDecidable (p s : JsString) : Decidable (IsCharPrefix p s) :=
  inferInstanceAs (Decidable (characters p <+: characters s))

theorem IsCharPrefix.refl (s : JsString) : IsCharPrefix s s := List.prefix_refl (characters s)

theorem IsCharPrefix.length_le (h : IsCharPrefix p s) :
    (characters p).length ≤ (characters s).length := List.IsPrefix.length_le h

theorem isCharPrefix_take (s : JsString) (n : Nat) :
    IsCharPrefix ((characters s).take n).flatten s := by
  unfold IsCharPrefix
  rw [characters_take]
  exact List.take_prefix n _

theorem IsCharPrefix.eq_take (h : IsCharPrefix p s) :
    p = ((characters s).take (characters p).length).flatten := by
  have hp : (characters p).flatten = p := flatten_characters p
  rw [List.prefix_iff_eq_take.1 h] at hp
  exact hp.symm

/-- A prefix of code points is a prefix. -/
theorem IsCharPrefix.isPrefix (h : IsCharPrefix p s) : p <+: s := by
  obtain ⟨rest, hrest⟩ := h
  refine ⟨rest.flatten, ?_⟩
  have hs := congrArg List.flatten hrest
  rw [List.flatten_append, flatten_characters, flatten_characters] at hs
  exact hs

/-- Of two prefixes the longer one has more code points. -/
theorem IsCharPrefix.of_length_le (hp : IsCharPrefix p s) (hq : IsCharPrefix q s)
    (h : p.length ≤ q.length) : IsCharPrefix p q := by
  rcases Nat.le_total (characters p).length (characters q).length with hle | hle
  · exact List.prefix_of_prefix_length_le hp hq hle
  · have hback : IsCharPrefix q p := List.prefix_of_prefix_length_le hq hp hle
    have hsame : q = p := List.IsPrefix.eq_of_length_le hback.isPrefix h
    rw [hsame]
    exact .refl p

/-- Units that start no pair are code points of their own. -/
theorem characters_append_of_single (h : ∀ u ∈ s, isHighSurrogate u = false) (t : JsString) :
    characters (s ++ t) = s.map (fun u => [u]) ++ characters t := by
  induction s with
  | nil => rfl
  | cons u s ih =>
    have hu : isHighSurrogate u = false := h u (by simp)
    have hrest := ih fun v hv => h v (by simp [hv])
    cases hst : s ++ t with
    | nil =>
      obtain ⟨rfl, rfl⟩ := List.append_eq_nil_iff.1 hst
      rfl
    | cons v rest =>
      rw [List.cons_append, hst, characters_single (by simp [hu]), ← hst, hrest]
      rfl

/-- A code point is not empty. -/
theorem ne_nil_of_head (hc : (characters s).head? = some c) : c ≠ [] := by
  cases s with
  | nil => cases hc
  | cons u s =>
    obtain ⟨first, rest, hfirst⟩ := characters_cons u s
    rw [hfirst] at hc
    cases hc
    exact List.cons_ne_nil u first

/-- A string that starts with the second half of a pair has it as its first code
point. -/
theorem length_first_of_low (hlow : isLowSurrogate v = true)
    (hc : (characters (v :: b)).head? = some c) : c.length = 1 := by
  have hhigh : isHighSurrogate v = false := by
    simp only [isHighSurrogate, isLowSurrogate, Bool.and_eq_true, decide_eq_true_eq,
      Bool.and_eq_false_iff, decide_eq_false_iff_not] at hlow ⊢
    omega
  cases b with
  | nil =>
    cases hc
    rfl
  | cons w b =>
    rw [characters_single (by simp [hhigh])] at hc
    cases hc
    rfl

/-- The text of `a`, and of the first code point behind it, is a prefix of code
points; the code point may complete a pair. -/
theorem isCharPrefix_append_first (a : JsString) (hc : (characters b).head? = some c) :
    IsCharPrefix (a ++ c) (a ++ b) := by
  have hb : ∃ rest, characters b = c :: rest := by
    cases hchars : characters b with
    | nil => simp [hchars] at hc
    | cons first rest =>
      rw [hchars] at hc
      cases hc
      exact ⟨rest, rfl⟩
  obtain ⟨others, hothers⟩ := hb
  have htake : (characters b).take 1 = [c] := by simp [hothers]
  have hfirst : IsCharPrefix c b := by
    have h := isCharPrefix_take b 1
    rwa [htake, List.flatten_singleton] at h
  have hchars : characters c = [c] := by
    have h := characters_take b 1
    rwa [htake, List.flatten_singleton] at h
  induction a using characters.induct with
  | case1 => exact hfirst
  | case2 u =>
    cases c with
    | nil => simp [characters] at hchars
    | cons v c =>
      obtain ⟨rest, rfl⟩ := hfirst.isPrefix
      change characters (u :: v :: c) <+: characters (u :: v :: (c ++ rest))
      cases hpair : isHighSurrogate u && isLowSurrogate v with
      | true =>
        -- The unit completes a pair, so nothing else belongs to its code point.
        have hone := length_first_of_low (Bool.and_eq_true_iff.1 hpair).2 hc
        have hnil : c = [] := by simpa using hone
        subst hnil
        rw [characters_pair hpair, characters_pair hpair]
        exact ⟨characters rest, rfl⟩
      | false =>
        rw [characters_single hpair, characters_single hpair]
        exact List.cons_prefix_cons.2 ⟨rfl, hfirst⟩
  | case3 u v rest hpair ih =>
    change characters (u :: v :: (rest ++ c)) <+: characters (u :: v :: (rest ++ b))
    rw [characters_pair hpair, characters_pair hpair]
    exact List.cons_prefix_cons.2 ⟨rfl, ih⟩
  | case4 u v rest hpair ih =>
    have hsplit : (isHighSurrogate u && isLowSurrogate v) = false := by simpa using hpair
    change characters (u :: v :: (rest ++ c)) <+: characters (u :: v :: (rest ++ b))
    rw [characters_single hsplit, characters_single hsplit]
    exact List.cons_prefix_cons.2 ⟨rfl, ih⟩

/-- A prefix of code points that is not empty has the first one. -/
theorem IsCharPrefix.cons_inv {first rest : JsString}
    (hs : characters s = first :: characters rest) (hq : IsCharPrefix q s) (hne : q ≠ []) :
    ∃ q', q = first ++ q' ∧ IsCharPrefix q' rest := by
  unfold IsCharPrefix at hq
  rw [hs] at hq
  cases hchars : characters q with
  | nil => exact absurd (characters_eq_nil.1 hchars) hne
  | cons head more =>
    rw [hchars] at hq
    obtain ⟨rfl, hmore⟩ := List.cons_prefix_cons.1 hq
    have htake : more = (characters rest).take more.length := List.prefix_iff_eq_take.1 hmore
    refine ⟨more.flatten, ?_, ?_⟩
    · have hq' := flatten_characters q
      rw [hchars] at hq'
      exact hq'.symm
    · rw [htake]
      exact isCharPrefix_take rest more.length

/-- **A prefix that goes beyond a part of the string** takes the next code point. -/
theorem length_of_longer (a : JsString) (hc : (characters b).head? = some c)
    (hq : IsCharPrefix q (a ++ b)) (hlonger : a.length < q.length) :
    a.length + c.length ≤ q.length := by
  have hne : ∀ {q : JsString} {n : Nat}, n < q.length → q ≠ [] := by
    intro q n hlt hnil
    rw [hnil] at hlt
    exact Nat.not_lt_zero n hlt
  induction a using characters.induct generalizing q with
  | case1 =>
    cases hchars : characters b with
    | nil => simp [hchars] at hc
    | cons first rest =>
      rw [hchars] at hc
      cases hc
      obtain ⟨n, hn⟩ := hq
      cases hfirst : characters q with
      | nil => exact absurd (characters_eq_nil.1 hfirst) (hne hlonger)
      | cons head more =>
        rw [hfirst, List.nil_append, hchars, List.cons_append] at hn
        cases hn
        have hq' := congrArg List.length (flatten_characters q)
        rw [hfirst, List.flatten_cons, List.length_append] at hq'
        simp only [List.length_nil]
        omega
  | case2 u =>
    cases b with
    | nil => simp [characters] at hc
    | cons v b =>
      cases hpair : isHighSurrogate u && isLowSurrogate v with
      | true =>
        have hone : c.length = 1 := length_first_of_low (Bool.and_eq_true_iff.1 hpair).2 hc
        simp only [List.length_singleton] at hlonger ⊢
        omega
      | false =>
        obtain ⟨q', rfl, hq'⟩ := hq.cons_inv (characters_single hpair b) (hne hlonger)
        obtain ⟨n, hn⟩ := hq'
        cases hfirst : characters q' with
        | nil =>
          rw [characters_eq_nil.1 hfirst] at hlonger
          simp at hlonger
        | cons head more =>
          rw [hfirst, List.cons_append] at hn
          rw [← hn] at hc
          cases hc
          have hlength := congrArg List.length (flatten_characters q')
          rw [hfirst, List.flatten_cons, List.length_append] at hlength
          simp only [List.length_append, List.length_singleton]
          omega
  | case3 u v rest hpair ih =>
    obtain ⟨q', rfl, hq'⟩ := hq.cons_inv (characters_pair hpair (rest ++ b)) (hne hlonger)
    simp only [List.length_append, List.length_cons, List.length_nil] at hlonger ⊢
    have := ih hq' (by omega)
    omega
  | case4 u v rest hpair ih =>
    have hsplit : (isHighSurrogate u && isLowSurrogate v) = false := by simpa using hpair
    obtain ⟨q', rfl, hq'⟩ := hq.cons_inv (characters_single hsplit (rest ++ b)) (hne hlonger)
    simp only [List.length_append, List.length_cons, List.length_nil] at hlonger ⊢
    have := ih hq' (by simp only [List.length_cons]; omega)
    simp only [List.length_cons] at this
    omega

/-! ## Sizes -/

/-- The bytes of a JSON literal are those of its code points. -/
theorem escapeBytes_characters (s : JsString) :
    Json.escapeBytes s = ((characters s).map Json.escapeBytes).sum := by
  induction s using characters.induct with
  | case1 => rfl
  | case2 u => simp [characters]
  | case3 u v rest hpair ih =>
    rw [characters_pair hpair, List.map_cons, List.sum_cons, ← ih]
    simp [Json.escapeBytes, hpair]
  | case4 u v rest hpair ih =>
    have hsplit : (isHighSurrogate u && isLowSurrogate v) = false := by simpa using hpair
    rw [characters_single hsplit, List.map_cons, List.sum_cons, ← ih]
    simp [Json.escapeBytes, hsplit]

/-- **A longer prefix** takes no fewer bytes. -/
theorem IsCharPrefix.escapeBytes_le (h : IsCharPrefix p s) :
    Json.escapeBytes p ≤ Json.escapeBytes s := by
  obtain ⟨rest, hrest⟩ := h
  rw [escapeBytes_characters p, escapeBytes_characters s, ← hrest, List.map_append,
    List.sum_append]
  omega

end AgentSdk.Text
