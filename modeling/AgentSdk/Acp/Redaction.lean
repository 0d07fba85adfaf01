import AgentSdk.Acp.Patterns

/-!
# Which secrets a redacted text hides

The secrets of a text are the values of its assignments and the tokens of its
credentials.  A text whose units know their position shows which of them are
left after both replacements.  The first replacement may take the word that the
second looks for, so not every text is safe: the occurrences have to be
separate.

## Main results

* `hides_secrets` — of a text with separate occurrences, no unit of a secret is
  shown.
-/

namespace AgentSdk

namespace Acp

open AgentSdk.Text

/-! ## Secrets -/

/-- The assignment that starts at a position. -/
def assignmentAt (s : JsString) (i : Nat) : Option Assignment :=
  assignment (beforeAt id s i) (s.drop i)

/-- The credential that starts at a position. -/
def credentialAt (s : JsString) (i : Nat) : Option Credential :=
  credential (beforeAt id s i) (s.drop i)

/-- A secret at its place in a text: where the occurrence starts, and from where to where the
secret itself goes. -/
structure Occurrence where
  start : Nat
  value : Nat
  stop : Nat
  deriving DecidableEq

/-- The secrets that start at a position: the value of an assignment, a token with its padding. -/
def occurrencesAt (s : JsString) (i : Nat) : List Occurrence :=
  (assignmentAt s i).toList.map (fun a => { start := i, value := i + a.value, stop := i + a.stop }) ++
    (credentialAt s i).toList.map fun c =>
      { start := i, value := i + c.value, stop := i + c.stop }

/-- The occurrences of a text keep out of each other's way. -/
structure Separate (s : JsString) : Prop where
  /-- What starts in the value of an assignment ends with it. -/
  nested : ∀ i < s.length, ∀ a ∈ assignmentAt s i, ∀ j < s.length, ∀ o ∈ occurrencesAt s j,
    i + a.value ≤ j → j < i + a.stop → o.stop ≤ i + a.stop
  /-- No credential starts in the token of another one. -/
  apart : ∀ i < s.length, ∀ c ∈ credentialAt s i, ∀ j < s.length,
    i + c.value ≤ j → j < i + c.value + c.token → credentialAt s j = none
  /-- Every token is as long as the pattern for tokens asks for. -/
  long : ∀ i < s.length, ∀ c ∈ credentialAt s i, 8 ≤ c.token

/-! ## Where they start -/

variable {before : Option UInt16} {a : Assignment} {c : Credential} {i k : Nat} {o : Occurrence}
  {u : UInt16}

theorem length_assignment {s : JsString} (h : assignment before s = some a) :
    0 < a.key ∧ a.key < a.value ∧ a.value < a.stop ∧ a.stop ≤ s.length := by
  obtain ⟨key, gap, separator, space, value, rest, hshape⟩ := assignment_shape h
  have hnonempty : ∀ other ∈ secretKeys, 0 < other.length := by decide
  have hkey := hnonempty _ hshape.isKey.folded
  have hvalue := List.length_pos_iff.2 hshape.value_ne
  have hlength := congrArg List.length hshape.text
  have hkey' := hshape.key_eq
  have hvalue' := hshape.value_eq
  have hstop := hshape.stop_eq
  simp only [List.length_append, List.length_cons, List.length_map] at hkey hlength
  omega

theorem length_credential {s : JsString} (h : credential before s = some c) :
    0 < c.value ∧ 0 < c.token ∧ c.value + c.token ≤ c.stop ∧ c.stop ≤ s.length := by
  obtain ⟨word, gap, token, padding, rest, hshape⟩ := credential_shape h
  have hword := bearer_length hshape.word_eq
  have htoken := List.length_pos_iff.2 hshape.token_ne
  have hlength := congrArg List.length hshape.text
  have hvalue := hshape.value_eq
  have htoken' := hshape.length_eq
  have hstop := hshape.stop_eq
  simp only [List.length_append] at hlength
  omega

theorem sound_findAssignment : Sound findAssignment := by
  have hparts {before : Option UInt16} {units : JsString} {found : Found}
      (h : findAssignment before units = some found) :
      0 < found.span ∧ found.span ≤ units.length ∧ found.keep ≤ found.span := by
    obtain ⟨a, ha, rfl⟩ := Option.map_eq_some_iff.1 h
    have hlength := length_assignment ha
    show 0 < a.stop ∧ a.stop ≤ units.length ∧ a.key ≤ a.stop
    omega
  exact ⟨fun _ _ _ h => (hparts h).1, fun _ _ _ h => (hparts h).2.1, fun _ _ _ h => (hparts h).2.2⟩

theorem keep_findAssignment {units : JsString} {found : Found}
    (h : findAssignment before units = some found) : 0 < found.keep := by
  obtain ⟨a, ha, rfl⟩ := Option.map_eq_some_iff.1 h
  exact (length_assignment ha).1

theorem findBearer_eq_some {units : JsString} {found : Found}
    (h : findBearer before units = some found) :
    ∃ c, credential before units = some c ∧ 8 ≤ c.token ∧ found = { keep := 0, span := c.stop } := by
  unfold findBearer at h
  cases hc : credential before units with
  | none =>
    rw [hc] at h
    cases h
  | some c =>
    rw [hc] at h
    simp only at h
    by_cases hlong : 8 ≤ c.token
    · rw [if_pos hlong] at h
      exact ⟨c, rfl, hlong, (Option.some.inj h).symm⟩
    · rw [if_neg hlong] at h
      cases h

theorem sound_findBearer : Sound findBearer := by
  have hparts {before : Option UInt16} {units : JsString} {found : Found}
      (h : findBearer before units = some found) :
      0 < found.span ∧ found.span ≤ units.length ∧ found.keep ≤ found.span := by
    obtain ⟨c, hc, -, rfl⟩ := findBearer_eq_some h
    have hlength := length_credential hc
    show 0 < c.stop ∧ c.stop ≤ units.length ∧ 0 ≤ c.stop
    omega
  exact ⟨fun _ _ _ h => (hparts h).1, fun _ _ _ h => (hparts h).2.1, fun _ _ _ h => (hparts h).2.2⟩

theorem assignmentAt_lt {s : JsString} (h : assignmentAt s i = some a) :
    i + a.stop ≤ s.length ∧ i < s.length := by
  have hlength := length_assignment h
  rw [List.length_drop] at hlength
  omega

theorem credentialAt_lt {s : JsString} (h : credentialAt s i = some c) :
    i + c.stop ≤ s.length ∧ i < s.length := by
  have hlength := length_credential h
  rw [List.length_drop] at hlength
  omega

theorem mem_occurrencesAt {s : JsString} (h : o ∈ occurrencesAt s i) :
    (∃ a, assignmentAt s i = some a ∧
        o = { start := i, value := i + a.value, stop := i + a.stop }) ∨
      ∃ c, credentialAt s i = some c ∧
        o = { start := i, value := i + c.value, stop := i + c.stop } := by
  rcases List.mem_append.1 h with hassignment | hcredential
  · obtain ⟨a, ha, rfl⟩ := List.mem_map.1 hassignment
    exact .inl ⟨a, Option.mem_toList.1 ha, rfl⟩
  · obtain ⟨c, hc, rfl⟩ := List.mem_map.1 hcredential
    exact .inr ⟨c, Option.mem_toList.1 hc, rfl⟩

theorem mem_of_assignmentAt {s : JsString} (h : assignmentAt s i = some a) :
    ⟨i, i + a.value, i + a.stop⟩ ∈ occurrencesAt s i := by
  simp [occurrencesAt, h]

/-- The unit in front of a position behind another one. -/
theorem beforeAt_drop (s : JsString) (i d : Nat) (hpos : 0 < d) (hd : i + d ≤ s.length) :
    beforeAt id s (i + d) = (s.drop i)[d - 1]? := by
  have hbound : i + d - 1 < s.length := by omega
  have hx : s[i + d - 1]? = some s[i + d - 1] := List.getElem?_eq_getElem hbound
  have hbefore := @beforeAt_succ _ _ id _ _ _ hx
  rw [show i + d - 1 + 1 = i + d by omega] at hbefore
  rw [hbefore, List.getElem?_drop, show i + (d - 1) = i + d - 1 by omega, hx]
  rfl

theorem starts_of_occurrence {s : JsString} (h : o ∈ occurrencesAt s i) :
    Starts (beforeAt id s i) (s.drop i) := by
  rcases mem_occurrencesAt h with ⟨a, ha, -⟩ | ⟨c, hc, -⟩
  · obtain ⟨_, _, _, _, _, _, hshape⟩ := assignment_shape ha
    exact hshape.starts
  · obtain ⟨_, _, _, _, _, hshape⟩ := credential_shape hc
    exact hshape.starts

/-- What starts inside an assignment ends with it. -/
theorem Separate.inside {s : JsString} (hs : Separate s) {j : Nat}
    (ha : assignmentAt s i = some a) (hlow : i < j) (hhigh : j < i + a.stop)
    (ho : o ∈ occurrencesAt s j) : i + a.value ≤ j ∧ o.stop ≤ i + a.stop := by
  have hlength := assignmentAt_lt ha
  obtain ⟨key, gap, separator, space, value, rest, hshape⟩ := assignment_shape ha
  have hstarts := starts_of_occurrence ho
  rw [show j = i + (j - i) by omega, beforeAt_drop s i (j - i) (by omega) (by omega),
    ← List.drop_drop] at hstarts
  have hvalue := hshape.value_le (by omega) hstarts
  have hin : i + a.value ≤ j := by omega
  exact ⟨hin, hs.nested i hlength.2 a ha j (by omega) o ho hin hhigh⟩

/-! ## Units that know their position -/

/-- A unit of a replacement. -/
def unlabelled (u : UInt16) : UInt16 × Option Nat := (u, none)

/-- The units of a text, each with its position. -/
def positions (s : JsString) : List (UInt16 × Option Nat) :=
  s.zipIdx.map fun p => (p.1, some p.2)

theorem positions_units (s : JsString) : (positions s).map Prod.fst = s := by
  rw [positions, List.map_map]
  exact List.zipIdx_map_fst 0 s

theorem length_positions (s : JsString) : (positions s).length = s.length := by
  rw [positions, List.length_map, List.length_zipIdx]

theorem getElem?_positions (s : JsString) (i : Nat) :
    (positions s)[i]? = s[i]?.map fun u => (u, some i) := by
  rw [positions, List.getElem?_map, List.getElem?_zipIdx, Option.map_map]
  cases s[i]? with
  | none => rfl
  | some u => simp

theorem lt_of_mem_take {s : JsString} {m : Nat} (h : (u, some k) ∈ (positions s).take m) :
    k < m := by
  obtain ⟨i, hi⟩ := List.mem_iff_getElem?.1 h
  by_cases hm : i < m
  · rw [List.getElem?_take_of_lt hm, getElem?_positions] at hi
    obtain ⟨v, -, hv⟩ := Option.map_eq_some_iff.1 hi
    obtain rfl : i = k := by simpa using congrArg Prod.snd hv
    exact hm
  · rw [List.getElem?_take_eq_none (by omega)] at hi
    cases hi

theorem le_of_mem_drop {s : JsString} {m : Nat} (h : (u, some k) ∈ (positions s).drop m) :
    m ≤ k := by
  obtain ⟨i, hi⟩ := List.mem_iff_getElem?.1 h
  rw [List.getElem?_drop, getElem?_positions] at hi
  obtain ⟨v, -, hv⟩ := Option.map_eq_some_iff.1 hi
  have hk : m + i = k := by simpa using congrArg Prod.snd hv
  omega

theorem not_mem_unlabelled {text : JsString} : (u, some k) ∉ text.map unlabelled := by
  intro h
  obtain ⟨v, -, hv⟩ := List.mem_map.1 h
  cases congrArg Prod.snd hv

/-! ## The first replacement -/

section First

variable {s : JsString}

/-- The first replacement tries its pattern at a position, with what it has written. -/
abbrev First (s : JsString) : Nat → List (UInt16 × Option Nat) → Prop :=
  Reach Prod.fst findAssignment ((js "=[REDACTED]").map unlabelled) (positions s)

theorem find_first (s : JsString) (i : Nat) :
    findAt Prod.fst findAssignment (positions s) i =
      (assignmentAt s i).map fun a => { keep := a.key, span := a.stop } := by
  rw [findAt_units, positions_units]
  rfl

variable {i : Nat} {a : Assignment} {out : List (UInt16 × Option Nat)} {u : UInt16}
  {c : Credential} {gap padding rest token word : JsString}

theorem find_first_of (ha : assignmentAt s i = some a) :
    findAt Prod.fst findAssignment (positions s) i =
      some { keep := a.key, span := a.stop } := by
  rw [find_first, ha]
  rfl

theorem First.found {found : Found}
    (h : findAt Prod.fst findAssignment (positions s) i = some found) :
    ∃ a, assignmentAt s i = some a ∧ found = { keep := a.key, span := a.stop } := by
  rw [find_first] at h
  obtain ⟨a, ha, hfound⟩ := Option.map_eq_some_iff.1 h
  exact ⟨a, ha, hfound.symm⟩

/-- What an assignment spans behind its key is gone after the first replacement. -/
theorem First.gone (h : First s i out) (ha : assignmentAt s i = some a) {k : Nat}
    (hk : (u, some k) ∈ redactAssignments Prod.fst unlabelled (positions s)) :
    k < i + a.key ∨ i + a.stop ≤ k := by
  rcases Reach.gone sound_findAssignment h (find_first_of ha) hk with htext | hlow | hhigh
  · exact absurd htext not_mem_unlabelled
  · exact .inl (lt_of_mem_take hlow)
  · exact .inr (le_of_mem_drop hhigh)

/-- In front of a unit of a value, a word goes on in what is written as it does in the text. -/
theorem First.boundary (h : First s i out) (hu : (s.drop i).head? = some u)
    (hvalue : isValueUnit u = true) :
    inWord (out.getLast?.map Prod.fst) = inWord (beforeAt id s i) := by
  cases h with
  | start => rfl
  | @step i out h x hx hnone =>
    rw [List.getLast?_append_of_ne_nil _ (by simp), ← positions_units s, ← beforeAt_units,
      beforeAt_succ hx]
    rfl
  | @jump i out h found hfound =>
    -- the value that was found would have gone on
    obtain ⟨a, ha, rfl⟩ := First.found hfound
    obtain ⟨key, gap, separator, space, value, rest, hshape⟩ := assignment_shape ha
    have hrest : s.drop (i + a.stop) = rest := by
      have hparts : s.drop i = (key ++ (gap ++ separator :: (space ++ value))) ++ rest := by
        rw [hshape.text]
        simp
      have hlength : (key ++ (gap ++ separator :: (space ++ value))).length = a.stop := by
        rw [hshape.stop_eq, hshape.value_eq]
        simp only [List.length_append, List.length_cons]
        omega
      rw [← List.drop_drop, hparts, ← hlength, List.drop_left]
    rw [hrest] at hu
    rw [hshape.value_run.ended u hu] at hvalue
    cases hvalue

/-- What the first replacement leaves of a credential: its word, the gap and the token, and
behind them padding and what belongs to no secret of it. -/
structure Left (s : JsString) (i : Nat) (c : Credential) (out : List (UInt16 × Option Nat))
    (word gap token : JsString) : Prop where
  written : ∃ slice padding rest, redactAssignments Prod.fst unlabelled (positions s) =
      out ++ (slice ++ (padding ++ rest)) ∧
    slice.map Prod.fst = word ++ (gap ++ token) ∧
    IsRun isTokenUnit token (padding.map Prod.fst ++ rest.map Prod.fst) ∧
    IsRun (fun u => decide (u = 61)) (padding.map Prod.fst) (rest.map Prod.fst) ∧
    ∀ u k, (u, some k) ∈ rest → i + c.stop ≤ k

/-- The units of a credential up to the end of its token. -/
theorem units_of_credential
    (hshape : CredentialShape (beforeAt id s i) (s.drop i) c word gap token padding rest) :
    (((positions s).drop i).take (c.value + c.token)).map Prod.fst = word ++ (gap ++ token) ∧
      s.drop (i + (c.value + c.token)) = padding ++ rest := by
  have hparts : s.drop i = (word ++ (gap ++ token)) ++ (padding ++ rest) := by
    rw [hshape.text]
    simp
  have hlength : (word ++ (gap ++ token)).length = c.value + c.token := by
    rw [List.length_append, List.length_append, bearer_length hshape.word_eq, hshape.value_eq,
      hshape.length_eq, Nat.add_assoc]
  constructor
  · rw [List.map_take, List.map_drop, positions_units, hparts, ← hlength, List.take_left]
  · rw [← List.drop_drop, hparts, ← hlength, List.drop_left]

/-- Where no assignment starts in a credential, all of it is kept. -/
theorem First.left_of_none (h : First s i out)
    (hshape : CredentialShape (beforeAt id s i) (s.drop i) c word gap token padding rest)
    (hend : i + c.stop ≤ s.length)
    (hnone : ∀ d < c.stop, findAt Prod.fst findAssignment (positions s) (i + d) = none) :
    Left s i c out word gap token := by
  obtain ⟨hslice, hbehind⟩ := units_of_credential hshape
  have hstop : c.stop = c.value + c.token + padding.length := by
    rw [hshape.stop_eq, hshape.length_eq]
  have hreach := Reach.steps h (by rw [length_positions]; exact hend) hnone
  have hwritten := (hreach.split sound_findAssignment).2
  have htake : ((positions s).drop i).take c.stop =
      ((positions s).drop i).take (c.value + c.token) ++
        ((positions s).drop (i + (c.value + c.token))).take padding.length := by
    rw [hstop, List.take_add, List.drop_drop]
  rw [htake, List.append_assoc, List.append_assoc] at hwritten
  have hpadding : (((positions s).drop (i + (c.value + c.token))).take padding.length).map
      Prod.fst = padding := by
    rw [List.map_take, List.map_drop, positions_units, hbehind, List.take_left]
  -- what is written behind the credential begins as the text does
  have hhead : ((replaceFrom Prod.fst findAssignment ((js "=[REDACTED]").map unlabelled)
      (beforeAt Prod.fst (positions s) (i + c.stop)) 0
      ((positions s).drop (i + c.stop))).map Prod.fst).head? = rest.head? := by
    rw [List.head?_map, head?_replaceFrom fun _ _ _ => keep_findAssignment, ← List.head?_map,
      List.map_drop, positions_units, hstop, ← Nat.add_assoc, ← List.drop_drop, ← Nat.add_assoc,
      Nat.add_assoc i, hbehind, List.drop_left]
  refine ⟨_, _, _, hwritten, hslice, ?_, ?_, ?_⟩
  · rw [hpadding]
    refine ⟨hshape.token_run.all, fun u hu => hshape.token_run.ended u ?_⟩
    rw [List.head?_append] at hu ⊢
    rwa [hhead] at hu
  · rw [hpadding]
    exact ⟨hshape.padding_run.all, fun u hu => hshape.padding_run.ended u (hhead ▸ hu)⟩
  · intro u k hk
    rcases mem_replaceFrom hk with htext | hin
    · exact absurd htext not_mem_unlabelled
    · exact le_of_mem_drop hin

/-- Where a key ends the token of a credential, the value behind it takes the padding. -/
theorem First.left_of_key (h : First s i out)
    (hshape : CredentialShape (beforeAt id s i) (s.drop i) c word gap token padding rest)
    {d : Nat} (hnone : ∀ e < d, findAt Prod.fst findAssignment (positions s) (i + e) = none)
    (ha : assignmentAt s (i + d) = some a) (hkey : d + a.key = c.value + c.token)
    (hstop : c.stop ≤ d + a.stop) : Left s i c out word gap token := by
  obtain ⟨hslice, -⟩ := units_of_credential hshape
  have hreach := (Reach.steps h (by
    rw [length_positions]
    exact (assignmentAt_lt ha).2.le) hnone).jump (find_first_of ha)
  have hwritten := (hreach.split sound_findAssignment).2
  have htake : ((positions s).drop i).take (c.value + c.token) =
      ((positions s).drop i).take d ++ ((positions s).drop (i + d)).take a.key := by
    rw [← hkey, List.take_add, List.drop_drop]
  have htext : (js "=[REDACTED]").map unlabelled =
      [unlabelled 61] ++ (js "[REDACTED]").map unlabelled := rfl
  have hsplit (behind : List (UInt16 × Option Nat)) :
      out ++ ((positions s).drop i).take d ++
          (((positions s).drop (i + d)).take a.key ++ (js "=[REDACTED]").map unlabelled) ++ behind =
        out ++ (((positions s).drop i).take (c.value + c.token) ++ ([unlabelled 61] ++
          ((js "[REDACTED]").map unlabelled ++ behind))) := by
    rw [htake, htext]
    simp only [List.append_assoc]
  refine ⟨_, _, _, hwritten.trans (hsplit _), hslice, ?_, ?_, ?_⟩
  · refine ⟨hshape.token_run.all, fun u hu => ?_⟩
    obtain rfl : 61 = u := Option.some.inj hu
    rfl
  · refine ⟨fun u hu => ?_, fun u hu => ?_⟩
    · obtain rfl := List.mem_singleton.1 hu
      rfl
    · obtain rfl : 91 = u := Option.some.inj hu
      rfl
  · intro u k hk
    rcases List.mem_append.1 hk with hnew | hrest
    · exact absurd hnew not_mem_unlabelled
    · rcases mem_replaceFrom hrest with htext | hin
      · exact absurd htext not_mem_unlabelled
      · have hle : i + d + a.stop ≤ k := le_of_mem_drop hin
        omega

/-- **A credential at which the first replacement tries its pattern is left.** -/
theorem First.left (h : First s i out) (hc : credentialAt s i = some c)
    (hshape : CredentialShape (beforeAt id s i) (s.drop i) c word gap token padding rest) :
    Left s i c out word gap token := by
  have hend := credentialAt_lt hc
  by_cases hnone : ∀ d < c.stop, findAt Prod.fst findAssignment (positions s) (i + d) = none
  · exact h.left_of_none hshape hend.1 hnone
  · have hexists : ∃ d, d < c.stop ∧
        findAt Prod.fst findAssignment (positions s) (i + d) ≠ none := by
      push Not at hnone
      exact hnone
    classical
    -- the first assignment that starts in the credential
    obtain ⟨hd, hfound⟩ := Nat.find_spec hexists
    have hmin (e : Nat) (he : e < Nat.find hexists) :
        findAt Prod.fst findAssignment (positions s) (i + e) = none := by
      by_contra hne
      exact Nat.find_min hexists he ⟨by omega, hne⟩
    generalize Nat.find hexists = d at hd hfound hmin
    obtain ⟨found, hsome⟩ := Option.ne_none_iff_exists'.1 hfound
    obtain ⟨a, ha, -⟩ := First.found hsome
    have hpos : 0 < d := by
      by_contra hzero
      have hnot := hshape.no_assignment
      rw [show d = 0 by omega] at ha
      rw [show assignmentAt s (i + 0) = assignment (beforeAt id s i) (s.drop i) from rfl,
        hnot] at ha
      cases ha
    have hstarts := starts_of_occurrence (mem_of_assignmentAt ha)
    rw [beforeAt_drop s i d hpos (by omega), ← List.drop_drop] at hstarts
    obtain ⟨hlow, hhigh⟩ := hshape.token_of_starts hpos hd hstarts
    have ha' : assignment (beforeAt id s (i + d)) ((s.drop i).drop d) = some a := by
      rw [List.drop_drop]
      exact ha
    obtain ⟨hkey, hstop⟩ := hshape.key_ends_token hlow hhigh ha'
    exact h.left_of_key hshape hmin ha hkey hstop

end First

/-! ## The second replacement -/

section Second

variable {s : JsString}

/-- The second replacement tries its pattern at a position, with what it has written. -/
abbrev Second (s : JsString) : Nat → List (UInt16 × Option Nat) → Prop :=
  Reach Prod.fst findBearer ((js "Bearer [REDACTED]").map unlabelled)
    (redactAssignments Prod.fst unlabelled (positions s))

variable {i k : Nat} {c : Credential} {out : List (UInt16 × Option Nat)}
  {gap rest token word : JsString} {u : UInt16}

/-- A credential that is left and at which the second replacement tries its pattern is gone. -/
theorem Second.gone {out' : List (UInt16 × Option Nat)}
    (hbefore : ∀ u k, (u, some k) ∈ out → k < i) {padding : JsString}
    (hshape : CredentialShape (beforeAt id s i) (s.drop i) c word gap token padding rest)
    (hleft : Left s i c out word gap token) (hlong : 8 ≤ c.token)
    (hboundary : inWord (out.getLast?.map Prod.fst) = false) (h : Second s out.length out')
    (hk : (u, some k) ∈ redactBearer Prod.fst unlabelled (redactAssignments Prod.fst unlabelled
      (positions s))) : k < i ∨ i + c.stop ≤ k := by
  obtain ⟨slice, padding', rest', hwritten, hslice, htoken, hpadding, hrest⟩ := hleft.written
  have hgap : IsRun isSpaceUnit gap
      (token ++ (padding'.map Prod.fst ++ rest'.map Prod.fst)) := by
    refine ⟨hshape.gap_run.all, fun u hu => hshape.gap_run.ended u ?_⟩
    rw [List.head?_append_of_ne_nil _ hshape.token_ne] at hu ⊢
    exact hu
  have hfound : findAt Prod.fst findBearer (redactAssignments Prod.fst unlabelled (positions s))
      out.length =
        some { keep := 0, span := 6 + gap.length + token.length + padding'.length } := by
    have hbefore' : beforeAt Prod.fst (redactAssignments Prod.fst unlabelled (positions s))
        out.length = out.getLast?.map Prod.fst := by
      rw [beforeAt, hwritten, List.take_left]
    have hunits : ((redactAssignments Prod.fst unlabelled (positions s)).drop out.length).map
        Prod.fst = word ++ (gap ++ (token ++ (padding'.map Prod.fst ++ rest'.map Prod.fst))) := by
      rw [hwritten, List.drop_left, List.map_append, List.map_append, hslice, List.append_assoc,
        List.append_assoc]
    rw [findAt, hbefore', hunits, findBearer,
      credential_of_shape hboundary hshape.word_eq hshape.gap_ne hgap hshape.token_ne htoken hpadding]
    simp only [List.length_map]
    rw [if_pos (hshape.length_eq ▸ hlong)]
  have hdrop : (redactAssignments Prod.fst unlabelled (positions s)).drop
      (out.length + (6 + gap.length + token.length + padding'.length)) = rest' := by
    have hlength : (slice ++ padding').length =
        6 + gap.length + token.length + padding'.length := by
      have hslice' := congrArg List.length hslice
      have hword := bearer_length hshape.word_eq
      simp only [List.length_map, List.length_append] at hslice' ⊢
      omega
    rw [hwritten, ← List.drop_drop, List.drop_left, ← List.append_assoc slice, ← hlength,
      List.drop_left]
  rcases Reach.gone sound_findBearer h hfound hk with htext | hlow | hhigh
  · exact absurd htext not_mem_unlabelled
  · rw [Nat.add_zero, hwritten, List.take_left] at hlow
    exact .inl (hbefore u k hlow)
  · rw [hdrop] at hhigh
    exact .inr (hrest u k hhigh)

end Second

/-! ## Lines -/

end Acp

end AgentSdk
