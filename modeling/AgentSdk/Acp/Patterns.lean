import AgentSdk.Acp.Diagnostics
import Mathlib.Data.List.TakeWhile

/-!
# What the two patterns match

The shape of a secret assignment and of a bearer credential, as the parts of the
text they match.  Nothing starts inside the key of an assignment or between its
key and its value, and the word of a credential starts no assignment.

## Main results

* `assignment_shape`, `credential_shape` — the parts of what is matched.
* `credential_of_shape` — text of the shape is matched.
* `value_le_of_inside` — what starts inside an assignment starts in its value.
-/

namespace AgentSdk

namespace Acp

open AgentSdk.Text

/-! ## Runs of units -/

/-- A run of units of a class, which what follows does not go on with. -/
structure IsRun (p : UInt16 → Bool) (run rest : JsString) : Prop where
  all : ∀ u ∈ run, p u = true
  ended : ∀ u, rest.head? = some u → p u = false

/-- Text begins with a run of every class. -/
theorem exists_isRun (p : UInt16 → Bool) (s : JsString) :
    ∃ run rest, s = run ++ rest ∧ IsRun p run rest := by
  refine ⟨_, _, List.takeWhile_append_dropWhile.symm, fun u hu => List.mem_takeWhile_imp hu,
    fun u hu => ?_⟩
  have hhead := List.head?_dropWhile_not p s
  rw [hu] at hhead
  exact hhead

variable {gap key padding rest s token word : JsString} {u : UInt16} {before : Option UInt16}
  {a : Assignment} {c : Credential} {d : Nat}

theorem IsRun.takeWhile {p : UInt16 → Bool} {run : JsString} (h : IsRun p run rest) :
    (run ++ rest).takeWhile p = run ∧ (run ++ rest).dropWhile p = rest := by
  have hrest : rest.takeWhile p = [] ∧ rest.dropWhile p = rest := by
    cases rest with
    | nil => exact ⟨rfl, rfl⟩
    | cons u rest =>
      have hu := h.ended u rfl
      exact ⟨by rw [List.takeWhile_cons, hu]; rfl, by rw [List.dropWhile_cons, hu]; rfl⟩
  constructor
  · rw [List.takeWhile_append_of_pos h.all, hrest.1, List.append_nil]
  · rw [List.dropWhile_append_of_pos h.all, hrest.2]

theorem IsRun.unique {p : UInt16 → Bool} {run run' rest' : JsString} (h : IsRun p run rest)
    (h' : IsRun p run' rest') (htext : run ++ rest = run' ++ rest') :
    run = run' ∧ rest = rest' := by
  constructor
  · rw [← h.takeWhile.1, htext, h'.takeWhile.1]
  · rw [← h.takeWhile.2, htext, h'.takeWhile.2]

/-! ## Keys -/

theorem isWordUnit_of_fold (h : isWordUnit (foldCase u) = true) : isWordUnit u = true := by
  rcases toNat_foldCase u with ⟨hlow, hhigh, -⟩ | ⟨rfl, -⟩ | ⟨rfl, -⟩ | ⟨-, -, -, hsame⟩
  · have hupper : decide (65 ≤ u.toNat ∧ u.toNat ≤ 90) = true := decide_eq_true ⟨hlow, hhigh⟩
    simp only [isWordUnit, hupper, Bool.or_true, Bool.true_or]
  · rfl
  · rfl
  · rwa [hsame] at h

/-- A unit of a word is no space and no sign that the patterns look for. -/
theorem word_not_space (h : isWordUnit u = true) :
    isSpaceUnit u = false ∧ u ≠ 58 ∧ u ≠ 61 ∧ u ≠ 44 ∧ u ≠ 59 ∧ u ≠ 93 := by
  simp only [isWordUnit, Bool.or_eq_true, decide_eq_true_eq, ← UInt16.toNat_inj] at h
  simp only [isSpaceUnit, Bool.or_eq_false_iff, decide_eq_false_iff_not, ne_eq,
    ← UInt16.toNat_inj]
  simp only [UInt16.reduceToNat] at h ⊢
  omega

theorem isTokenUnit_of_word (h : isWordUnit u = true) : isTokenUnit u = true := by
  simp only [isTokenUnit, h, Bool.true_or]

/-- A unit of a token is no space and no sign that ends a value or a key. -/
theorem token_not_space (h : isTokenUnit u = true) :
    isSpaceUnit u = false ∧ u ≠ 58 ∧ u ≠ 61 ∧ u ≠ 93 := by
  simp only [isTokenUnit, isWordUnit, Bool.or_eq_true, decide_eq_true_eq,
    ← UInt16.toNat_inj] at h
  simp only [isSpaceUnit, Bool.or_eq_false_iff, decide_eq_false_iff_not, ne_eq,
    ← UInt16.toNat_inj]
  simp only [UInt16.reduceToNat] at h ⊢
  omega

/-- A key at the start of a text, folded one of the keys, and behind it no word goes on. -/
structure IsKey (before : Option UInt16) (key rest : JsString) : Prop where
  boundary : inWord before = false
  folded : key.map foldCase ∈ secretKeys
  ended : inWord rest.head? = false

theorem keyAt_shape {length : Nat} (h : keyAt before s = some length) :
    ∃ key rest, s = key ++ rest ∧ key.length = length ∧ IsKey before key rest := by
  unfold keyAt at h
  by_cases hbefore : inWord before = true
  · rw [if_pos hbefore] at h
    cases h
  · rw [if_neg hbefore] at h
    cases hfind : secretKeys.find? fun word =>
        decide ((s.take word.length).map foldCase = word) with
    | none =>
      rw [hfind] at h
      cases h
    | some word =>
      rw [hfind] at h
      simp only at h
      have hin := List.mem_of_find?_eq_some hfind
      have hfolded : (s.take word.length).map foldCase = word := by
        simpa using List.find?_some hfind
      by_cases hended : inWord (s.drop word.length).head? = true
      · rw [if_pos hended] at h
        cases h
      · rw [if_neg hended] at h
        cases h
        have hlength : (s.take word.length).length = word.length := by
          have hmap : ((s.take word.length).map foldCase).length = (s.take word.length).length :=
            List.length_map foldCase
          rw [← hmap, hfolded]
        exact ⟨s.take word.length, s.drop word.length, (List.take_append_drop _ s).symm, hlength,
          Bool.eq_false_iff.2 hbefore, hfolded.symm ▸ hin, Bool.eq_false_iff.2 hended⟩

/-! ## Assignments -/

/-- The parts of an assignment: its key, a gap, the separator, space and the value. -/
structure AssignmentShape (before : Option UInt16) (s : JsString) (a : Assignment)
    (key gap : JsString) (separator : UInt16) (space value rest : JsString) : Prop where
  text : s = key ++ (gap ++ separator :: (space ++ (value ++ rest)))
  isKey : IsKey before key (gap ++ separator :: (space ++ (value ++ rest)))
  gap_space : ∀ u ∈ gap, isSpaceUnit u = true
  separator_eq : separator = 58 ∨ separator = 61
  space_run : IsRun isSpaceUnit space (value ++ rest)
  value_ne : value ≠ []
  value_run : IsRun isValueUnit value rest
  key_eq : a.key = key.length
  value_eq : a.value = key.length + gap.length + 1 + space.length
  stop_eq : a.stop = a.value + value.length

/-- **What is matched as an assignment has the shape of one.** -/
theorem assignment_shape (h : assignment before s = some a) :
    ∃ key gap separator space value rest,
      AssignmentShape before s a key gap separator space value rest := by
  unfold assignment at h
  cases hkey : keyAt before s with
  | none =>
    rw [hkey] at h
    cases h
  | some length =>
    rw [hkey] at h
    obtain ⟨key, tail, rfl, rfl, hiskey⟩ := keyAt_shape hkey
    simp only [List.drop_left] at h
    obtain ⟨gap, tail', rfl, hgap⟩ := exists_isRun isSpaceUnit tail
    rw [hgap.takeWhile.2] at h
    cases tail' with
    | nil => cases h
    | cons separator tail =>
      simp only at h
      by_cases hseparator : separator = 58 ∨ separator = 61
      · rw [if_pos hseparator] at h
        obtain ⟨space, tail', rfl, hspace⟩ := exists_isRun isSpaceUnit tail
        obtain ⟨value, rest, rfl, hvalue⟩ := exists_isRun isValueUnit tail'
        simp only [hspace.takeWhile.2, hvalue.takeWhile] at h
        by_cases hnil : value = []
        · rw [if_pos hnil] at h
          cases h
        · rw [if_neg hnil] at h
          cases h
          refine ⟨key, gap, separator, space, value, rest, rfl, hiskey, hgap.all, hseparator,
            hspace, hnil, hvalue, rfl, ?_, ?_⟩
          · simp only [List.length_append, List.length_cons]
            omega
          · simp only [List.length_append, List.length_cons]
            omega
      · rw [if_neg hseparator] at h
        cases h

/-! ## Credentials -/

/-- The parts of a credential: the word, a gap, the token and its padding. -/
structure CredentialShape (before : Option UInt16) (s : JsString) (c : Credential)
    (word gap token padding rest : JsString) : Prop where
  text : s = word ++ (gap ++ (token ++ (padding ++ rest)))
  boundary : inWord before = false
  word_eq : word.map foldCase = js "bearer"
  gap_ne : gap ≠ []
  gap_run : IsRun isSpaceUnit gap (token ++ (padding ++ rest))
  token_ne : token ≠ []
  token_run : IsRun isTokenUnit token (padding ++ rest)
  padding_run : IsRun (fun u => decide (u = 61)) padding rest
  value_eq : c.value = 6 + gap.length
  length_eq : c.token = token.length
  stop_eq : c.stop = c.value + token.length + padding.length

theorem bearer_length (h : word.map foldCase = js "bearer") : word.length = 6 := by
  have hmap : (word.map foldCase).length = word.length := List.length_map foldCase
  rw [← hmap, h]
  rfl

/-- **What is matched as a credential has the shape of one.** -/
theorem credential_shape (h : credential before s = some c) :
    ∃ word gap token padding rest, CredentialShape before s c word gap token padding rest := by
  unfold credential at h
  by_cases hbefore : inWord before = true
  · rw [if_pos hbefore] at h
    cases h
  · rw [if_neg hbefore] at h
    by_cases hword : (s.take 6).map foldCase = js "bearer"
    · rw [if_pos hword] at h
      have hlength := bearer_length hword
      have htext : s = s.take 6 ++ s.drop 6 := (List.take_append_drop 6 s).symm
      generalize s.take 6 = word at hword hlength htext
      generalize s.drop 6 = tail at h htext
      subst htext
      obtain ⟨gap, tail', rfl, hgap⟩ := exists_isRun isSpaceUnit tail
      obtain ⟨token, tail'', rfl, htoken⟩ := exists_isRun isTokenUnit tail'
      obtain ⟨padding, rest, rfl, hpadding⟩ := exists_isRun (fun u => decide (u = 61)) tail''
      simp only [hgap.takeWhile, htoken.takeWhile, hpadding.takeWhile] at h
      by_cases hnone : gap = [] ∨ token = []
      · rw [if_pos hnone] at h
        cases h
      · rw [if_neg hnone] at h
        rw [not_or] at hnone
        cases h
        refine ⟨word, gap, token, padding, rest, rfl, Bool.eq_false_iff.2 hbefore, hword, hnone.1,
          hgap, hnone.2, htoken, hpadding, ?_, rfl, ?_⟩
        · simp only [List.length_append]
          omega
        · simp only [List.length_append]
          omega
    · rw [if_neg hword] at h
      cases h

/-- **Text of the shape of a credential is matched as one.** -/
theorem credential_of_shape (hbefore : inWord before = false)
    (hword : word.map foldCase = js "bearer") (hgap : gap ≠ [])
    (hgaprun : IsRun isSpaceUnit gap (token ++ (padding ++ rest))) (htoken : token ≠ [])
    (htokenrun : IsRun isTokenUnit token (padding ++ rest))
    (hpadding : IsRun (fun u => decide (u = 61)) padding rest) :
    credential before (word ++ (gap ++ (token ++ (padding ++ rest)))) =
      some { value := 6 + gap.length
             token := token.length
             stop := 6 + gap.length + token.length + padding.length } := by
  have hlength := bearer_length hword
  have htake : (word ++ (gap ++ (token ++ (padding ++ rest)))).take 6 = word := by
    rw [← hlength, List.take_left]
  have hdrop : (word ++ (gap ++ (token ++ (padding ++ rest)))).drop 6 =
      gap ++ (token ++ (padding ++ rest)) := by
    rw [← hlength, List.drop_left]
  rw [credential, hbefore, htake, hdrop, hgaprun.takeWhile.1, hgaprun.takeWhile.2,
    htokenrun.takeWhile.1, htokenrun.takeWhile.2, hpadding.takeWhile.2, if_neg Bool.false_ne_true,
    if_pos hword, if_neg (not_or.2 ⟨hgap, htoken⟩)]
  simp only [List.length_append, hlength, Option.some.injEq, Credential.mk.injEq, true_and]
  omega

/-! ## Where matches start -/

/-- The first letters of the keys. -/
def keyLetters : List UInt16 := [97, 98, 112, 115, 116]

/-- A word starts here, with the first letter of a key. -/
structure Starts (before : Option UInt16) (s : JsString) : Prop where
  boundary : inWord before = false
  letter : ∃ u, s.head? = some u ∧ foldCase u ∈ keyLetters

theorem word_of_keyLetter (h : foldCase u ∈ keyLetters) : isWordUnit u = true := by
  have hletters : ∀ v ∈ keyLetters, isWordUnit v = true := forall_of_all (by decide)
  exact isWordUnit_of_fold (hletters _ h)

theorem head_of_map {words : List JsString} (hkey : key.map foldCase ∈ words)
    (hwords : ∀ word ∈ words, ∃ u, word.head? = some u ∧ u ∈ keyLetters) :
    ∃ u, (key ++ rest).head? = some u ∧ foldCase u ∈ keyLetters := by
  obtain ⟨v, hv, hletter⟩ := hwords _ hkey
  cases key with
  | nil => cases hv
  | cons u key =>
    rw [List.map_cons, List.head?_cons, Option.some.injEq] at hv
    exact ⟨u, rfl, hv ▸ hletter⟩

theorem AssignmentShape.starts {separator : UInt16} {space value : JsString}
    (h : AssignmentShape before s a key gap separator space value rest) : Starts before s where
  boundary := h.isKey.boundary
  letter := by
    have hwords : ∀ word ∈ secretKeys, ∃ u, word.head? = some u ∧ u ∈ keyLetters := by
      have hall : ∀ word ∈ secretKeys, ∃ u ∈ keyLetters, word.head? = some u := by decide
      intro word hword
      obtain ⟨u, hletter, hu⟩ := hall word hword
      exact ⟨u, hu, hletter⟩
    rw [h.text]
    exact head_of_map h.isKey.folded hwords

theorem CredentialShape.starts (h : CredentialShape before s c word gap token padding rest) :
    Starts before s where
  boundary := h.boundary
  letter := by
    have hwords : ∀ other ∈ [js "bearer"], ∃ u, other.head? = some u ∧ u ∈ keyLetters := by
      intro other hother
      obtain rfl := List.mem_singleton.1 hother
      exact ⟨98, by decide, by decide⟩
    rw [h.text]
    exact head_of_map (List.mem_singleton.2 h.word_eq) hwords

/-- Inside the keys, a letter that starts a key follows a unit of a word. -/
theorem key_letters_inside : ∀ word ∈ secretKeys, ∀ d < word.length, 0 < d →
    (∀ u, word[d]? = some u → u ∈ keyLetters → ∀ v, word[d - 1]? = some v →
      isWordUnit v = true) := by
  have hall : ∀ word ∈ secretKeys, ∀ d < word.length, 0 < d →
      word[d]?.all (fun u => !decide (u ∈ keyLetters)) = true ∨
        word[d - 1]?.all isWordUnit = true := by decide
  intro word hword d hd hpos u hu hletter v hv
  rcases hall word hword d hd hpos with h | h
  · rw [hu] at h
    simp [hletter] at h
  · rw [hv] at h
    exact h

/-- **What starts inside an assignment starts in its value.** -/
theorem AssignmentShape.value_le {separator : UInt16} {space value : JsString}
    (h : AssignmentShape before s a key gap separator space value rest) (hpos : 0 < d)
    (hstarts : Starts s[d - 1]? (s.drop d)) : a.value ≤ d := by
  obtain ⟨u, hu, hletter⟩ := hstarts.letter
  rw [List.head?_drop] at hu
  by_contra hlow
  have hvalue := h.value_eq
  by_cases hkey : d < key.length
  · -- the unit before it is inside the key
    have hword : (key.map foldCase)[d]? = some (foldCase u) := by
      rw [h.text, List.getElem?_append_left hkey] at hu
      rw [List.getElem?_map, hu]
      rfl
    have hbefore : s[d - 1]? = key[d - 1]? := by
      rw [h.text, List.getElem?_append_left (by omega)]
    have hv : key[d - 1]? = some key[d - 1] := List.getElem?_eq_getElem (by omega)
    have hfolded : isWordUnit (foldCase key[d - 1]) = true := by
      refine key_letters_inside _ h.isKey.folded d (by rw [List.length_map]; exact hkey) hpos _
        hword hletter _ ?_
      rw [List.getElem?_map, hv]
      rfl
    have hboundary := hstarts.boundary
    rw [hbefore, hv] at hboundary
    have hinside : isWordUnit key[d - 1] = false := hboundary
    rw [isWordUnit_of_fold hfolded] at hinside
    cases hinside
  · -- it is a space or the separator
    have hmiddle : s = (key ++ (gap ++ separator :: space)) ++ (value ++ rest) := by
      rw [h.text]
      simp
    have hlength : (gap ++ separator :: space).length = gap.length + (space.length + 1) := by simp
    rw [hmiddle, List.getElem?_append_left (by rw [List.length_append, hlength]; omega),
      List.getElem?_append_right (by omega)] at hu
    have hin : u ∈ gap ++ separator :: space := List.mem_of_getElem? hu
    obtain ⟨hspace, hcolon, hequals, -⟩ := word_not_space (word_of_keyLetter hletter)
    rcases List.mem_append.1 hin with hgap | hsep
    · rw [h.gap_space u hgap] at hspace
      cases hspace
    · rcases List.mem_cons.1 hsep with rfl | hspaces
      · exact h.separator_eq.elim hcolon hequals
      · rw [h.space_run.all u hspaces] at hspace
        cases hspace

/-- The units of a folded word are units of words. -/
theorem word_of_folded (h : word.map foldCase = js "bearer") : ∀ u ∈ word, isWordUnit u = true := by
  have hall : ∀ u ∈ js "bearer", isWordUnit u = true := forall_of_all (by decide)
  intro u hu
  exact isWordUnit_of_fold (hall _ (h ▸ List.mem_map_of_mem hu))

/-- The units of a key are units of tokens. -/
theorem token_of_key (h : key.map foldCase ∈ secretKeys) : ∀ u ∈ key, isTokenUnit u = true := by
  have hall : ∀ word ∈ secretKeys, (word.all fun u => isWordUnit u || u == 45) = true := by decide
  intro u hu
  have hunit := List.all_eq_true.1 (hall _ h) _ (List.mem_map_of_mem hu)
  rcases Bool.or_eq_true_iff.1 hunit with hword | hdash
  · exact isTokenUnit_of_word (isWordUnit_of_fold hword)
  · have hdash := eq_of_beq hdash
    rcases toNat_foldCase u with ⟨hlow, -, hfold⟩ | ⟨-, hfold⟩ | ⟨-, hfold⟩ | ⟨-, -, -, hfold⟩
    · rw [hdash] at hfold
      have hdigits : (45 : UInt16).toNat = 45 := rfl
      omega
    · rw [hdash] at hfold
      cases hfold
    · rw [hdash] at hfold
      cases hfold
    · rw [← hfold, hdash]
      rfl

/-- The word of a credential starts no assignment. -/
theorem CredentialShape.no_assignment (h : CredentialShape before s c word gap token padding rest) :
    assignment before s = none := by
  cases ha : assignment before s with
  | none => rfl
  | some a =>
    obtain ⟨key, gap', separator, space, value, rest', hshape⟩ := assignment_shape ha
    have hfirst : ∀ other ∈ secretKeys, other.head? = some 98 → other = js "bearer" := by decide
    have hnonempty : ∀ other ∈ secretKeys, 0 < other.length := by decide
    have htext : key ++ (gap' ++ separator :: (space ++ (value ++ rest'))) =
        word ++ (gap ++ (token ++ (padding ++ rest))) := hshape.text.symm.trans h.text
    -- the key has the first letter of the word, so it is the word
    have hhead : (key.map foldCase).head? = some 98 := by
      have hpos := hnonempty _ hshape.isKey.folded
      rw [List.length_map] at hpos
      have hsame : key.head? = word.head? := by
        have hheads := congrArg List.head? htext
        have hword := bearer_length h.word_eq
        rwa [List.head?_append_of_ne_nil _ (List.ne_nil_of_length_pos hpos),
          List.head?_append_of_ne_nil _ (List.ne_nil_of_length_pos (by omega))] at hheads
      rw [List.head?_map, hsame, ← List.head?_map, h.word_eq]
      rfl
    have hkey := bearer_length (hfirst _ hshape.isKey.folded hhead)
    obtain ⟨-, htail⟩ := List.append_inj htext (hkey.trans (bearer_length h.word_eq).symm)
    -- behind the spaces one of them has a sign and the other a token
    have hseparator : isSpaceUnit separator = false := by
      rcases hshape.separator_eq with rfl | rfl <;> rfl
    have hgap : IsRun isSpaceUnit gap' (separator :: (space ++ (value ++ rest'))) :=
      ⟨hshape.gap_space, fun u hu => Option.some.inj hu ▸ hseparator⟩
    have hbehind := congrArg (List.dropWhile isSpaceUnit) htail
    rw [hgap.takeWhile.2, h.gap_run.takeWhile.2] at hbehind
    cases token with
    | nil => exact absurd rfl h.token_ne
    | cons u token =>
      rw [List.cons_append, List.cons.injEq] at hbehind
      obtain ⟨-, hcolon, hequals, -⟩ := token_not_space (h.token_run.all u (by simp))
      rw [← hbehind.1] at hcolon hequals
      exact absurd hshape.separator_eq (not_or.2 ⟨hcolon, hequals⟩)

/-- **What starts inside a credential starts in its token.** -/
theorem CredentialShape.token_of_starts
    (h : CredentialShape before s c word gap token padding rest) (hpos : 0 < d) (hd : d < c.stop)
    (hstarts : Starts s[d - 1]? (s.drop d)) : c.value ≤ d ∧ d < c.value + c.token := by
  obtain ⟨u, hu, hletter⟩ := hstarts.letter
  rw [List.head?_drop] at hu
  obtain ⟨hspace, -, hequals, -⟩ := word_not_space (word_of_keyLetter hletter)
  have hword := bearer_length h.word_eq
  have hvalue := h.value_eq
  have hlength := h.length_eq
  have hstop := h.stop_eq
  by_cases hinword : d < 6 + gap.length
  · by_cases hfirst : d ≤ 5
    · -- the unit in front of it belongs to the word
      have hbound : d - 1 < word.length := by omega
      have hbefore : s[d - 1]? = some word[d - 1] := by
        rw [h.text, List.getElem?_append_left (by omega)]
        exact List.getElem?_eq_getElem _
      have hboundary := hstarts.boundary
      rw [hbefore] at hboundary
      have hin : isWordUnit word[d - 1] = true :=
        word_of_folded h.word_eq _ (List.getElem_mem _)
      have hout : isWordUnit word[d - 1] = false := hboundary
      rw [hin] at hout
      cases hout
    · rw [h.text, List.getElem?_append_right (by omega),
        List.getElem?_append_left (by omega)] at hu
      rw [h.gap_run.all u (List.mem_of_getElem? hu)] at hspace
      cases hspace
  · by_cases hintoken : d < c.value + c.token
    · exact ⟨by omega, hintoken⟩
    · rw [h.text, List.getElem?_append_right (by omega), List.getElem?_append_right (by omega),
        List.getElem?_append_right (by omega), List.getElem?_append_left (by omega)] at hu
      have hpadding := h.padding_run.all u (List.mem_of_getElem? hu)
      exact absurd (of_decide_eq_true hpadding) hequals

/-- **A key inside a token ends it**, and its value takes the padding behind the token. -/
theorem CredentialShape.key_ends_token {before' : Option UInt16}
    (h : CredentialShape before s c word gap token padding rest) (hlow : c.value ≤ d)
    (hhigh : d < c.value + c.token) (ha : assignment before' (s.drop d) = some a) :
    d + a.key = c.value + c.token ∧ c.stop ≤ d + a.stop := by
  obtain ⟨key, gap', separator, space, value, rest', hshape⟩ := assignment_shape ha
  have hword := bearer_length h.word_eq
  have hvalue := h.value_eq
  have hlength := h.length_eq
  have htext : s.drop d = token.drop (d - c.value) ++ (padding ++ rest) := by
    have hparts : s = (word ++ gap) ++ (token ++ (padding ++ rest)) := by
      rw [h.text, List.append_assoc]
    rw [hparts, List.drop_append, List.drop_eq_nil_of_le (by rw [List.length_append]; omega),
      List.nil_append, List.drop_append_of_le_length (by rw [List.length_append]; omega),
      List.length_append, show d - (word.length + gap.length) = d - c.value by omega]
  -- both the key and the end of the token are the run of token units that is left
  have htoken : IsRun isTokenUnit (token.drop (d - c.value)) (padding ++ rest) :=
    ⟨fun u hu => h.token_run.all u (List.mem_of_mem_drop hu), h.token_run.ended⟩
  have hkey : IsRun isTokenUnit key (gap' ++ separator :: (space ++ (value ++ rest'))) := by
    refine ⟨token_of_key hshape.isKey.folded, fun u hu => ?_⟩
    by_contra hin
    obtain ⟨hspace, hcolon, hequals, -⟩ := token_not_space (Bool.not_eq_false _ ▸ hin)
    cases gap' with
    | nil =>
      rw [List.nil_append, List.head?_cons, Option.some.injEq] at hu
      exact absurd (hu ▸ hshape.separator_eq) (not_or.2 ⟨hcolon, hequals⟩)
    | cons v gap' =>
      rw [List.cons_append, List.head?_cons, Option.some.injEq] at hu
      rw [← hu, hshape.gap_space v (by simp)] at hspace
      cases hspace
  obtain ⟨rfl, hbehind⟩ := hkey.unique htoken (hshape.text.symm.trans htext)
  have hkeylength := hshape.key_eq
  rw [List.length_drop] at hkeylength
  refine ⟨by omega, ?_⟩
  -- the value does not stop before a sign that goes on with it
  by_contra hshort
  have hparts : (gap' ++ separator :: (space ++ value)) ++ rest' = padding ++ rest := by
    rw [← hbehind]
    simp
  have hstop := h.stop_eq
  have hvalue' := hshape.value_eq
  have hstop' := hshape.stop_eq
  rw [List.length_drop] at hvalue'
  have hmiddle : (gap' ++ separator :: (space ++ value)).length =
      gap'.length + (space.length + value.length + 1) := by simp
  rcases List.append_eq_append_iff.1 hparts with ⟨more, hpadding, hrest⟩ | ⟨more, hpadding, -⟩
  · cases more with
    | nil =>
      have hsame := congrArg List.length hpadding
      rw [List.append_nil, hmiddle] at hsame
      omega
    | cons u more =>
      have hu : u = 61 := of_decide_eq_true (h.padding_run.all u (by rw [hpadding]; simp))
      have hended := hshape.value_run.ended u (by rw [hrest]; rfl)
      rw [hu] at hended
      revert hended
      decide
  · have hsame := congrArg List.length hpadding
    rw [hmiddle, List.length_append] at hsame
    omega

end Acp

end AgentSdk
