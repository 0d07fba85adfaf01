import AgentSdk.Evidence.Bounded

/-!
# Secrets do not show

Two values of possibly different realms are alike when their inspections answer
the same, except for what is stored under sensitive keys.  A relation between
two realms says which values are alike, so the values may be cyclic and their
parts shared.

## Main results

* `normalized_alike` — values that are alike are normalized to the same data.
* `sameButSecrets_alike` — JSON data that differ under sensitive keys are alike.
* `redaction_noninterference` — nothing that is kept of a value depends on its
  secrets.
-/

namespace AgentSdk

namespace Evidence

open AgentSdk.Text

variable {V V' ν : Type}

/-! ## Values alike -/

/-- Two attempts throw together or have related answers. -/
inductive Agree {α β : Type} (R : α → β → Prop) : Attempt α → Attempt β → Prop where
  | threw (e : Thrown) : Agree R (.error e) (.error e)
  | answered {a : α} {b : β} (h : R a b) : Agree R (.ok a) (.ok b)

/-- Two descriptors differ in the values they hold, which are related. -/
inductive AlikeDescriptor (R : V → V' → Prop) :
    Option (Descriptor V) → Option (Descriptor V') → Prop where
  | absent : AlikeDescriptor R none none
  | accessor (enumerable : Bool) :
      AlikeDescriptor R (some { enumerable := enumerable, value := none })
        (some { enumerable := enumerable, value := none })
  | value (enumerable : Bool) {v : V} {v' : V'} (h : R v v') :
      AlikeDescriptor R (some { enumerable := enumerable, value := some v })
        (some { enumerable := enumerable, value := some v' })

/-- Whether a key is a string that the pattern matches. -/
def PropertyKey.isSensitive : PropertyKey → Bool
  | .name text => isSensitiveKey text
  | .symbol _ => false

/-- What must be alike under a key: the value, unless the key is sensitive. -/
def Shown (R : V → V' → Prop) (key : PropertyKey) (v : V) (v' : V') : Prop :=
  key.isSensitive = false → R v v'

structure AlikeSeen (R : V → V' → Prop) (seen : Inspection V) (seen' : Inspection V') : Prop where
  isArray : seen.isArray = seen'.isArray
  length : seen.length = seen'.length
  ownKeys : seen.ownKeys = seen'.ownKeys
  enumerated : ∀ key, Agree (AlikeDescriptor (Shown R key)) (seen.enumerated key)
    (seen'.enumerated key)
  read : ∀ key, Agree (AlikeDescriptor (Shown R key)) (seen.read key) (seen'.read key)
  prototype : seen.prototype = seen'.prototype

inductive AlikeValue (R : V → V' → Prop) : Value V ν → Value V' ν → Prop where
  | null : AlikeValue R .null .null
  | bool (value : Bool) : AlikeValue R (.bool value) (.bool value)
  | num (value : ν) : AlikeValue R (.num value) (.num value)
  | nonFinite : AlikeValue R .nonFinite .nonFinite
  | str (value : JsString) : AlikeValue R (.str value) (.str value)
  | foreign (value : Foreign) : AlikeValue R (.foreign value) (.foreign value)
  | object {seen : Inspection V} {seen' : Inspection V'} (h : AlikeSeen R seen seen') :
      AlikeValue R (.object seen) (.object seen')

/-- A relation between the values of two realms under which values look alike, and which
respects the identity of objects. -/
structure AlikeRealms (W : Realm V ν) (W' : Realm V' ν) (R : V → V' → Prop) : Prop where
  inspect : ∀ v v', R v v' → AlikeValue R (W.inspect v) (W'.inspect v')
  same : ∀ a a' b b', R a a' → R b b' → W.same a b = W'.same a' b'

/-! ## One object -/

/-- Descriptors that agree, by cases. -/
theorem Agree.descriptor {Q : V → V' → Prop} {a : Attempt (Option (Descriptor V))}
    {b : Attempt (Option (Descriptor V'))} (h : Agree (AlikeDescriptor Q) a b) :
    (∃ e, a = .error e ∧ b = .error e) ∨ (a = .ok none ∧ b = .ok none) ∨
      (∃ enumerable, a = .ok (some { enumerable := enumerable, value := none }) ∧
        b = .ok (some { enumerable := enumerable, value := none })) ∨
      ∃ enumerable v v', a = .ok (some { enumerable := enumerable, value := some v }) ∧
        b = .ok (some { enumerable := enumerable, value := some v' }) ∧ Q v v' := by
  cases h with
  | threw e => exact .inl ⟨e, rfl, rfl⟩
  | answered h =>
    cases h with
    | absent => exact .inr (.inl ⟨rfl, rfl⟩)
    | accessor enumerable => exact .inr (.inr (.inl ⟨enumerable, rfl, rfl⟩))
    | value enumerable h => exact .inr (.inr (.inr ⟨enumerable, _, _, rfl, rfl, h⟩))

section Object

variable {R : V → V' → Prop} {seen : Inspection V} {seen' : Inspection V'}
  {next : V → NormalizedAgentProviderData ν} {next' : V' → NormalizedAgentProviderData ν}

theorem isForeignKey_alike (h : AlikeSeen R seen seen') (key : PropertyKey) :
    isForeignKey seen key = isForeignKey seen' key := by
  unfold isForeignKey
  rw [h.length]
  rcases (h.enumerated key).descriptor with ⟨e, hleft, hright⟩ | ⟨hleft, hright⟩ |
    ⟨enumerable, hleft, hright⟩ | ⟨enumerable, v, v', hleft, hright, -⟩
  all_goals rw [hleft, hright]; rfl

theorem anyForeignKey_alike (h : AlikeSeen R seen seen') (keys : List PropertyKey) :
    anyForeignKey seen keys = anyForeignKey seen' keys := by
  induction keys with
  | nil => rfl
  | cons key rest ih => rw [anyForeignKey, anyForeignKey, isForeignKey_alike h key, ih]

theorem enumerableKeys_alike (h : AlikeSeen R seen seen') (keys : List PropertyKey) :
    enumerableKeys seen keys = enumerableKeys seen' keys := by
  induction keys with
  | nil => rfl
  | cons key rest ih =>
    rw [enumerableKeys, enumerableKeys, ih]
    rcases (h.enumerated key).descriptor with ⟨e, hleft, hright⟩ | ⟨hleft, hright⟩ |
      ⟨enumerable, hleft, hright⟩ | ⟨enumerable, v, v', hleft, hright, -⟩
    all_goals rw [hleft, hright]; rfl

theorem normalizedElements_alike (h : AlikeSeen R seen seen')
    (hnext : ∀ v v', R v v' → next v = next' v') (indices : List Nat) :
    normalizedElements next seen indices = normalizedElements next' seen' indices := by
  induction indices with
  | nil => rfl
  | cons index rest ih =>
    rw [normalizedElements, normalizedElements, ih]
    rcases (h.read (.name (natDecimal index))).descriptor with ⟨e, hleft, hright⟩ |
      ⟨hleft, hright⟩ | ⟨enumerable, hleft, hright⟩ | ⟨enumerable, v, v', hleft, hright, hshown⟩
    · rw [hleft, hright]
      rfl
    · rw [hleft, hright]
      rfl
    · rw [hleft, hright]
      rfl
    · have hvalue := hnext v v' (hshown (index_not_sensitive index))
      simp only [hleft, hright, normalizedElement, hvalue, bind, Except.bind]

theorem normalizedArray_alike (h : AlikeSeen R seen seen')
    (hnext : ∀ v v', R v v' → next v = next' v') :
    normalizedArray next seen = normalizedArray next' seen' := by
  unfold normalizedArray
  simp only [h.length, h.ownKeys, anyForeignKey_alike h, normalizedElements_alike h hnext]

/-- A member is the same when its key is sensitive or its values are alike. -/
theorem normalizedMember_alike (hnext : ∀ v v', R v v' → next v = next' v') {key : JsString}
    {enumerable : Bool} {v : V} {v' : V'} (h : Shown R (.name key) v v') :
    normalizedMember next key { enumerable := enumerable, value := some v } =
      normalizedMember next' key { enumerable := enumerable, value := some v' } := by
  unfold normalizedMember
  by_cases hsecret : isSensitiveKey key = true
  · simp only [hsecret, if_true]
  · have hshown := hnext v v' (h (Bool.not_eq_true _ ▸ hsecret))
    simp only [hsecret, if_false, Bool.false_eq_true, hshown]

theorem normalizedMembers_alike (h : AlikeSeen R seen seen')
    (hnext : ∀ v v', R v v' → next v = next' v') (preserved : List JsString) (keys : List JsString)
    (index : Nat) (used : List JsString) :
    normalizedMembers next seen preserved index used keys =
      normalizedMembers next' seen' preserved index used keys := by
  induction keys generalizing index used with
  | nil => rfl
  | cons key rest ih =>
    rw [normalizedMembers, normalizedMembers]
    rcases (h.read (.name key)).descriptor with ⟨e, hleft, hright⟩ | ⟨hleft, hright⟩ |
      ⟨enumerable, hleft, hright⟩ | ⟨enumerable, v, v', hleft, hright, hshown⟩
    · rw [hleft, hright]
      rfl
    · rw [hleft, hright]
      exact ih (index + 1) used
    · simp only [hleft, hright, normalizedMember, ih, bind, Except.bind]
    · simp only [hleft, hright, normalizedMember_alike hnext hshown, ih, bind, Except.bind]

theorem normalizedObject_alike (h : AlikeSeen R seen seen')
    (hnext : ∀ v v', R v v' → next v = next' v') :
    normalizedObject next seen = normalizedObject next' seen' := by
  have hrecord : normalizedRecord next seen = normalizedRecord next' seen' := by
    unfold normalizedRecord
    simp only [h.ownKeys, enumerableKeys_alike h, normalizedMembers_alike h hnext]
  unfold normalizedObject
  rw [h.isArray, h.prototype, normalizedArray_alike h hnext, hrecord]

end Object

/-! ## The walk -/

section Realms

variable {W : Realm V ν} {W' : Realm V' ν} {R : V → V' → Prop}

theorem ancestors_alike (h : AlikeRealms W W' R) {value : V} {value' : V'} (hvalue : R value value')
    {ancestors : List V} {ancestors' : List V'} (hanc : List.Forall₂ R ancestors ancestors') :
    ancestors.any (W.same value) = ancestors'.any (W'.same value') := by
  induction hanc with
  | nil => rfl
  | cons ha _ ih => rw [List.any_cons, List.any_cons, ih, h.same _ _ _ _ hvalue ha]

/-- **Values that are alike are normalized alike**: to the same data, with the same flag. -/
theorem normalized_alike (h : AlikeRealms W W' R) (room : Nat) {ancestors : List V}
    {ancestors' : List V'} (hanc : List.Forall₂ R ancestors ancestors') {value : V} {value' : V'}
    (hvalue : R value value') :
    normalizedProviderValue W room ancestors value =
      normalizedProviderValue W' room ancestors' value' := by
  induction room generalizing ancestors ancestors' value value' with
  | zero => rfl
  | succ room ih =>
    have hancestors := ancestors_alike h hvalue hanc
    have hinspect := h.inspect value value' hvalue
    rw [normalizedProviderValue, normalizedProviderValue, hancestors]
    generalize W.inspect value = left at hinspect ⊢
    generalize W'.inspect value' = right at hinspect ⊢
    cases hinspect with
    | object hseen =>
      have hobject :
          normalizedObject (normalizedProviderValue W room (value :: ancestors)) _ =
            normalizedObject (normalizedProviderValue W' room (value' :: ancestors')) _ :=
        normalizedObject_alike hseen fun v v' hv => ih (.cons hvalue hanc) hv
      simp only [hobject]
    | _ => rfl

end Realms

/-! ## JSON data -/

mutual

/-- JSON data of one shape that differ in the values of sensitive members at most. -/
def SameButSecrets : JsonData ν → JsonData ν → Prop
  | .arr items, .arr items' => ItemsSameButSecrets items items'
  | .obj fields, .obj fields' => FieldsSameButSecrets fields fields'
  | a, b => a = b

def ItemsSameButSecrets : List (JsonData ν) → List (JsonData ν) → Prop
  | [], [] => True
  | a :: as, b :: bs => SameButSecrets a b ∧ ItemsSameButSecrets as bs
  | _, _ => False

def FieldsSameButSecrets : List (JsString × JsonData ν) → List (JsString × JsonData ν) → Prop
  | [], [] => True
  | (key, a) :: as, (key', b) :: bs =>
    key = key' ∧ (isSensitiveKey key = false → SameButSecrets a b) ∧ FieldsSameButSecrets as bs
  | _, _ => False

end

theorem itemsSame_iff {items items' : List (JsonData ν)} :
    ItemsSameButSecrets items items' ↔ List.Forall₂ SameButSecrets items items' := by
  induction items generalizing items' with
  | nil => cases items' <;> simp [ItemsSameButSecrets]
  | cons item rest ih => cases items' <;> simp [ItemsSameButSecrets, ih]

theorem fieldsSame_keys {fields fields' : List (JsString × JsonData ν)}
    (h : FieldsSameButSecrets fields fields') :
    fields.map Prod.fst = fields'.map Prod.fst := by
  induction fields generalizing fields' with
  | nil =>
    cases fields' with
    | nil => rfl
    | cons field' rest' => exact h.elim
  | cons field rest ih =>
    cases fields' with
    | nil => exact h.elim
    | cons field' rest' => rw [List.map_cons, List.map_cons, h.1, ih h.2.2]

/-- What one key finds in members of the same shape. -/
theorem lookup_same {fields fields' : List (JsString × JsonData ν)}
    (h : FieldsSameButSecrets fields fields') (key : JsString) :
    (fields.lookup key = none ∧ fields'.lookup key = none) ∨
      ∃ a b, fields.lookup key = some a ∧ fields'.lookup key = some b ∧
        (isSensitiveKey key = false → SameButSecrets a b) := by
  induction fields generalizing fields' with
  | nil =>
    cases fields' with
    | nil => exact .inl ⟨rfl, rfl⟩
    | cons field' rest' => exact h.elim
  | cons field rest ih =>
    cases fields' with
    | nil => exact h.elim
    | cons field' rest' =>
      obtain ⟨name, a⟩ := field
      obtain ⟨name', b⟩ := field'
      obtain ⟨hname, hshown, hrest⟩ := h
      subst hname
      simp only [List.lookup_cons]
      by_cases hhere : key = name
      · subst hhere
        exact .inr ⟨a, b, by simp, by simp, hshown⟩
      · have hother : (key == name) = false := by simpa using hhere
        simpa only [hother] using ih hrest

theorem memberAt_alike {fields fields' : List (JsString × JsonData ν)}
    (h : FieldsSameButSecrets fields fields') (key : PropertyKey) :
    AlikeDescriptor (Shown SameButSecrets key) (memberAt fields key) (memberAt fields' key) := by
  cases key with
  | symbol id => exact .absent
  | name text =>
    simp only [memberAt]
    rcases lookup_same h text with ⟨hleft, hright⟩ | ⟨a, b, hleft, hright, hshown⟩
    · rw [hleft, hright]
      exact .absent
    · rw [hleft, hright]
      exact .value true hshown

theorem elementAt_alike {items items' : List (JsonData ν)}
    (h : List.Forall₂ SameButSecrets items items') (key : PropertyKey) :
    AlikeDescriptor (Shown SameButSecrets key) (elementAt items key) (elementAt items' key) := by
  unfold elementAt
  cases arrayIndex key with
  | none =>
    by_cases hlength : key = .name (js "length")
    · simp only [hlength, if_true]
      exact .accessor false
    · simp only [hlength, if_false]
      exact .absent
  | some index =>
    by_cases hin : index < items.length
    · have hin' : index < items'.length := h.length_eq ▸ hin
      simp only [List.getElem?_eq_getElem hin, List.getElem?_eq_getElem hin', Option.map_some]
      exact .value true fun _ => h.get hin hin'
    · have hout : items[index]? = none := List.getElem?_eq_none (by omega)
      have hout' : items'[index]? = none :=
        List.getElem?_eq_none (by rw [← h.length_eq]; omega)
      simp only [hout, hout', Option.map_none]
      exact .absent

theorem same_leaf {a b : JsonData ν} (h : SameButSecrets a b) (harr : ∀ items, a ≠ .arr items)
    (hobj : ∀ fields, a ≠ .obj fields) : a = b := by
  cases a with
  | arr items => exact absurd rfl (harr items)
  | obj fields => exact absurd rfl (hobj fields)
  | null | bool | num | str => simpa only [SameButSecrets] using h

/-- **JSON data that differ under sensitive keys are alike.** -/
theorem sameButSecrets_alike :
    AlikeRealms (ν := ν) jsonRealm jsonRealm (SameButSecrets (ν := ν)) where
  same _ _ _ _ _ _ := rfl
  inspect := by
    intro v v' h
    have harr : ∀ items items' : List (JsonData ν), ItemsSameButSecrets items items' →
        AlikeSeen SameButSecrets (arraySeen items) (arraySeen items') := by
      intro items items' hitems
      have hall := itemsSame_iff.1 hitems
      have hlength := hall.length_eq
      exact
        { isArray := rfl
          length := by simp only [arraySeen, hlength]
          ownKeys := by simp only [arraySeen, hlength]
          enumerated := fun key => .answered (elementAt_alike hall key)
          read := fun key => .answered (elementAt_alike hall key)
          prototype := rfl }
    have hobj : ∀ fields fields' : List (JsString × JsonData ν),
        FieldsSameButSecrets fields fields' →
        AlikeSeen SameButSecrets (objectSeen fields) (objectSeen fields') := by
      intro fields fields' hfields
      exact
        { isArray := rfl
          length := rfl
          ownKeys := by simp only [objectSeen, objectKeys, fieldsSame_keys hfields]
          enumerated := fun key => .answered (memberAt_alike hfields key)
          read := fun key => .answered (memberAt_alike hfields key)
          prototype := rfl }
    cases v with
    | arr items =>
      cases v' with
      | arr items' => exact .object (harr items items' h)
      | null | bool _ | num _ | str _ | obj _ => exact absurd h (by simp [SameButSecrets])
    | obj fields =>
      cases v' with
      | obj fields' => exact .object (hobj fields fields' h)
      | null | bool _ | num _ | str _ | arr _ => exact absurd h (by simp [SameButSecrets])
    | null => exact same_leaf h (by simp) (by simp) ▸ .null
    | bool value => exact same_leaf h (by simp) (by simp) ▸ .bool value
    | num value => exact same_leaf h (by simp) (by simp) ▸ .num value
    | str value => exact same_leaf h (by simp) (by simp) ▸ .str value

/-! ## What is kept of a value -/

/-- **Redaction is noninterfering**: two values, of one realm or of two, that differ in nothing
but what they store under sensitive keys are bounded to the same data, with the same counts
of bytes, flags and reasons, or refused with the same error, at every limit. -/
theorem redaction_noninterference (N : Numerals ν) (W : Realm V ν) (W' : Realm V' ν)
    (R : V → V' → Prop) (h : AlikeRealms W W' R) (value : V) (value' : V')
    (hvalue : R value value') (bytesLimit : Int) :
    createBoundedAgentProviderData N W value bytesLimit =
      createBoundedAgentProviderData N W' value' bytesLimit := by
  have hsame : normalizeAgentProviderData W value = normalizeAgentProviderData W' value' :=
    normalized_alike h (AGENT_PROVIDER_DATA_DEPTH_LIMIT + 1) .nil hvalue
  rw [createBoundedAgentProviderData, createBoundedAgentProviderData, hsame]

/-- A long list and a word under one token: neither shows at the smallest limit. -/
theorem redaction_noninterference_token :
    createBoundedAgentProviderData wholeNumerals jsonRealm
        (.arr [.obj [(js "authToken", .arr [.num 1, .num 2, .arr []]), (js "id", .num 7)]]) 256 =
      createBoundedAgentProviderData wholeNumerals jsonRealm
        (.arr [.obj [(js "authToken", .str (js "x")), (js "id", .num 7)]]) 256 := by
  have hsecret : isSensitiveKey (js "authToken") = true := by decide
  refine redaction_noninterference wholeNumerals jsonRealm jsonRealm SameButSecrets
    sameButSecrets_alike _ _ ?_ 256
  simp [SameButSecrets, ItemsSameButSecrets, FieldsSameButSecrets, hsecret]

end Evidence

end AgentSdk
