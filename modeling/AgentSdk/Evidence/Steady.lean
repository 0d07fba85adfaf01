import AgentSdk.Evidence.Form

/-!
# Normalizing twice

Data of the form that holds the replacement under every sensitive key, and the
depth marker in place of everything below the depth limit, is steady: it is
normalized to itself.  Normalization leaves steady data unless an accessor sits
under a sensitive key, or a hole, an accessor or a member under a rewritten
sensitive key sits right below the depth limit.  A value without these is
settled.

## Main results

* `renormalized` — steady data are normalized to themselves.
* `normalized_steady` — a settled value is normalized to steady data.
-/

namespace AgentSdk

namespace Evidence

open AgentSdk.Text

variable {V ν : Type}

/-! ## Steady data -/

def Steady : (room : Nat) → JsonData ν → Prop
  | 0, data => data = .str (js "[MaxDepth]")
  | room + 1, .arr items => ∀ item ∈ items, Steady room item
  | room + 1, .obj fields => ∀ field ∈ fields,
      (isSensitiveKey field.1 = true → field.2 = .str AGENT_PROVIDER_DATA_REDACTION_REPLACEMENT) ∧
        (isSensitiveKey field.1 = false → Steady room field.2)
  | _ + 1, _ => True

/-! ### Arrays -/

variable {index room : Nat} {fields : List (JsString × JsonData ν)} {seen : Inspection V}
  {next : V → NormalizedAgentProviderData ν} {below : V → Prop}

theorem arrayIndex_natDecimal (h : index < 9007199254740992) :
    arrayIndex (.name (natDecimal index)) = some index := by
  have hread : readRadix 10 (natDecimal index) = index :=
    readRadix_radix (by omega) (by omega) index
  simp only [arrayIndex, hread, h, and_self, if_true]

theorem elementAt_index {items : List (JsonData ν)} (hin : index < items.length)
    (hlength : items.length ≤ 100) :
    elementAt items (.name (natDecimal index)) =
      some { enumerable := true, value := some items[index] } := by
  simp only [elementAt, arrayIndex_natDecimal (show index < 9007199254740992 by omega),
    List.getElem?_eq_getElem hin, Option.map_some]

theorem isForeignKey_data (items : List (JsonData ν)) (key : PropertyKey) :
    ∃ foreign, isForeignKey (arraySeen items) key = .ok foreign := by
  unfold isForeignKey
  simp only [arraySeen, bind, Except.bind]
  cases elementAt items key with
  | none => exact ⟨false, rfl⟩
  | some descriptor =>
    simp only
    by_cases h : descriptor.enumerable = true
    · rw [if_pos h]
      cases arrayIndex key with
      | none => exact ⟨true, rfl⟩
      | some index => exact ⟨_, rfl⟩
    · rw [if_neg h]
      exact ⟨false, rfl⟩

theorem anyForeignKey_data (items : List (JsonData ν)) (keys : List PropertyKey) :
    ∃ foreign, anyForeignKey (arraySeen items) keys = .ok foreign := by
  induction keys with
  | nil => exact ⟨false, rfl⟩
  | cons key rest ih =>
    obtain ⟨foreign, hforeign⟩ := isForeignKey_data items key
    obtain ⟨others, hothers⟩ := ih
    exact ⟨foreign || others, by rw [anyForeignKey, hforeign, hothers]; rfl⟩

theorem normalizedElements_data (next : JsonData ν → NormalizedAgentProviderData ν)
    (items : List (JsonData ν)) (indices : List Nat) :
    normalizedElements next (arraySeen items) indices = .ok (indices.map fun index =>
      normalizedElement next (elementAt items (.name (natDecimal index)))) := by
  induction indices with
  | nil => rfl
  | cons index rest ih =>
    rw [normalizedElements, ih]
    rfl

theorem normalizedArray_data (next : JsonData ν → NormalizedAgentProviderData ν)
    {items : List (JsonData ν)} (hlength : items.length ≤ 100)
    (hnext : ∀ item ∈ items, (next item).data = item) :
    ∃ normalized, normalizedArray next (arraySeen items) = .ok normalized ∧
      normalized.data = .arr items := by
  obtain ⟨foreign, hforeign⟩ := anyForeignKey_data items (arrayKeys items.length)
  have hrounds : (Length.indices items.length).rounds AGENT_PROVIDER_DATA_COLLECTION_LIMIT =
      items.length := Nat.min_eq_left hlength
  have hitems : ((List.range items.length).map fun index => normalizedElement next
      (elementAt items (.name (natDecimal index)))).map (·.data) = items := by
    refine List.ext_getElem (by simp) fun index hleft hright => ?_
    simp only [List.getElem_map, List.getElem_range, elementAt_index hright hlength]
    exact hnext items[index] (List.getElem_mem hright)
  have hlength : ∀ read, (arraySeen items).length read = .ok (.indices items.length) :=
    fun _ => rfl
  have hkeys : (arraySeen items).ownKeys = .ok (arrayKeys items.length) := rfl
  let elements := (List.range items.length).map fun index =>
    normalizedElement next (elementAt items (.name (natDecimal index)))
  refine ⟨{ data := .arr (elements.map (·.data))
            structurallyTruncated :=
              (Length.indices items.length).exceeds AGENT_PROVIDER_DATA_COLLECTION_LIMIT ||
                foreign || elements.any (·.structurallyTruncated) },
    ?_, congrArg JsonData.arr hitems⟩
  simp only [normalizedArray, hlength, hkeys, hforeign, hrounds, normalizedElements_data, bind,
    Except.bind]
  rfl

/-! ### Objects -/

theorem lookup_of_mem (hkeys : (fields.map Prod.fst).Nodup) {field : JsString × JsonData ν}
    (h : field ∈ fields) : fields.lookup field.1 = some field.2 := by
  induction fields with
  | nil => cases h
  | cons head rest ih =>
    rw [List.map_cons, List.nodup_cons] at hkeys
    obtain ⟨key, value⟩ := head
    rcases List.mem_cons.1 h with heq | hin
    · simp [heq]
    · have hother : field.1 ≠ key := fun heq =>
        hkeys.1 (List.mem_map.2 ⟨field, hin, heq⟩)
      have hskip : (field.1 == key) = false := by simpa using hother
      rw [List.lookup_cons, hskip]
      exact ih hkeys.2 hin

theorem read_of_mem (hkeys : (fields.map Prod.fst).Nodup) {field : JsString × JsonData ν}
    (h : field ∈ fields) :
    (objectSeen fields).read (.name field.1) =
      .ok (some { enumerable := true, value := some field.2 }) := by
  simp only [objectSeen, memberAt, lookup_of_mem hkeys h, Option.map_some]

theorem enumerableKeys_data {rest : List (JsString × JsonData ν)}
    (hkeys : (fields.map Prod.fst).Nodup) (hsub : ∀ field ∈ rest, field ∈ fields) :
    enumerableKeys (objectSeen fields) ((rest.map Prod.fst).map PropertyKey.name) =
      .ok ((rest.map Prod.fst).map PropertyKey.name) := by
  induction rest with
  | nil => rfl
  | cons field rest ih =>
    have hrest := ih fun other hother => hsub other (List.mem_cons_of_mem field hother)
    have hread : (objectSeen fields).enumerated (.name field.1) =
        .ok (some { enumerable := true, value := some field.2 }) :=
      read_of_mem hkeys (hsub field (List.mem_cons_self ..))
    simp only [List.map_cons, enumerableKeys, hread, hrest, bind, Except.bind]
    rfl

/-- Members whose keys are portable and fresh are written as they are. -/
theorem normalizedMembers_data (next : JsonData ν → NormalizedAgentProviderData ν)
    (hkeys : (fields.map Prod.fst).Nodup) (preserved : List JsString)
    {rest : List (JsString × JsonData ν)} {used : List JsString}
    (hsub : ∀ field ∈ rest, field ∈ fields) (hrest : (rest.map Prod.fst).Nodup)
    (hfree : ∀ field ∈ rest, field.1 ∉ used)
    (hportable : ∀ field ∈ rest, isPortableAgentProviderDataKey field.1 = true)
    (hsame : ∀ field ∈ rest, (normalizedMember next field.1
      { enumerable := true, value := some field.2 }).data = field.2) :
    ∃ members, normalizedMembers next (objectSeen fields) preserved index used
        (rest.map Prod.fst) = .ok members ∧ members.fields = rest := by
  induction rest generalizing index used with
  | nil => exact ⟨_, rfl, rfl⟩
  | cons field rest ih =>
    rw [List.map_cons, List.nodup_cons] at hrest
    have hin : field ∈ field :: rest := List.mem_cons_self ..
    have hread := read_of_mem hkeys (hsub field hin)
    have hkept : normalizedObjectKey field.1 index preserved used =
        { key := field.1, rewritten := false } := by
      rw [normalizedObjectKey, if_pos]
      simpa [hportable field hin] using hfree field hin
    have hafter : ∀ other ∈ rest, other.1 ∉ field.1 :: used := by
      intro other hother hused
      rcases List.mem_cons.1 hused with heq | h
      · exact hrest.1 (List.mem_map.2 ⟨other, hother, heq⟩)
      · exact hfree other (List.mem_cons_of_mem field hother) h
    let value := normalizedMember next field.1 { enumerable := true, value := some field.2 }
    obtain ⟨members, hmembers, hfields⟩ : ∃ members, normalizedMembers next (objectSeen fields)
        preserved (index + 1) (field.1 :: used) (rest.map Prod.fst) = .ok members ∧
          members.fields = rest := ih
      (fun other h => hsub other (List.mem_cons_of_mem field h)) hrest.2 hafter
      (fun other h => hportable other (List.mem_cons_of_mem field h))
      (fun other h => hsame other (List.mem_cons_of_mem field h))
    refine ⟨{ fields := (field.1, value.data) :: members.fields
              structurallyTruncated := false || value.structurallyTruncated ||
                members.structurallyTruncated }, ?_, ?_⟩
    · simp only [List.map_cons, normalizedMembers, hread, hkept, hmembers, bind, Except.bind]
      rfl
    · simp only [value, hfields, hsame field hin]

theorem normalizedRecord_data (next : JsonData ν → NormalizedAgentProviderData ν)
    (hlength : fields.length ≤ 100) (hkeys : (fields.map Prod.fst).Nodup)
    (hportable : ∀ field ∈ fields, isPortableAgentProviderDataKey field.1 = true)
    (hsame : ∀ field ∈ fields, (normalizedMember next field.1
      { enumerable := true, value := some field.2 }).data = field.2) :
    ∃ normalized, normalizedRecord next (objectSeen fields) = .ok normalized ∧
      normalized.data = .obj fields := by
  have hown : (objectSeen fields).ownKeys = .ok ((fields.map Prod.fst).map PropertyKey.name) := by
    simp only [objectSeen, objectKeys, hkeys.dedup]
  have henumerable := enumerableKeys_data hkeys fun field (h : field ∈ fields) => h
  have hselected : selectedKeys ((fields.map Prod.fst).map PropertyKey.name) =
      fields.map Prod.fst := selectedKeys_names (by rw [List.length_map]; exact hlength)
  obtain ⟨members, hmembers, hfields⟩ : ∃ members, normalizedMembers next (objectSeen fields)
      ((fields.map Prod.fst).filter isPortableAgentProviderDataKey) 0 [] (fields.map Prod.fst) =
        .ok members ∧ members.fields = fields :=
    normalizedMembers_data next hkeys _ (fun field h => h) hkeys
      (fun field _ => List.not_mem_nil) hportable hsame
  let keys := (fields.map Prod.fst).map PropertyKey.name
  refine ⟨{ data := .obj members.fields
            structurallyTruncated := keys.any (·.text?.isNone) ||
              decide (AGENT_PROVIDER_DATA_COLLECTION_LIMIT < keys.length) ||
              members.structurallyTruncated },
    ?_, congrArg JsonData.obj hfields⟩
  simp only [normalizedRecord, hown, henumerable, hselected, hmembers, bind, Except.bind]
  rfl

/-! ### The second walk -/

theorem walk_object (W : Realm V ν) {ancestors : List V} {value : V}
    {normalized : NormalizedAgentProviderData ν} (hinspect : W.inspect value = .object seen)
    (hfresh : ancestors.any (W.same value) = false)
    (hobject : normalizedObject (normalizedProviderValue W room (value :: ancestors)) seen =
      .ok normalized) : normalizedProviderValue W (room + 1) ancestors value = normalized := by
  rw [normalizedProviderValue, hinspect]
  simp only [hfresh, hobject, Bool.false_eq_true, if_false]

/-- **Steady data of the form are normalized to themselves.** -/
theorem renormalized {ancestors : List (JsonData ν)} {data : JsonData ν}
    (hform : Formed room data) (hsteady : Steady room data) :
    (normalizedProviderValue jsonRealm room ancestors data).data = data := by
  induction room generalizing ancestors data with
  | zero => exact hsteady.symm
  | succ room ih =>
    have hfresh : ancestors.any ((jsonRealm (ν := ν)).same data) = false :=
      List.any_eq_false.2 fun _ _ => Bool.false_ne_true
    cases data with
    | null | bool _ | num _ | str _ => rfl
    | arr items =>
      obtain ⟨normalized, hnormalized, hdata⟩ := normalizedArray_data
        (normalizedProviderValue jsonRealm room (.arr items :: ancestors)) hform.1
        fun item hitem => ih (hform.2 item hitem) (hsteady item hitem)
      have hobject : normalizedObject
          (normalizedProviderValue jsonRealm room (.arr items :: ancestors))
          (arraySeen items) = .ok normalized := hnormalized
      rw [walk_object jsonRealm rfl hfresh hobject, hdata]
    | obj fields =>
      obtain ⟨hlength, hkeys, hfields⟩ := hform
      have hsame : ∀ field ∈ fields, (normalizedMember
          (normalizedProviderValue jsonRealm room (.obj fields :: ancestors)) field.1
          { enumerable := true, value := some field.2 }).data = field.2 := by
        intro field hfield
        obtain ⟨hsecret, hshown⟩ := hsteady field hfield
        unfold normalizedMember
        by_cases h : isSensitiveKey field.1 = true
        · simp only [h, if_true]
          exact (hsecret h).symm
        · simp only [h, if_false, Bool.false_eq_true]
          exact ih (hfields field hfield).2 (hshown (Bool.eq_false_iff.2 h))
      obtain ⟨normalized, hnormalized, hdata⟩ := normalizedRecord_data
        (normalizedProviderValue jsonRealm room (.obj fields :: ancestors)) hlength hkeys
        (fun field hfield => (hfields field hfield).1) hsame
      have hobject : normalizedObject
          (normalizedProviderValue jsonRealm room (.obj fields :: ancestors))
          (objectSeen fields) = .ok normalized := hnormalized
      rw [walk_object jsonRealm rfl hfresh hobject, hdata]

/-! ## Settled values -/

/-- An element that a second walk leaves as it is: below the depth limit, a hole and an accessor
are not. -/
def SettledElement (room : Nat) (below : V → Prop) : Attempt (Option (Descriptor V)) → Prop
  | .ok none => room ≠ 0
  | .ok (some { value := none, .. }) => room ≠ 0
  | .ok (some { value := some value, .. }) => below value
  | .error _ => True

/-- A member that a second walk leaves as it is: an accessor under a sensitive key that is kept is
not, and below the depth limit neither is any accessor or a member under a rewritten sensitive
key. -/
def SettledMember (room : Nat) (below : V → Prop) (key : JsString) :
    Attempt (Option (Descriptor V)) → Prop
  | .ok none => True
  | .ok (some { value := none, .. }) =>
    room ≠ 0 ∧ (isSensitiveKey key = true → isPortableAgentProviderDataKey key = false)
  | .ok (some { value := some value, .. }) =>
    (isSensitiveKey key = true → room ≠ 0 ∨ isPortableAgentProviderDataKey key = true) ∧
      (isSensitiveKey key = false → below value)
  | .error _ => True

/-- A value whose properties are all left as they are by a second walk. -/
def Settled (W : Realm V ν) : (room : Nat) → (ancestors : List V) → V → Prop
  | 0, _, _ => True
  | room + 1, ancestors, value =>
    ∀ seen, W.inspect value = .object seen → ancestors.any (W.same value) = false →
      (seen.isArray = .ok true → ∀ length, seen.length .loop = .ok length →
        ∀ index < length.rounds AGENT_PROVIDER_DATA_COLLECTION_LIMIT,
          SettledElement room (Settled W room (value :: ancestors))
            (seen.read (.name (natDecimal index)))) ∧
      (seen.isArray = .ok false → seen.prototype = .ok .plain →
        ∀ keys enumerable, seen.ownKeys = .ok keys → enumerableKeys seen keys = .ok enumerable →
          ∀ key ∈ selectedKeys enumerable,
            SettledMember room (Settled W room (value :: ancestors)) key (seen.read (.name key)))

theorem steady_of_ne_zero (h : room ≠ 0) (text : JsString) :
    Steady room (.str text : JsonData ν) ∧ Steady room (.null : JsonData ν) := by
  cases room with
  | zero => exact absurd rfl h
  | succ room => exact ⟨trivial, trivial⟩

theorem settledElement_steady (hnext : ∀ v, below v → Steady room (next v).data)
    {descriptor : Option (Descriptor V)} (h : SettledElement room below (.ok descriptor)) :
    Steady room (normalizedElement next descriptor).data := by
  cases descriptor with
  | none => exact (steady_of_ne_zero h []).2
  | some descriptor =>
    obtain ⟨enumerable, value⟩ := descriptor
    cases value with
    | none => exact (steady_of_ne_zero h _).1
    | some value => exact hnext value h

theorem enumerableKeys_sublist {keys enumerable : List PropertyKey}
    (h : enumerableKeys seen keys = .ok enumerable) : enumerable.Sublist keys := by
  induction keys generalizing enumerable with
  | nil =>
    cases h
    exact .slnil
  | cons key rest ih =>
    obtain ⟨descriptor, -, h⟩ := bind_ok h
    obtain ⟨others, hothers, h⟩ := bind_ok h
    cases h
    by_cases hkey : descriptor.any (·.enumerable) = true
    · rw [if_pos hkey]
      exact (ih hothers).cons_cons key
    · rw [if_neg hkey]
      exact (ih hothers).cons key

theorem selectedKeys_nodup {enumerable : List PropertyKey} (h : enumerable.Nodup) :
    (selectedKeys enumerable).Nodup := by
  refine (List.Nodup.filterMap ?_ h).sublist (List.take_sublist _ _)
  intro a b text ha hb
  cases a with
  | symbol id => cases ha
  | name a =>
    cases b with
    | symbol id => cases hb
    | name b =>
      cases ha
      cases hb
      rfl

/-- A portable key that is not used yet is kept; any other key is rewritten out of the way of the
portable ones. -/
theorem normalizedObjectKey_cases (key : JsString) (index : Nat) (preserved used : List JsString) :
    (isPortableAgentProviderDataKey key = true ∧ key ∉ used ∧
        (normalizedObjectKey key index preserved used).key = key) ∨
      ((isPortableAgentProviderDataKey key = true → key ∈ used) ∧
        isSensitiveKey (normalizedObjectKey key index preserved used).key = false ∧
        (normalizedObjectKey key index preserved used).key ∉ preserved) := by
  by_cases hkept : (isPortableAgentProviderDataKey key && !used.contains key) = true
  · simp only [normalizedObjectKey, hkept, if_true]
    simp only [Bool.and_eq_true, Bool.not_eq_true', List.contains_eq_mem,
      decide_eq_false_iff_not] at hkept
    exact .inl ⟨hkept.1, hkept.2, trivial⟩
  · have hrewritten : (normalizedObjectKey key index preserved used).rewritten = true := by
      rw [normalizedObjectKey, if_neg hkept]
    have hfree := firstFree_not_mem (candidate_injective index)
      (Nat.le_refl (preserved ++ used).length)
    refine .inr ⟨fun hportable => ?_, normalizedObjectKey_not_sensitive hrewritten, ?_⟩
    · simpa [hportable] using hkept
    · rw [normalizedObjectKey, if_neg hkept]
      exact fun hin => hfree (List.mem_append_left used hin)

theorem settledMember_steady (hnext : ∀ v, below v → Steady room (next v).data) {key : JsString}
    {descriptor : Descriptor V} (h : SettledMember room below key (.ok (some descriptor)))
    {written : JsString}
    (hwritten : isPortableAgentProviderDataKey key = true ∧ written = key ∨
      isPortableAgentProviderDataKey key = false ∧ isSensitiveKey written = false) :
    (isSensitiveKey written = true → (normalizedMember next key descriptor).data =
        .str AGENT_PROVIDER_DATA_REDACTION_REPLACEMENT) ∧
      (isSensitiveKey written = false →
        Steady room (normalizedMember next key descriptor).data) := by
  obtain ⟨enumerable, value⟩ := descriptor
  cases value with
  | none =>
    obtain ⟨hroom, hsecret⟩ := h
    constructor
    · intro hsensitive
      rcases hwritten with ⟨hportable, heq⟩ | ⟨-, hshown⟩
      · rw [heq] at hsensitive
        exact absurd hportable (by rw [hsecret hsensitive]; exact Bool.false_ne_true)
      · exact absurd hsensitive (by rw [hshown]; exact Bool.false_ne_true)
    · intro _
      exact (steady_of_ne_zero hroom _).1
  | some value =>
    obtain ⟨hsecret, hshown⟩ := h
    simp only [normalizedMember]
    by_cases hsensitive : isSensitiveKey key = true
    · rw [if_pos hsensitive]
      refine ⟨fun _ => rfl, fun hplain => ?_⟩
      rcases hwritten with ⟨-, heq⟩ | ⟨hportable, -⟩
      · rw [heq, hsensitive] at hplain
        cases hplain
      · have hroom : room ≠ 0 := (hsecret hsensitive).resolve_right (by
          rw [hportable]
          exact Bool.false_ne_true)
        exact (steady_of_ne_zero hroom _).1
    · rw [if_neg hsensitive]
      have hplain := Bool.eq_false_iff.2 hsensitive
      refine ⟨fun hfound => ?_, fun _ => hnext value (hshown hplain)⟩
      rcases hwritten with ⟨-, heq⟩ | ⟨-, hother⟩
      · exact absurd (heq ▸ hfound) hsensitive
      · rw [hother] at hfound
        cases hfound

theorem MemberRounds.steady {preserved : List JsString} {used keys : List JsString} {flag : Bool}
    (h : MemberRounds next seen preserved index used keys fields flag)
    (hnext : ∀ v, below v → Steady room (next v).data) (hnodup : keys.Nodup)
    (hpreserved : ∀ key ∈ keys, isPortableAgentProviderDataKey key = true → key ∈ preserved)
    (hunused : ∀ key ∈ keys, isPortableAgentProviderDataKey key = true → key ∉ used)
    (hsettled : ∀ key ∈ keys, SettledMember room below key (seen.read (.name key))) :
    ∀ field ∈ fields,
      (isSensitiveKey field.1 = true →
          field.2 = .str AGENT_PROVIDER_DATA_REDACTION_REPLACEMENT) ∧
        (isSensitiveKey field.1 = false → Steady room field.2) := by
  induction h with
  | done _ used => simp
  | gone _ _ ih =>
    rw [List.nodup_cons] at hnodup
    exact ih hnodup.2 (fun key h => hpreserved key (List.mem_cons_of_mem _ h))
      (fun key h => hunused key (List.mem_cons_of_mem _ h))
      (fun key h => hsettled key (List.mem_cons_of_mem _ h))
  | @written index used key rest fields _ descriptor hread _ ih =>
    rw [List.nodup_cons] at hnodup
    have hin : key ∈ key :: rest := List.mem_cons_self ..
    have hplace := normalizedObjectKey_cases key index preserved used
    have hafter : ∀ other ∈ rest, isPortableAgentProviderDataKey other = true →
        other ∉ (normalizedObjectKey key index preserved used).key :: used := by
      intro other hother hportable hused
      cases List.mem_cons.1 hused with
      | inr h => exact hunused other (List.mem_cons_of_mem key hother) hportable h
      | inl heq =>
        rcases hplace with ⟨-, -, hkey⟩ | ⟨-, -, hfree⟩
        · exact hnodup.1 (hkey ▸ heq ▸ hother)
        · exact hfree (heq ▸ hpreserved other (List.mem_cons_of_mem key hother) hportable)
    have hothers := ih hnodup.2 (fun key h => hpreserved key (List.mem_cons_of_mem _ h)) hafter
      (fun key h => hsettled key (List.mem_cons_of_mem _ h))
    intro field hfield
    cases List.mem_cons.1 hfield with
    | inr h => exact hothers field h
    | inl heq =>
      have hmember := hsettled key hin
      rw [hread] at hmember
      rw [heq]
      refine settledMember_steady hnext hmember ?_
      rcases hplace with ⟨hportable, -, hkey⟩ | ⟨hclash, hshown, -⟩
      · exact .inl ⟨hportable, hkey⟩
      · refine .inr ⟨Bool.eq_false_iff.2 fun hportable => ?_, hshown⟩
        exact hunused key hin hportable (hclash hportable)

theorem steady_leaf {value : Value V ν} {data : JsonData ν} (h : Leaf value data) (room : Nat) :
    Steady (room + 1) data := by
  cases h <;> trivial

/-- **A settled value is normalized to steady data.** -/
theorem normalized_steady (W : Realm V ν) {ancestors : List V} {value : V}
    (h : Settled W room ancestors value) :
    Steady room (normalizedProviderValue W room ancestors value).data := by
  induction room generalizing ancestors value with
  | zero => rfl
  | succ room ih =>
    rcases walk_cases W room ancestors value with ⟨text, htext⟩ | ⟨data, hleaf, hdata⟩ |
      ⟨seen, hinspect, hfresh, hobject⟩
    · rw [htext]
      trivial
    · rw [hdata]
      exact steady_leaf hleaf room
    · obtain ⟨harrays, hrecords⟩ := h seen hinspect hfresh
      rcases normalizedObject_ok hobject with ⟨hkind, harray⟩ | ⟨hkind, hplain, hrecord⟩ |
        ⟨text, htext⟩
      · obtain ⟨limit, length, keys, foreign, items, parts⟩ := normalizedArray_ok harray
        rw [parts.data_eq]
        intro data hdata
        obtain ⟨item, hitem, rfl⟩ := List.mem_map.1 hdata
        obtain ⟨index, hindex, descriptor, hread, rfl⟩ :=
          exists_of_forall₂_mem parts.items_ok hitem
        have helement := harrays hkind length parts.length_ok index (List.mem_range.1 hindex)
        rw [hread] at helement
        exact settledElement_steady (fun v hv => ih hv) helement
      · obtain ⟨keys, enumerable, fields, flag, parts⟩ := normalizedRecord_ok hrecord
        have hnodup : (selectedKeys enumerable).Nodup :=
          selectedKeys_nodup ((seen.ownKeys_nodup keys parts.keys_ok).sublist
            (enumerableKeys_sublist parts.enumerable_ok))
        rw [parts.data_eq]
        exact parts.rounds.steady (fun v hv => ih hv) hnodup
          (fun key hkey hportable => List.mem_filter.2 ⟨hkey, hportable⟩)
          (fun key _ _ => List.not_mem_nil)
          (hrecords hkind hplain keys enumerable parts.keys_ok parts.enumerable_ok)
      · rw [htext]
        trivial

end Evidence

end AgentSdk
