import AgentSdk.Evidence.Bounded
import Mathlib.Algebra.Order.BigOperators.Group.List
import Mathlib.Algebra.Order.Ring.Nat

/-!
# What normalization returns

Normalized data have a form: no more than eight levels of collections, of a
hundred entries each, under distinct and portable keys.  The protocol's parser
takes data of this form that fit its byte limit, and so do the records that
stand for data over a limit.

## Main results

* `normalized_formed` — normalization returns data of the form.
* `parse_formed` — the parser takes them as they are.
* `createBounded_ok` — provider data are bounded at every limit.
-/

namespace AgentSdk

namespace Evidence

open AgentSdk.Text

variable {V ν : Type}

/-! ## The form -/

/-- Data with at most `room` levels of collections. -/
def Formed : (room : Nat) → JsonData ν → Prop
  | 0, .arr _ => False
  | 0, .obj _ => False
  | room + 1, .arr items =>
    items.length ≤ AGENT_PROVIDER_DATA_COLLECTION_LIMIT ∧ ∀ item ∈ items, Formed room item
  | room + 1, .obj fields =>
    fields.length ≤ AGENT_PROVIDER_DATA_COLLECTION_LIMIT ∧ (fields.map Prod.fst).Nodup ∧
      ∀ field ∈ fields, isPortableAgentProviderDataKey field.1 = true ∧ Formed room field.2
  | _, _ => True

theorem formed_str (room : Nat) (text : JsString) : Formed room (.str text : JsonData ν) := by
  cases room <;> trivial

theorem formed_null (room : Nat) : Formed room (.null : JsonData ν) := by
  cases room <;> trivial

theorem formed_marked (room : Nat) (text : JsString) :
    Formed room (marked (ν := ν) text).data := formed_str room text

/-! ## Attempts -/

theorem bind_ok {α β : Type} {x : Attempt α} {f : α → Attempt β} {b : β}
    (h : (x >>= f) = .ok b) : ∃ a, x = .ok a ∧ f a = .ok b := by
  cases x with
  | error e => cases h
  | ok a => exact ⟨a, rfl, h⟩

/-! ## Arrays -/

theorem normalizedElements_ok {next : V → NormalizedAgentProviderData ν} {seen : Inspection V}
    {indices : List Nat} {items : List (NormalizedAgentProviderData ν)}
    (h : normalizedElements next seen indices = .ok items) :
    List.Forall₂ (fun index item => ∃ descriptor,
      seen.read (.name (natDecimal index)) = .ok descriptor ∧
        item = normalizedElement next descriptor) indices items := by
  induction indices generalizing items with
  | nil =>
    cases h
    exact .nil
  | cons index rest ih =>
    obtain ⟨descriptor, hread, h⟩ := bind_ok h
    obtain ⟨others, hothers, h⟩ := bind_ok h
    cases h
    exact .cons ⟨descriptor, hread, rfl⟩ (ih hothers)

/-- What a normalized array is built from. -/
structure ArrayParts (next : V → NormalizedAgentProviderData ν) (seen : Inspection V)
    (normalized : NormalizedAgentProviderData ν) (limit length : Length)
    (keys : List PropertyKey) (foreign : Bool) (items : List (NormalizedAgentProviderData ν)) :
    Prop where
  limit_ok : seen.length .limit = .ok limit
  keys_ok : seen.ownKeys = .ok keys
  foreign_ok : anyForeignKey seen keys = .ok foreign
  length_ok : seen.length .loop = .ok length
  items_ok : List.Forall₂ (fun index item => ∃ descriptor,
    seen.read (.name (natDecimal index)) = .ok descriptor ∧
      item = normalizedElement next descriptor)
    (List.range (length.rounds AGENT_PROVIDER_DATA_COLLECTION_LIMIT)) items
  data_eq : normalized.data = .arr (items.map (·.data))
  flag_eq : normalized.structurallyTruncated =
    (limit.exceeds AGENT_PROVIDER_DATA_COLLECTION_LIMIT || foreign ||
      items.any (·.structurallyTruncated))

variable {normalized : NormalizedAgentProviderData ν} {room : Nat} {data : JsonData ν}
  {spell : ν → JsString}

theorem normalizedArray_ok {next : V → NormalizedAgentProviderData ν} {seen : Inspection V}
    (h : normalizedArray next seen = .ok normalized) :
    ∃ limit length keys foreign items,
      ArrayParts next seen normalized limit length keys foreign items := by
  obtain ⟨limit, hlimit, h⟩ := bind_ok h
  obtain ⟨keys, hkeys, h⟩ := bind_ok h
  obtain ⟨foreign, hforeign, h⟩ := bind_ok h
  obtain ⟨length, hlength, h⟩ := bind_ok h
  obtain ⟨items, hitems, h⟩ := bind_ok h
  cases h
  exact ⟨limit, length, keys, foreign, items, hlimit, hkeys, hforeign, hlength,
    normalizedElements_ok hitems, rfl, rfl⟩

theorem exists_of_forall₂_mem {α β : Type} {R : α → β → Prop} {xs : List α} {ys : List β}
    (h : List.Forall₂ R xs ys) {y : β} (hy : y ∈ ys) : ∃ x ∈ xs, R x y := by
  induction h with
  | nil => cases hy
  | @cons x z xs zs hhead _ ih =>
    rcases List.mem_cons.1 hy with heq | hin
    · exact ⟨x, List.mem_cons_self .., heq ▸ hhead⟩
    · obtain ⟨w, hw, hrel⟩ := ih hin
      exact ⟨w, List.mem_cons_of_mem x hw, hrel⟩

theorem rounds_le (length : Length) (count : Nat) : length.rounds count ≤ count := by
  cases length with
  | nan => exact Nat.zero_le count
  | indices n => exact Nat.min_le_right n count
  | endless => exact Nat.le_refl count

theorem normalizedElement_formed {next : V → NormalizedAgentProviderData ν}
    (hnext : ∀ v, Formed room (next v).data) (descriptor : Option (Descriptor V)) :
    Formed room (normalizedElement next descriptor).data := by
  cases descriptor with
  | none => exact formed_null room
  | some descriptor =>
    obtain ⟨enumerable, value⟩ := descriptor
    cases value with
    | none => exact formed_marked room _
    | some value => exact hnext value

theorem normalizedArray_formed {next : V → NormalizedAgentProviderData ν} {seen : Inspection V}
    (h : normalizedArray next seen = .ok normalized) (hnext : ∀ v, Formed room (next v).data) :
    Formed (room + 1) normalized.data := by
  obtain ⟨limit, length, keys, foreign, items, parts⟩ := normalizedArray_ok h
  rw [parts.data_eq]
  constructor
  · rw [List.length_map, ← parts.items_ok.length_eq, List.length_range]
    exact rounds_le length AGENT_PROVIDER_DATA_COLLECTION_LIMIT
  · intro data hdata
    obtain ⟨item, hitem, rfl⟩ := List.mem_map.1 hdata
    obtain ⟨index, -, descriptor, -, rfl⟩ := exists_of_forall₂_mem parts.items_ok hitem
    exact normalizedElement_formed hnext descriptor

/-! ## Objects -/

theorem normalizedMember_formed {next : V → NormalizedAgentProviderData ν}
    (hnext : ∀ v, Formed room (next v).data) (key : JsString) (descriptor : Descriptor V) :
    Formed room (normalizedMember next key descriptor).data := by
  obtain ⟨enumerable, value⟩ := descriptor
  unfold normalizedMember
  cases value with
  | none => exact formed_marked room _
  | some value =>
    by_cases h : isSensitiveKey key = true
    · simp only [h, if_true]
      exact formed_str room _
    · simp only [h, if_false, Bool.false_eq_true]
      exact hnext value

/-- The loop over the members, by its rounds. -/
inductive MemberRounds (next : V → NormalizedAgentProviderData ν) (seen : Inspection V)
    (preserved : List JsString) :
    (index : Nat) → (used : List JsString) → List JsString → List (JsString × JsonData ν) →
      Bool → Prop where
  | done (index : Nat) (used : List JsString) :
      MemberRounds next seen preserved index used [] [] false
  | gone {index : Nat} {used : List JsString} {key : JsString} {rest : List JsString}
      {fields : List (JsString × JsonData ν)} {flag : Bool}
      (hread : seen.read (.name key) = .ok none)
      (hrest : MemberRounds next seen preserved (index + 1) used rest fields flag) :
      MemberRounds next seen preserved index used (key :: rest) fields flag
  | written {index : Nat} {used : List JsString} {key : JsString} {rest : List JsString}
      {fields : List (JsString × JsonData ν)} {flag : Bool} (descriptor : Descriptor V)
      (hread : seen.read (.name key) = .ok (some descriptor))
      (hrest : MemberRounds next seen preserved (index + 1)
        ((normalizedObjectKey key index preserved used).key :: used) rest fields flag) :
      MemberRounds next seen preserved index used (key :: rest)
        (((normalizedObjectKey key index preserved used).key,
          (normalizedMember next key descriptor).data) :: fields)
        ((normalizedObjectKey key index preserved used).rewritten ||
          (normalizedMember next key descriptor).structurallyTruncated || flag)

theorem normalizedMembers_ok {next : V → NormalizedAgentProviderData ν} {seen : Inspection V}
    {preserved keys : List JsString} {index : Nat} {used : List JsString}
    {members : NormalizedMembers ν}
    (h : normalizedMembers next seen preserved index used keys = .ok members) :
    MemberRounds next seen preserved index used keys members.fields
      members.structurallyTruncated := by
  induction keys generalizing index used members with
  | nil =>
    cases h
    exact .done index used
  | cons key rest ih =>
    obtain ⟨read, hread, h⟩ := bind_ok h
    cases read with
    | none => exact .gone hread (ih h)
    | some descriptor =>
      obtain ⟨others, hothers, h⟩ := bind_ok h
      cases h
      exact .written descriptor hread (ih hothers)

section Rounds

variable {next : V → NormalizedAgentProviderData ν} {seen : Inspection V}
  {preserved : List JsString} {index : Nat} {used keys : List JsString}
  {fields : List (JsString × JsonData ν)} {flag : Bool}

theorem MemberRounds.length_le (h : MemberRounds next seen preserved index used keys fields flag) :
    fields.length ≤ keys.length := by
  induction h with
  | done _ _ => exact Nat.le_refl 0
  | gone _ _ ih => exact Nat.le_succ_of_le ih
  | written _ _ _ ih => exact Nat.succ_le_succ ih

/-- **The keys of a normalized object are distinct**, and none was used before. -/
theorem MemberRounds.nodup (h : MemberRounds next seen preserved index used keys fields flag) :
    (fields.map Prod.fst).Nodup ∧ ∀ field ∈ fields, field.1 ∉ used := by
  induction h with
  | done _ used => exact ⟨List.nodup_nil, by simp⟩
  | gone _ _ ih => exact ih
  | @written index used key _ fields _ descriptor _ _ ih =>
    obtain ⟨hnodup, hfree⟩ := ih
    constructor
    · rw [List.map_cons, List.nodup_cons]
      refine ⟨fun hin => ?_, hnodup⟩
      obtain ⟨field, hfield, heq⟩ := List.mem_map.1 hin
      exact hfree field hfield (heq ▸ List.mem_cons_self ..)
    · intro field hfield
      rcases List.mem_cons.1 hfield with heq | hin
      · exact heq ▸ normalizedObjectKey_free key index preserved used
      · exact fun hused => hfree field hin (List.mem_cons_of_mem _ hused)

/-- **The keys of a normalized object are portable**, as long as a hundred members are selected. -/
theorem MemberRounds.portable (h : MemberRounds next seen preserved index used keys fields flag)
    (hpreserved : preserved.length ≤ 100) (hused : used.length ≤ index)
    (hindex : index + keys.length ≤ 100) :
    ∀ field ∈ fields, isPortableAgentProviderDataKey field.1 = true := by
  induction h with
  | done index used => simp
  | gone _ _ ih =>
    simp only [List.length_cons] at hindex
    exact ih (by omega) (by omega)
  | @written index used key rest fields _ descriptor _ _ ih =>
    simp only [List.length_cons] at hindex
    intro field hfield
    rcases List.mem_cons.1 hfield with heq | hin
    · have hkeys : (preserved ++ used).length < 1000 := by
        rw [List.length_append]
        omega
      exact heq ▸ normalizedObjectKey_portable (by omega) hkeys
    · exact ih (by simp only [List.length_cons]; omega) (by omega) field hin

theorem MemberRounds.formed (h : MemberRounds next seen preserved index used keys fields flag)
    {room : Nat} (hnext : ∀ v, Formed room (next v).data) :
    ∀ field ∈ fields, Formed room field.2 := by
  induction h with
  | done _ _ => simp
  | gone _ _ ih => exact ih
  | @written index used key _ fields _ descriptor _ _ ih =>
    intro field hfield
    rcases List.mem_cons.1 hfield with heq | hin
    · exact heq ▸ normalizedMember_formed hnext key descriptor
    · exact ih field hin

end Rounds

/-- What a normalized object is built from. -/
structure RecordParts (next : V → NormalizedAgentProviderData ν) (seen : Inspection V)
    (normalized : NormalizedAgentProviderData ν) (keys enumerable : List PropertyKey)
    (fields : List (JsString × JsonData ν)) (flag : Bool) : Prop where
  keys_ok : seen.ownKeys = .ok keys
  enumerable_ok : enumerableKeys seen keys = .ok enumerable
  rounds : MemberRounds next seen
    ((selectedKeys enumerable).filter isPortableAgentProviderDataKey) 0 []
    (selectedKeys enumerable) fields flag
  data_eq : normalized.data = .obj fields
  flag_eq : normalized.structurallyTruncated = (enumerable.any (·.text?.isNone) ||
    decide (AGENT_PROVIDER_DATA_COLLECTION_LIMIT < enumerable.length) || flag)

theorem normalizedRecord_ok {next : V → NormalizedAgentProviderData ν} {seen : Inspection V}
    (h : normalizedRecord next seen = .ok normalized) :
    ∃ keys enumerable fields flag,
      RecordParts next seen normalized keys enumerable fields flag := by
  obtain ⟨keys, hkeys, h⟩ := bind_ok h
  obtain ⟨enumerable, henumerable, h⟩ := bind_ok h
  obtain ⟨members, hmembers, h⟩ := bind_ok h
  cases h
  exact ⟨keys, enumerable, members.fields, members.structurallyTruncated, hkeys, henumerable,
    normalizedMembers_ok hmembers, rfl, rfl⟩

theorem selectedKeys_length (enumerable : List PropertyKey) :
    (selectedKeys enumerable).length ≤ 100 := by
  rw [selectedKeys, List.length_take]
  exact Nat.min_le_left _ _

theorem selectedKeys_names {names : List JsString} (h : names.length ≤ 100) :
    selectedKeys (names.map PropertyKey.name) = names := by
  have htexts : (names.map PropertyKey.name).filterMap PropertyKey.text? = names := by
    induction names with
    | nil => rfl
    | cons name rest ih =>
      simp only [List.length_cons] at h
      simp only [List.map_cons, List.filterMap_cons, PropertyKey.text?, ih (by omega)]
  rw [selectedKeys, htexts]
  exact List.take_of_length_le h

theorem normalizedRecord_formed {next : V → NormalizedAgentProviderData ν} {seen : Inspection V}
    (h : normalizedRecord next seen = .ok normalized) (hnext : ∀ v, Formed room (next v).data) :
    Formed (room + 1) normalized.data := by
  obtain ⟨keys, enumerable, fields, flag, parts⟩ := normalizedRecord_ok h
  have hselected := selectedKeys_length enumerable
  have hpreserved :
      ((selectedKeys enumerable).filter isPortableAgentProviderDataKey).length ≤ 100 :=
    (List.length_filter_le _ _).trans hselected
  rw [parts.data_eq]
  refine ⟨parts.rounds.length_le.trans hselected, parts.rounds.nodup.1, fun field hfield => ?_⟩
  exact ⟨parts.rounds.portable hpreserved (Nat.le_refl 0) (by omega) field hfield,
    parts.rounds.formed hnext field hfield⟩

/-! ## The walk -/

/-- The ways in which an object is inspected to the end. -/
theorem normalizedObject_ok {next : V → NormalizedAgentProviderData ν} {seen : Inspection V}
    (h : normalizedObject next seen = .ok normalized) :
    (seen.isArray = .ok true ∧ normalizedArray next seen = .ok normalized) ∨
      (seen.isArray = .ok false ∧ seen.prototype = .ok .plain ∧
        normalizedRecord next seen = .ok normalized) ∨
      ∃ text, normalized = marked text := by
  obtain ⟨isArray, harray, h⟩ := bind_ok h
  cases isArray with
  | true => exact .inl ⟨harray, h⟩
  | false =>
    obtain ⟨prototype, hprototype, h⟩ := bind_ok h
    cases prototype with
    | plain => exact .inr (.inl ⟨harray, hprototype, h⟩)
    | other name =>
      obtain ⟨text, -, h⟩ := bind_ok h
      cases h
      exact .inr (.inr ⟨_, rfl⟩)

/-- Values that are JSON data as they stand. -/
inductive Leaf : Value V ν → JsonData ν → Prop where
  | null : Leaf .null .null
  | bool (value : Bool) : Leaf (.bool value) (.bool value)
  | num (value : ν) : Leaf (.num value) (.num value)
  | str (value : JsString) : Leaf (.str value) (.str value)

/-- What the walk does with a value: it marks it, keeps it or inspects it. -/
theorem walk_cases (W : Realm V ν) (room : Nat) (ancestors : List V) (value : V) :
    (∃ text, normalizedProviderValue W (room + 1) ancestors value = marked text) ∨
      (∃ data, Leaf (W.inspect value) data ∧
        normalizedProviderValue W (room + 1) ancestors value = kept data) ∨
      ∃ seen, W.inspect value = .object seen ∧ ancestors.any (W.same value) = false ∧
        normalizedObject (normalizedProviderValue W room (value :: ancestors)) seen =
          .ok (normalizedProviderValue W (room + 1) ancestors value) := by
  rw [normalizedProviderValue]
  generalize W.inspect value = inspected
  cases inspected with
  | null => exact .inr (.inl ⟨.null, .null, rfl⟩)
  | bool value => exact .inr (.inl ⟨.bool value, .bool value, rfl⟩)
  | num value => exact .inr (.inl ⟨.num value, .num value, rfl⟩)
  | nonFinite | foreign => exact .inl ⟨_, rfl⟩
  | str value => exact .inr (.inl ⟨.str value, .str value, rfl⟩)
  | object seen =>
    by_cases hcircular : ancestors.any (W.same value) = true
    · exact .inl ⟨_, by simp only [hcircular, if_true]; rfl⟩
    · simp only [hcircular, Bool.false_eq_true, if_false]
      cases hobject :
        normalizedObject (normalizedProviderValue W room (value :: ancestors)) seen with
      | error e => exact .inl ⟨_, rfl⟩
      | ok normalized =>
        exact .inr (.inr ⟨seen, rfl, trivial, hobject⟩)

theorem formed_leaf {value : Value V ν} (h : Leaf value data) (room : Nat) : Formed room data := by
  cases h <;> cases room <;> trivial

/-- **Normalization returns data of the form.** -/
theorem normalized_formed (W : Realm V ν) (room : Nat) (ancestors : List V) (value : V) :
    Formed room (normalizedProviderValue W room ancestors value).data := by
  induction room generalizing ancestors value with
  | zero => exact formed_marked 0 _
  | succ room ih =>
    rcases walk_cases W room ancestors value with ⟨text, htext⟩ | ⟨data, hleaf, hdata⟩ |
      ⟨seen, -, -, hobject⟩
    · rw [htext]
      exact formed_marked (room + 1) text
    · rw [hdata]
      exact formed_leaf hleaf (room + 1)
    · rcases normalizedObject_ok hobject with ⟨-, harray⟩ | ⟨-, -, hrecord⟩ | ⟨text, htext⟩
      · exact normalizedArray_formed harray (ih (value :: ancestors))
      · exact normalizedRecord_formed hrecord (ih (value :: ancestors))
      · rw [htext]
        exact formed_marked (room + 1) text

/-! ## The parser -/

theorem itemsPassPreflight_iff (depth : Nat) (items : List (JsonData ν)) :
    itemsPassPreflight depth items = true ↔
      ∀ item ∈ items, passesProtocolInputPreflight depth item = true := by
  induction items with
  | nil => simp [itemsPassPreflight]
  | cons item rest ih => simp [itemsPassPreflight, ih]

theorem fieldsPassPreflight_iff (depth : Nat) (fields : List (JsString × JsonData ν)) :
    fieldsPassPreflight depth fields = true ↔ ∀ field ∈ fields,
      isObjectKey field.1 = true ∧ passesProtocolInputPreflight depth field.2 = true := by
  induction fields with
  | nil => simp [fieldsPassPreflight]
  | cons field rest ih => simp [fieldsPassPreflight, ih, and_assoc]

theorem itemsPortable_iff (items : List (JsonData ν)) :
    itemsPortable items = true ↔ ∀ item ∈ items, isPortableJsonValue item = true := by
  induction items with
  | nil => simp [itemsPortable]
  | cons item rest ih => simp [itemsPortable, ih]

theorem fieldsPortable_iff (fields : List (JsString × JsonData ν)) :
    fieldsPortable fields = true ↔ ∀ field ∈ fields,
      isJsonObjectKey field.1 = true ∧ isPortableJsonValue field.2 = true := by
  induction fields with
  | nil => simp [fieldsPortable]
  | cons field rest ih => simp [fieldsPortable, ih, and_assoc]

/-- The portable keys are those that the protocol takes. -/
theorem isJsonObjectKey_of_portable {key : JsString}
    (h : isPortableAgentProviderDataKey key = true) :
    isObjectKey key = true ∧ isJsonObjectKey key = true := by
  obtain ⟨hpos, hlength, hname⟩ := (isPortable_iff key).1 h
  have hobject : isObjectKey key = true := by simpa [isObjectKey] using hname
  simp only [isJsonObjectKey, hobject, Bool.and_true, Bool.and_eq_true, decide_eq_true_eq]
  exact ⟨trivial, hpos, hlength⟩

theorem preflight_formed {depth : Nat} (h : Formed room data)
    (hdepth : depth + room ≤ AGENT_PROTOCOL_JSON_DEPTH_LIMIT) :
    passesProtocolInputPreflight depth data = true := by
  induction room generalizing depth data with
  | zero => cases data <;> first | exact h.elim | simpa [passesProtocolInputPreflight] using hdepth
  | succ room ih =>
    have hlevel : depth ≤ AGENT_PROTOCOL_JSON_DEPTH_LIMIT := by omega
    have hbelow : depth + 1 + room ≤ AGENT_PROTOCOL_JSON_DEPTH_LIMIT := by omega
    cases data with
    | arr items =>
      simp only [passesProtocolInputPreflight, Bool.and_eq_true, decide_eq_true_eq,
        itemsPassPreflight_iff]
      exact ⟨⟨hlevel, h.1⟩, fun item hitem => ih (h.2 item hitem) hbelow⟩
    | obj fields =>
      simp only [passesProtocolInputPreflight, Bool.and_eq_true, decide_eq_true_eq,
        fieldsPassPreflight_iff]
      refine ⟨⟨hlevel, h.1⟩, fun field hfield => ?_⟩
      obtain ⟨hkey, hvalue⟩ := h.2.2 field hfield
      exact ⟨(isJsonObjectKey_of_portable hkey).1, ih hvalue hbelow⟩
    | null | bool _ | num _ | str _ => simpa [passesProtocolInputPreflight] using hlevel

theorem item_bytes_le {items : List (JsonData ν)} {item : JsonData ν} (h : item ∈ items) :
    item.bytes spell ≤ (JsonData.arr items).bytes spell := by
  have hsum := List.le_sum_of_mem (List.mem_map.2 ⟨item, h, rfl⟩ :
    item.bytes spell ∈ items.map (JsonData.bytes spell))
  simp only [JsonData.bytes, JsonData.itemsBytes_eq]
  omega

theorem field_bytes_le {fields : List (JsString × JsonData ν)} {field : JsString × JsonData ν}
    (h : field ∈ fields) : field.2.bytes spell ≤ (JsonData.obj fields).bytes spell := by
  have hsum := List.le_sum_of_mem (List.mem_map.2 ⟨field, h, rfl⟩ :
    Json.quoteBytes field.1 + 1 + field.2.bytes spell ∈
      fields.map fun field => Json.quoteBytes field.1 + 1 + field.2.bytes spell)
  simp only [JsonData.bytes, JsonData.fieldsBytes_eq]
  omega

theorem portable_formed (h : Formed room data)
    (hbytes : data.bytes spell ≤ AGENT_PROTOCOL_JSON_BYTES_LIMIT) :
    isPortableJsonValue data = true := by
  have hstr : ∀ text : JsString,
      (JsonData.str text : JsonData ν).bytes spell ≤ AGENT_PROTOCOL_JSON_BYTES_LIMIT →
        isPortableJsonValue (.str text : JsonData ν) = true := by
    intro text htext
    have hlength := Json.length_le_escapeBytes text
    simp only [JsonData.bytes, Json.quoteBytes] at htext
    simp only [isPortableJsonValue, decide_eq_true_eq]
    omega
  induction room generalizing data with
  | zero =>
    cases data with
    | arr | obj => exact h.elim
    | str text => exact hstr text hbytes
    | null | bool _ | num _ => rfl
  | succ room ih =>
    cases data with
    | arr items =>
      simp only [isPortableJsonValue, Bool.and_eq_true, decide_eq_true_eq, itemsPortable_iff]
      exact ⟨h.1, fun item hitem => ih (h.2 item hitem) ((item_bytes_le hitem).trans hbytes)⟩
    | obj fields =>
      simp only [isPortableJsonValue, fieldsPortable_iff]
      intro field hfield
      obtain ⟨hkey, hvalue⟩ := h.2.2 field hfield
      exact ⟨(isJsonObjectKey_of_portable hkey).2,
        ih hvalue ((field_bytes_le hfield).trans hbytes)⟩
    | str text => exact hstr text hbytes
    | null | bool _ | num _ => rfl

/-- **The parser takes data of the form that fit its byte limit**, as they are. -/
theorem parse_formed (N : Numerals ν) (h : Formed room data)
    (hroom : room ≤ AGENT_PROTOCOL_JSON_DEPTH_LIMIT)
    (hbytes : serializedAgentJsonValueBytes N data ≤ AGENT_PROTOCOL_JSON_BYTES_LIMIT) :
    parseAgentJsonValue N data = .ok data := by
  have hpreflight : passesProtocolInputPreflight 0 data = true :=
    preflight_formed h (by omega)
  have hportable : isPortableJsonValue data = true := portable_formed h hbytes
  rw [parseAgentJsonValue, hpreflight, hportable, serialized_bytes]
  simp [hbytes]

theorem parse_eq (N : Numerals ν) {parsed : JsonData ν}
    (h : parseAgentJsonValue N data = .ok parsed) : parsed = data := by
  unfold parseAgentJsonValue at h
  split at h
  · exact (Except.ok.inj h).symm
  · cases h

theorem parse_bytes (N : Numerals ν) {parsed : JsonData ν}
    (h : parseAgentJsonValue N data = .ok parsed) :
    serializedAgentJsonValueBytes N data ≤ AGENT_PROTOCOL_JSON_BYTES_LIMIT := by
  unfold parseAgentJsonValue at h
  split at h
  next hchecks =>
    rw [Bool.and_eq_true, decide_eq_true_eq, serialized_bytes] at hchecks
    exact hchecks.2
  · cases h

/-! ## The record in the place of data over the limit -/

theorem record_formed (N : Numerals ν) (reason : TruncationReason) (original : Option Nat)
    (room : Nat) : Formed (room + 1) (truncatedRecord N reason original) := by
  have hkeys : ([js "truncated", js "reason", js "originalDataBytes"] : List JsString).Nodup := by
    decide
  have hportable : ∀ key ∈ [js "truncated", js "reason", js "originalDataBytes"],
      isPortableAgentProviderDataKey key = true := by decide
  have hleaves : Formed room (.bool true : JsonData ν) ∧
      Formed room (.str reason.text : JsonData ν) ∧
      Formed room (original.elim .null fun bytes => .num (N.count bytes) : JsonData ν) := by
    cases original <;> cases room <;> exact ⟨trivial, trivial, trivial⟩
  refine ⟨by simp [AGENT_PROVIDER_DATA_COLLECTION_LIMIT], hkeys, fun field hfield => ?_⟩
  simp only [List.mem_cons, List.not_mem_nil, or_false] at hfield
  rcases hfield with rfl | rfl | rfl
  · exact ⟨hportable _ (by simp), hleaves.1⟩
  · exact ⟨hportable _ (by simp), hleaves.2.1⟩
  · exact ⟨hportable _ (by simp), hleaves.2.2⟩

/-- The record fits the smallest limit there is. -/
theorem record_bytes (N : Numerals ν) (reason : TruncationReason) (original : Option Nat) :
    serializedAgentJsonValueBytes N (truncatedRecord N reason original) ≤ 256 := by
  have htruncated : Json.quoteBytes (js "truncated") = 11 := by decide
  have hreason : Json.quoteBytes (js "reason") = 8 := by decide
  have horiginal : Json.quoteBytes (js "originalDataBytes") = 19 := by decide
  have htext : Json.quoteBytes reason.text ≤ 37 := by cases reason <;> decide
  have hcount :
      (original.elim .null fun bytes => .num (N.count bytes) : JsonData ν).bytes N.spell ≤ 25 := by
    cases original with
    | none => simp [JsonData.bytes]
    | some bytes => exact N.spell_short (N.count bytes)
  simp only [serializedAgentJsonValueBytes, truncatedRecord, JsonData.bytes, JsonData.fieldsBytes,
    List.length_cons, List.length_nil, htruncated, hreason, horiginal, if_true]
  omega

theorem parse_record (N : Numerals ν) (reason : TruncationReason) (original : Option Nat) :
    parseAgentJsonValue N (truncatedRecord N reason original) =
      .ok (truncatedRecord N reason original) := by
  have hbytes := record_bytes N reason original
  refine parse_formed N (record_formed N reason original 0) ?_ ?_
  · simp [AGENT_PROTOCOL_JSON_DEPTH_LIMIT]
  · simp only [AGENT_PROTOCOL_JSON_BYTES_LIMIT]
    omega

/-! ## Bounded data -/

/-- What becomes of normalized data at a limit. -/
inductive Outcome (N : Numerals ν) (limit : Nat) (normalized : NormalizedAgentProviderData ν) :
    BoundedAgentProviderData ν → Prop where
  | whole (hfits : serializedAgentJsonValueBytes N normalized.data ≤ limit)
      (hflag : normalized.structurallyTruncated = false) :
      Outcome N limit normalized
        { data := normalized.data
          dataBytes := serializedAgentJsonValueBytes N normalized.data
          originalDataBytes := some (serializedAgentJsonValueBytes N normalized.data)
          truncated := false
          truncationReason := none
          redacted := true }
  | cut (hfits : serializedAgentJsonValueBytes N normalized.data ≤ limit)
      (hflag : normalized.structurallyTruncated = true) :
      Outcome N limit normalized
        { data := normalized.data
          dataBytes := serializedAgentJsonValueBytes N normalized.data
          originalDataBytes := none
          truncated := true
          truncationReason := some .structural_limit_exceeded
          redacted := true }
  | large (hlarge : limit < serializedAgentJsonValueBytes N normalized.data)
      (hflag : normalized.structurallyTruncated = false) :
      Outcome N limit normalized
        { data := truncatedRecord N .byte_limit_exceeded
            (some (serializedAgentJsonValueBytes N normalized.data))
          dataBytes := agentProtocolSerializedJsonBytes N (truncatedRecord N .byte_limit_exceeded
            (some (serializedAgentJsonValueBytes N normalized.data)))
          originalDataBytes := some (serializedAgentJsonValueBytes N normalized.data)
          truncated := true
          truncationReason := some .byte_limit_exceeded
          redacted := true }
  | cutAndLarge (hlarge : limit < serializedAgentJsonValueBytes N normalized.data)
      (hflag : normalized.structurallyTruncated = true) :
      Outcome N limit normalized
        { data := truncatedRecord N .byte_and_structural_limits_exceeded none
          dataBytes := agentProtocolSerializedJsonBytes N
            (truncatedRecord N .byte_and_structural_limits_exceeded none)
          originalDataBytes := none
          truncated := true
          truncationReason := some .byte_and_structural_limits_exceeded
          redacted := true }

theorem boundedData_ok (N : Numerals ν) {limit : Nat}
    (hform : Formed (AGENT_PROVIDER_DATA_DEPTH_LIMIT + 1) normalized.data)
    (hlimit : limit ≤ AGENT_PROVIDER_DATA_BYTES_LIMIT_MAX) :
    ∃ bounded, boundedData N limit normalized = .ok bounded ∧
      Outcome N limit normalized bounded := by
  unfold boundedData
  by_cases hfits : serializedAgentJsonValueBytes N normalized.data ≤ limit
  · have hparse : parseAgentJsonValue N normalized.data = .ok normalized.data :=
      parse_formed N hform (by decide) (hfits.trans hlimit)
    rw [if_pos hfits, hparse]
    cases hflag : normalized.structurallyTruncated with
    | true => exact ⟨_, rfl, .cut hfits hflag⟩
    | false => exact ⟨_, rfl, .whole hfits hflag⟩
  · have hlarge := Nat.lt_of_not_le hfits
    rw [if_neg hfits, parse_record, parse_record]
    cases hflag : normalized.structurallyTruncated with
    | true => exact ⟨_, rfl, .cutAndLarge hlarge hflag⟩
    | false => exact ⟨_, rfl, .large hlarge hflag⟩

/-- **Provider data are bounded at every limit**, whatever they are. -/
theorem createBounded_ok (N : Numerals ν) (W : Realm V ν) (value : V) {bytesLimit : Int}
    (hlow : 256 ≤ bytesLimit) (hhigh : bytesLimit ≤ AGENT_PROVIDER_DATA_BYTES_LIMIT_MAX) :
    ∃ bounded, createBoundedAgentProviderData N W value bytesLimit = .ok bounded ∧
      Outcome N bytesLimit.toNat (normalizeAgentProviderData W value) bounded := by
  have hvalid : validatedBytesLimit bytesLimit = .ok bytesLimit.toNat := by
    rw [validatedBytesLimit, if_neg (by omega)]
  have hform : Formed (AGENT_PROVIDER_DATA_DEPTH_LIMIT + 1)
      (normalizeAgentProviderData W value).data := normalized_formed W _ [] value
  have hmax : bytesLimit.toNat ≤ AGENT_PROVIDER_DATA_BYTES_LIMIT_MAX := by omega
  obtain ⟨bounded, hbounded, houtcome⟩ := boundedData_ok N hform hmax
  refine ⟨bounded, ?_, houtcome⟩
  rw [createBoundedAgentProviderData, hvalid]
  exact hbounded

/-- What is kept has the size that is counted, and fits the limit. -/
theorem Outcome.bytes {N : Numerals ν} {limit : Nat} {bounded : BoundedAgentProviderData ν}
    (h : Outcome N limit normalized bounded) (hlimit : 256 ≤ limit) :
    bounded.dataBytes = agentProtocolSerializedJsonBytes N bounded.data ∧
      bounded.dataBytes ≤ limit := by
  have hrecord : ∀ reason original,
      agentProtocolSerializedJsonBytes N (truncatedRecord N reason original) ≤ limit := by
    intro reason original
    rw [serialized_bytes]
    exact (record_bytes N reason original).trans hlimit
  cases h with
  | whole hfits hflag | cut hfits hflag => exact ⟨(serialized_bytes N normalized.data).symm, hfits⟩
  | large | cutAndLarge => exact ⟨rfl, hrecord _ _⟩

end Evidence

end AgentSdk
