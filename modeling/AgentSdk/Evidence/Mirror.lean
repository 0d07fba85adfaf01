import AgentSdk.Evidence.Form

/-!
# Data that mirror a value

Data mirror a value when every leaf is the value's own, every array has the
elements of the value's array and every object its enumerable members, in their
order and under their keys, down to the values under sensitive keys, which the
replacement stands for.  Whether `null` may stand for a hole is a parameter.

## Main results

* `normalized_mirrors` — data that are not flagged mirror the value, holes apart.
-/

namespace AgentSdk

namespace Evidence

open AgentSdk.Text

variable {V ν : Type}

/-! ## Mirrors -/

/-- An element of an array, or `null` for a hole where holes are allowed. -/
def MirrorsElement (holes : Bool) (below : V → JsonData ν → Prop)
    (read : Attempt (Option (Descriptor V))) (data : JsonData ν) : Prop :=
  (holes = true ∧ read = .ok none ∧ data = .null) ∨
    ∃ enumerable value, read = .ok (some { enumerable := enumerable, value := some value }) ∧
      below value data

/-- An array of at most a hundred elements and no other enumerable properties. -/
structure MirrorsArray (holes : Bool) (below : V → JsonData ν → Prop) (seen : Inspection V)
    (data : JsonData ν) : Prop where
  isArray : seen.isArray = .ok true
  limit : ∃ length, seen.length .limit = .ok length ∧
    length.exceeds AGENT_PROVIDER_DATA_COLLECTION_LIMIT = false
  keys : ∃ keys, seen.ownKeys = .ok keys ∧ ∀ key ∈ keys, isForeignKey seen key = .ok false
  items : ∃ length items, seen.length .loop = .ok length ∧ data = .arr items ∧
    List.Forall₂ (fun index item =>
      MirrorsElement holes below (seen.read (.name (natDecimal index))) item)
      (List.range (length.rounds AGENT_PROVIDER_DATA_COLLECTION_LIMIT)) items

/-- The members under the given keys, but for those that have gone. -/
def MirrorsMembers (below : V → JsonData ν → Prop) (seen : Inspection V) :
    List JsString → List (JsString × JsonData ν) → Prop
  | [], fields => fields = []
  | key :: rest, fields =>
    (seen.read (.name key) = .ok none ∧ MirrorsMembers below seen rest fields) ∨
      ∃ enumerable value data others,
        seen.read (.name key) = .ok (some { enumerable := enumerable, value := some value }) ∧
          fields = (key, data) :: others ∧
          (isSensitiveKey key = true → data = .str AGENT_PROVIDER_DATA_REDACTION_REPLACEMENT) ∧
          (isSensitiveKey key = false → below value data) ∧
          MirrorsMembers below seen rest others

/-- A plain object of at most a hundred enumerable members, all under strings. -/
structure MirrorsRecord (below : V → JsonData ν → Prop) (seen : Inspection V)
    (data : JsonData ν) : Prop where
  isArray : seen.isArray = .ok false
  prototype : seen.prototype = .ok .plain
  members : ∃ keys names fields, seen.ownKeys = .ok keys ∧
    enumerableKeys seen keys = .ok (names.map PropertyKey.name) ∧
    names.length ≤ AGENT_PROVIDER_DATA_COLLECTION_LIMIT ∧ data = .obj fields ∧
    MirrorsMembers below seen names fields

def Mirrors (holes : Bool) (W : Realm V ν) : (room : Nat) → V → JsonData ν → Prop
  | 0, _, _ => False
  | room + 1, value, data =>
    Leaf (W.inspect value) data ∨ ∃ seen, W.inspect value = .object seen ∧
      (MirrorsArray holes (Mirrors holes W room) seen data ∨
        MirrorsRecord (Mirrors holes W room) seen data)

/-! ## Data without a flag -/

section Flags

variable {next : V → NormalizedAgentProviderData ν} {below : V → JsonData ν → Prop}
  {seen : Inspection V}

theorem not_foreign {keys : List PropertyKey} (h : anyForeignKey seen keys = .ok false) :
    ∀ key ∈ keys, isForeignKey seen key = .ok false := by
  induction keys with
  | nil => simp
  | cons key rest ih =>
    obtain ⟨foreign, hforeign, h⟩ := bind_ok h
    obtain ⟨others, hothers, h⟩ := bind_ok h
    have hnone : (foreign || others) = false := Except.ok.inj h
    rw [Bool.or_eq_false_iff] at hnone
    intro other hother
    rcases List.mem_cons.1 hother with heq | hin
    · rw [heq, hforeign, hnone.1]
    · exact ih (hothers.trans (congrArg Except.ok hnone.2)) other hin

theorem mirrorsElement (hnext : ∀ v, (next v).structurallyTruncated = false →
      below v (next v).data) {descriptor : Option (Descriptor V)}
    {read : Attempt (Option (Descriptor V))} (hread : read = .ok descriptor)
    (hflag : (normalizedElement next descriptor).structurallyTruncated = false) :
    MirrorsElement true below read (normalizedElement next descriptor).data := by
  cases descriptor with
  | none => exact .inl ⟨rfl, hread, rfl⟩
  | some descriptor =>
    obtain ⟨enumerable, value⟩ := descriptor
    cases value with
    | none => cases hflag
    | some value => exact .inr ⟨enumerable, value, hread, hnext value hflag⟩

theorem mirrorsElements (hnext : ∀ v, (next v).structurallyTruncated = false →
      below v (next v).data) {indices : List Nat} {items : List (NormalizedAgentProviderData ν)}
    (hall : List.Forall₂ (fun index item => ∃ descriptor,
      seen.read (.name (natDecimal index)) = .ok descriptor ∧
        item = normalizedElement next descriptor) indices items)
    (hflags : ∀ item ∈ items, ¬item.structurallyTruncated = true) :
    List.Forall₂ (fun index item =>
      MirrorsElement true below (seen.read (.name (natDecimal index))) item) indices
      (items.map (·.data)) := by
  induction hall with
  | nil => exact .nil
  | cons hhead _ ih =>
    obtain ⟨descriptor, hread, rfl⟩ := hhead
    have hhere := Bool.eq_false_iff.2 (hflags _ (List.mem_cons_self ..))
    exact .cons (mirrorsElement hnext hread hhere)
      (ih fun item hitem => hflags item (List.mem_cons_of_mem _ hitem))

theorem mirrorsArray (hkind : seen.isArray = .ok true)
    (hnext : ∀ v, (next v).structurallyTruncated = false → below v (next v).data)
    {normalized : NormalizedAgentProviderData ν} (h : normalizedArray next seen = .ok normalized)
    (hflag : normalized.structurallyTruncated = false) :
    MirrorsArray true below seen normalized.data := by
  obtain ⟨limit, length, keys, foreign, items, parts⟩ := normalizedArray_ok h
  have hparts := parts.flag_eq.symm.trans hflag
  rw [Bool.or_eq_false_iff, Bool.or_eq_false_iff, List.any_eq_false] at hparts
  obtain ⟨⟨hlimit, hforeign⟩, hitems⟩ := hparts
  exact
    { isArray := hkind
      limit := ⟨limit, parts.limit_ok, hlimit⟩
      keys := ⟨keys, parts.keys_ok, not_foreign (hforeign ▸ parts.foreign_ok)⟩
      items := ⟨length, items.map (·.data), parts.length_ok, parts.data_eq,
        mirrorsElements hnext parts.items_ok hitems⟩ }

theorem mirrorsMembers (hnext : ∀ v, (next v).structurallyTruncated = false →
      below v (next v).data) {preserved : List JsString} {index : Nat} {used keys : List JsString}
    {fields : List (JsString × JsonData ν)} {flag : Bool}
    (h : MemberRounds next seen preserved index used keys fields flag) (hflag : flag = false) :
    MirrorsMembers below seen keys fields := by
  induction h with
  | done _ _ => rfl
  | gone hread _ ih => exact .inl ⟨hread, ih hflag⟩
  | @written index used key rest fields flag descriptor hread _ ih =>
    rw [Bool.or_eq_false_iff, Bool.or_eq_false_iff] at hflag
    obtain ⟨⟨hkept, hvalue⟩, hothers⟩ := hflag
    obtain ⟨enumerable, value⟩ := descriptor
    cases value with
    | none => cases hvalue
    | some value =>
      refine .inr ⟨enumerable, value, _, fields, hread,
        by rw [normalizedObjectKey_kept hkept], fun hsecret => ?_, fun hshown => ?_,
        ih hothers⟩
      · simp only [normalizedMember, hsecret, if_true, kept]
      · simp only [normalizedMember, hshown, Bool.false_eq_true, if_false] at hvalue ⊢
        exact hnext value hvalue

/-- Without symbols among them, the keys are names. -/
theorem exists_names {keys : List PropertyKey} (h : keys.any (·.text?.isNone) = false) :
    ∃ names : List JsString, keys = names.map PropertyKey.name := by
  induction keys with
  | nil => exact ⟨[], rfl⟩
  | cons key rest ih =>
    rw [List.any_cons, Bool.or_eq_false_iff] at h
    obtain ⟨names, hnames⟩ := ih h.2
    cases key with
    | symbol id => exact absurd h.1 (by simp [PropertyKey.text?])
    | name text => exact ⟨text :: names, by rw [hnames, List.map_cons]⟩

theorem mirrorsRecord (hkind : seen.isArray = .ok false) (hplain : seen.prototype = .ok .plain)
    (hnext : ∀ v, (next v).structurallyTruncated = false → below v (next v).data)
    {normalized : NormalizedAgentProviderData ν} (h : normalizedRecord next seen = .ok normalized)
    (hflag : normalized.structurallyTruncated = false) :
    MirrorsRecord below seen normalized.data := by
  obtain ⟨keys, enumerable, fields, flag, parts⟩ := normalizedRecord_ok h
  have hparts := parts.flag_eq.symm.trans hflag
  rw [Bool.or_eq_false_iff, Bool.or_eq_false_iff, decide_eq_false_iff_not] at hparts
  obtain ⟨⟨hsymbols, hcount⟩, hmembers⟩ := hparts
  obtain ⟨names, rfl⟩ := exists_names hsymbols
  rw [List.length_map] at hcount
  have hselected : selectedKeys (names.map PropertyKey.name) = names :=
    selectedKeys_names (Nat.le_of_not_lt hcount)
  have hrounds := parts.rounds
  rw [hselected] at hrounds
  exact
    { isArray := hkind
      prototype := hplain
      members := ⟨keys, names, fields, parts.keys_ok, parts.enumerable_ok,
        Nat.le_of_not_lt hcount, parts.data_eq, mirrorsMembers hnext hrounds hmembers⟩ }

end Flags

/-- **Data that are not flagged mirror the value**, with `null` in its holes. -/
theorem normalized_mirrors (W : Realm V ν) {room : Nat} {ancestors : List V} {value : V}
    (h : (normalizedProviderValue W room ancestors value).structurallyTruncated = false) :
    Mirrors true W room value (normalizedProviderValue W room ancestors value).data := by
  induction room generalizing ancestors value with
  | zero => cases h
  | succ room ih =>
    rcases walk_cases W room ancestors value with ⟨text, htext⟩ | ⟨data, hleaf, hdata⟩ |
      ⟨seen, hinspect, -, hobject⟩
    · rw [htext] at h
      cases h
    · rw [hdata]
      exact .inl hleaf
    · refine .inr ⟨seen, hinspect, ?_⟩
      rcases normalizedObject_ok hobject with ⟨hkind, harray⟩ | ⟨hkind, hplain, hrecord⟩ |
        ⟨text, htext⟩
      · exact .inl (mirrorsArray hkind (fun v hv => ih hv) harray h)
      · exact .inr (mirrorsRecord hkind hplain (fun v hv => ih hv) hrecord h)
      · rw [htext] at h
        cases h

end Evidence

end AgentSdk
