import AgentSdk.Lib.Json
import Mathlib.Order.Lex
import Mathlib.Data.List.Lex

/-!
# The order of strings

Strings compare by code units.  The comparison is the lexicographic order of the
numbers of the units, which is linear.

## Main results

* `textLt_iff` — the comparison of the runtime is the lexicographic order.
* `Reordered.canonicalize` — canonical data does not depend on the order of members.
* `exists_of_canonicalize_eq` — equal canonical objects have the same members.
-/

namespace AgentSdk.Text

/-- The numbers of the code units of a string. -/
def rank (s : JsString) : List Nat := s.map UInt16.toNat

theorem rank_inj {s t : JsString} (h : rank s = rank t) : s = t :=
  List.map_injective_iff.2 (fun _ _ => UInt16.toNat_inj.1) h

/-- **The comparison of the runtime** is the lexicographic order. -/
theorem textLt_iff (s t : JsString) : Json.textLt s t = true ↔ rank s < rank t := by
  induction s generalizing t with
  | nil =>
    cases t with
    | nil | cons => simp [Json.textLt, rank]
  | cons u s ih =>
    cases t with
    | nil => simp [Json.textLt, rank]
    | cons v t =>
      simp only [Json.textLt, rank, List.map_cons, List.cons_lt_cons_iff]
      split
      · rename_i hlt
        simp [hlt]
      · rename_i hge
        split
        · rename_i hgt
          have hne : u.toNat ≠ v.toNat := by omega
          simp [hge, hne]
        · have heq : u.toNat = v.toNat := by omega
          simp only [heq, Nat.lt_irrefl, false_or, true_and]
          exact ih t

end AgentSdk.Text

/-! ## Members in any order -/

namespace AgentSdk.Json

open AgentSdk.Text

/-- Members with different keys may be inserted in either order. -/
theorem insertField_comm {a b : JsString × Json} (hne : a.1 ≠ b.1)
    (fields : List (JsString × Json)) :
    insertField a (insertField b fields) = insertField b (insertField a fields) := by
  have hrank : rank a.1 ≠ rank b.1 := fun h => hne (rank_inj h)
  have hab : textLt a.1 b.1 = true ↔ ¬textLt b.1 a.1 = true := by
    rw [textLt_iff, textLt_iff, not_lt]
    exact ⟨le_of_lt, fun h => lt_of_le_of_ne h hrank⟩
  have hpass : ∀ head : JsString × Json, textLt head.1 a.1 = true → ¬textLt head.1 b.1 = true →
      textLt b.1 a.1 = true := by
    intro head hlt hge
    rw [textLt_iff] at hlt hge ⊢
    exact lt_of_le_of_lt (not_lt.1 hge) hlt
  have hpass' : ∀ head : JsString × Json, textLt head.1 b.1 = true → ¬textLt head.1 a.1 = true →
      textLt a.1 b.1 = true := by
    intro head hlt hge
    rw [textLt_iff] at hlt hge ⊢
    exact lt_of_le_of_lt (not_lt.1 hge) hlt
  induction fields with
  | nil =>
    by_cases h : textLt b.1 a.1 = true
    · simp [insertField, h, hab]
    · simp [insertField, h, hab]
  | cons head rest ih =>
    by_cases ha : textLt head.1 a.1 = true
    · by_cases hb : textLt head.1 b.1 = true
      · simp [insertField, ha, hb, ih]
      · have hba := hpass head ha hb
        simp [insertField, ha, hb, hba]
    · by_cases hb : textLt head.1 b.1 = true
      · have hba := hab.1 (hpass' head hb ha)
        simp [insertField, ha, hb, hba, hab]
      · by_cases h : textLt b.1 a.1 = true
        · simp [insertField, ha, hb, h, hab]
        · simp [insertField, ha, hb, h, hab]

theorem sortFields_eq_of_perm {fields others : List (JsString × Json)}
    (hperm : fields.Perm others) (hkeys : (fields.map Prod.fst).Nodup) :
    sortFields fields = sortFields others := by
  induction hperm with
  | nil => rfl
  | cons field _ ih =>
    rw [List.map_cons, List.nodup_cons] at hkeys
    rw [sortFields, sortFields, ih hkeys.2]
  | swap a b rest =>
    simp only [List.map_cons, List.nodup_cons, List.mem_cons, not_or] at hkeys
    rw [sortFields, sortFields, sortFields, sortFields]
    exact insertField_comm hkeys.1.1 _
  | trans hleft _ ihl ihr =>
    rw [ihl hkeys]
    exact ihr ((hleft.map Prod.fst).nodup_iff.1 hkeys)

theorem sortFields_perm (fields : List (JsString × Json)) : (sortFields fields).Perm fields := by
  have hinsert : ∀ (field : JsString × Json) (rest : List (JsString × Json)),
      (insertField field rest).Perm (field :: rest) := by
    intro field rest
    induction rest with
    | nil => exact List.Perm.refl _
    | cons head rest ih =>
      unfold insertField
      split
      · exact (ih.cons head).trans (List.Perm.swap field head rest)
      · exact List.Perm.refl _
  induction fields with
  | nil => exact List.Perm.refl _
  | cons field rest ih => exact (hinsert field _).trans (ih.cons field)

theorem canonicalizeFields_eq (fields : List (JsString × Json)) :
    canonicalizeFields fields = fields.map fun field => (field.1, canonicalize field.2) := by
  induction fields with
  | nil => rw [canonicalizeFields, List.map_nil]
  | cons field rest ih => rw [canonicalizeFields, ih, List.map_cons]

theorem canonicalizeItems_eq (items : List Json) :
    canonicalizeItems items = items.map canonicalize := by
  induction items with
  | nil => rw [canonicalizeItems, List.map_nil]
  | cons item rest ih => rw [canonicalizeItems, ih, List.map_cons]

/-- Data that differ in the order of members, at any depth. -/
inductive Reordered : Json → Json → Prop
  | refl (value : Json) : Reordered value value
  | members {fields others : List (JsString × Json)} :
      (fields.map Prod.fst).Nodup → fields.Perm others → Reordered (.obj fields) (.obj others)
  | member {value other : Json} (before : List (JsString × Json)) (key : JsString)
      (behind : List (JsString × Json)) : Reordered value other →
      Reordered (.obj (before ++ (key, value) :: behind)) (.obj (before ++ (key, other) :: behind))
  | item {value other : Json} (before behind : List Json) : Reordered value other →
      Reordered (.arr (before ++ value :: behind)) (.arr (before ++ other :: behind))
  | trans {first second third : Json} : Reordered first second → Reordered second third →
      Reordered first third

/-- **Canonical data** does not depend on the order of members. -/
theorem Reordered.canonicalize {value other : Json} (h : Reordered value other) :
    value.canonicalize = other.canonicalize := by
  induction h with
  | refl => rfl
  | members hkeys hperm =>
    simp only [Json.canonicalize, canonicalizeFields_eq]
    rw [sortFields_eq_of_perm (hperm.map _)]
    rw [List.map_map]
    exact hkeys
  | member before key behind _ ih =>
    simp only [Json.canonicalize, canonicalizeFields_eq, List.map_append, List.map_cons, ih]
  | item before behind _ ih =>
    simp only [Json.canonicalize, canonicalizeItems_eq, List.map_append, List.map_cons, ih]
  | trans _ _ ihl ihr => exact ihl.trans ihr

/-- Equal canonical objects have the same members, up to the order inside their values. -/
theorem exists_of_canonicalize_eq {fields others : List (JsString × Json)}
    (h : canonicalize (.obj fields) = canonicalize (.obj others)) {key : JsString} {value : Json}
    (hmem : (key, value) ∈ fields) :
    ∃ other, (key, other) ∈ others ∧ value.canonicalize = other.canonicalize := by
  simp only [canonicalize, Json.obj.injEq, canonicalizeFields_eq] at h
  have hsorted : (key, value.canonicalize) ∈
      sortFields (fields.map fun field => (field.1, canonicalize field.2)) :=
    (sortFields_perm _).mem_iff.2 (List.mem_map.2 ⟨(key, value), hmem, rfl⟩)
  rw [h] at hsorted
  obtain ⟨⟨found, other⟩, hin, heq⟩ := List.mem_map.1 ((sortFields_perm _).mem_iff.1 hsorted)
  rw [Prod.mk.injEq] at heq
  obtain ⟨rfl, hvalue⟩ := heq
  exact ⟨other, hin, hvalue.symm⟩

end AgentSdk.Json
