import Mathlib.Algebra.Order.BigOperators.Group.List
import Mathlib.Data.List.Perm.Subperm
import AgentSdk.Output.Snapshot

/-!
# Minimum sizes of structured output

Schema admission refuses a schema whose smallest value would not fit the limits.
The bound it computes is never above what a value of the schema measures, so a
schema with a value that fits is not refused for its size.

The induction is on the schema.  In an object every property is found in a member
of its own, because an admitted schema names each property once.

## Main results

* `node_named`, `node_root` — what an admitted schema looks like.
* `minimumValueSize_le` — the bound, schema by schema.
* `minimum_value_size` — the bound for admitted schemas, and what admission keeps.
-/

namespace AgentSdk.Output

open AgentSdk.Text

variable {ν : Type} {N : Numbers ν}

/-! ## Names -/

mutual

/-- Every object of a schema names its properties once. -/
def Named : SchemaNode ν → Prop
  | .nullable first second _ => Named first ∧ Named second
  | .object properties _ => (properties.map Prod.fst).Nodup ∧ NamedAll properties
  | .array items _ _ _ => Named items
  | .string _ _ | .number _ _ | .boolean _ | .null _ => True

def NamedAll : List (JsString × SchemaNode ν) → Prop
  | [] => True
  | (_, child) :: rest => Named child ∧ NamedAll rest

end

variable {properties : List (JsString × SchemaNode ν)} {path : Path}

theorem requiredNames_ok {properties : Fields ν} {required : List (JsonData ν)}
    {names result : List JsString} (h : requiredNames properties path names required = .ok result)
    (hnodup : names.Nodup) (hsubset : names ⊆ properties.map Prod.fst) :
    result.Nodup ∧ result ⊆ properties.map Prod.fst := by
  induction names, required using requiredNames.induct properties with
  | case1 names =>
    cases h
    exact ⟨hnodup, hsubset⟩
  | case2 names candidate rest hrefused =>
    rw [requiredNames, if_pos hrefused] at h
    cases h
  | case3 names candidate rest hnew ih =>
    rw [requiredNames, if_neg hnew] at h
    rw [not_or] at hnew
    refine ih h ?_ ?_
    · refine List.nodup_append.2 ⟨hnodup, List.nodup_singleton candidate, ?_⟩
      intro name hname other hother heq
      rw [List.mem_singleton.1 hother] at heq
      exact hnew.1 (heq ▸ hname)
    · intro name hname
      rcases List.mem_append.1 hname with hold | hcandidate
      · exact hsubset hold
      · rw [List.mem_singleton.1 hcandidate]
        cases hlookup : properties.lookup candidate with
        | none => exact absurd (by simp [hlookup]) hnew.2
        | some value =>
          obtain ⟨before, after, hsplit, -⟩ := List.lookup_eq_some_iff.1 hlookup
          simp [hsplit]
  | case4 names value rest hother =>
    rw [requiredNames.eq_3 _ _ _ _ _ hother] at h
    cases h

/-- Required keys that name every property leave no name twice. -/
theorem properties_nodup {properties : Fields ν} {required : List (JsonData ν)}
    {names : List JsString} (h : requiredNames properties path [] required = .ok names)
    (hlength : names.length = properties.length) : (properties.map Prod.fst).Nodup := by
  obtain ⟨hnodup, hsubset⟩ := requiredNames_ok h List.nodup_nil (List.nil_subset _)
  have hperm := (List.subperm_of_subset hnodup hsubset).perm_of_length_le (by simp [hlength])
  exact hperm.nodup_iff.1 hnodup

/-! ## Admitted nodes -/

section Nodes

variable {child : Nat → JsonData ν → Path → Admit (SchemaNode ν × Nat)}

variable {path : Path} {nodes : Nat} {source : Fields ν} {described : Option JsString}
  {result : SchemaNode ν × Nat}

theorem propertyNodes_ok
    (hchild : ∀ {nodes value path result}, child nodes value path = .ok result → Named result.1)
    {properties : Fields ν} {parsed : List (JsString × SchemaNode ν) × Nat}
    (h : propertyNodes child path nodes properties = .ok parsed) :
    parsed.1.map Prod.fst = properties.map Prod.fst ∧ NamedAll parsed.1 := by
  induction properties generalizing nodes parsed with
  | nil =>
    cases h
    exact ⟨rfl, trivial⟩
  | cons property rest ih =>
    obtain ⟨first, hfirst, hothers⟩ := bind_ok h
    obtain ⟨others, hrest, hparsed⟩ := bind_ok hothers
    cases hparsed
    obtain ⟨hnames, hall⟩ := ih hrest
    exact ⟨by simp [hnames], hchild hfirst, hall⟩

theorem objectNode_ok
    (hchild : ∀ {nodes value path result}, child nodes value path = .ok result → Named result.1)
    {dialect : List JsString}
    (h : objectNode child source nodes path dialect described = .ok result) :
    Named result.1 ∧ isObjectSchema result.1 = true := by
  obtain ⟨_, _, hsource⟩ := bind_ok h
  obtain ⟨properties, _, hclosed⟩ := bind_ok hsource
  split at hclosed
  next required _ _ =>
    obtain ⟨names, hnames, hparse⟩ := bind_ok hclosed
    split at hparse
    · cases hparse
    next hlength =>
      obtain ⟨parsed, hparsed, hresult⟩ := bind_ok hparse
      cases hresult
      obtain ⟨hsame, hall⟩ := propertyNodes_ok hchild hparsed
      refine ⟨⟨?_, hall⟩, rfl⟩
      rw [hsame]
      exact properties_nodup hnames (by simpa using hlength)
  · cases hclosed

theorem arrayNode_ok
    (hchild : ∀ {nodes value path result}, child nodes value path = .ok result → Named result.1)
    (h : arrayNode N child source nodes path described = .ok result) : Named result.1 := by
  have ⟨_, _, hsource⟩ := bind_ok h
  have ⟨minItems, _, hmin⟩ := bind_ok hsource
  have ⟨maxItems, _, hmax⟩ := bind_ok hmin
  have ⟨_, _, hordered⟩ := bind_ok hmax
  split at hordered
  · cases hordered
  · split at hordered
    · cases hordered
    next item _ =>
      have ⟨items, hitems, hresult⟩ := bind_ok hordered
      cases hresult
      have hnamed := hchild hitems
      exact hnamed

theorem stringNode_ok (h : stringNode N source nodes path described = .ok result) :
    Named result.1 := by
  have ⟨_, _, hsource⟩ := bind_ok h
  have ⟨_, _, hmin⟩ := bind_ok hsource
  have ⟨_, _, hmax⟩ := bind_ok hmin
  have ⟨_, _, hordered⟩ := bind_ok hmax
  have ⟨_, _, hresult⟩ := bind_ok hordered
  cases hresult
  trivial

theorem numberNode_ok {integer : Bool}
    (h : numberNode N source integer nodes path described = .ok result) : Named result.1 := by
  have ⟨_, _, hsource⟩ := bind_ok h
  have ⟨_, _, hmin⟩ := bind_ok hsource
  have ⟨_, _, hmax⟩ := bind_ok hmin
  have ⟨_, _, hordered⟩ := bind_ok hmax
  split at hordered
  · split at hordered
    · cases hordered
      trivial
    · cases hordered
  · cases hordered
    trivial

theorem typedNode_ok
    (hchild : ∀ {nodes value path result}, child nodes value path = .ok result → Named result.1)
    {root : Bool} (h : typedNode N child source nodes path root described = .ok result) :
    Named result.1 ∧ (root = true → isObjectSchema result.1 = true) := by
  unfold typedNode at h
  split at h
  next type _ =>
    by_cases hroot : root = true ∧ type ≠ js "object"
    · rw [if_pos hroot] at h
      cases h
    · rw [if_neg hroot] at h
      by_cases hdialect : root = true ∧
          typedNode.foreignDialect (source.lookup (js "$schema")) = true
      · rw [if_pos hdialect] at h
        cases h
      · rw [if_neg hdialect] at h
        by_cases hobject : type = js "object"
        · rw [if_pos hobject] at h
          have ⟨hnamed, hobject⟩ := objectNode_ok hchild h
          exact ⟨hnamed, fun _ => hobject⟩
        · -- the other types are not admitted at the root
          rw [if_neg hobject] at h
          refine ⟨?_, fun htrue => absurd ⟨htrue, hobject⟩ hroot⟩
          split at h
          · exact arrayNode_ok hchild h
          · split at h
            · exact stringNode_ok h
            · split at h
              · exact numberNode_ok h
              · split at h
                · exact numberNode_ok h
                · split at h
                  · have ⟨_, _, hresult⟩ := bind_ok h
                    cases hresult
                    trivial
                  · split at h
                    · have ⟨_, _, hresult⟩ := bind_ok h
                      cases hresult
                      trivial
                    · cases h
  · split at h <;> cases h

theorem nullableNode_ok
    (hchild : ∀ {nodes value path result}, child nodes value path = .ok result → Named result.1)
    {branches : JsonData ν} {root : Bool}
    (h : nullableNode child source branches nodes path root described = .ok result) :
    Named result.1 ∧ root = false := by
  obtain ⟨_, _, hsource⟩ := bind_ok h
  split at hsource
  · cases hsource
  next hroot =>
    refine ⟨?_, by simpa using hroot⟩
    split at hsource
    next firstValue secondValue =>
      obtain ⟨first, hfirst, hthen⟩ := bind_ok hsource
      obtain ⟨second, hsecond, hpair⟩ := bind_ok hthen
      split at hpair
      · cases hpair
        exact ⟨hchild hfirst, hchild hsecond⟩
      · split at hpair
        · cases hpair
          exact ⟨hchild hsecond, hchild hfirst⟩
        · cases hpair
    · cases hsource

end Nodes

/-- **An admitted schema** names each property once, and its root is an object. -/
theorem node_named {room : Nat} {root : Bool} {nodes : Nat} {value : JsonData ν}
    {result : SchemaNode ν × Nat} (h : node N room nodes value path root = .ok result) :
    Named result.1 ∧ (root = true → isObjectSchema result.1 = true) := by
  induction room generalizing nodes value path root result with
  | zero => cases h
  | succ room ih =>
    unfold node at h
    split at h
    · cases h
    · obtain ⟨source, _, hsource⟩ := bind_ok h
      obtain ⟨described, _, hdescribed⟩ := bind_ok hsource
      split at hdescribed
      next branches _ =>
        obtain ⟨hnamed, hroot⟩ := nullableNode_ok (fun hchild => (ih hchild).1) hdescribed
        exact ⟨hnamed, fun htrue => absurd htrue (by simp [hroot])⟩
      · exact typedNode_ok (fun hchild => (ih hchild).1) hdescribed

/-! ## The bound -/

/-- A size that is not above what a value measures. -/
structure Least (N : Numbers ν) (size : MinimumValueSize) (value : JsonData ν) : Prop where
  bytes : size.bytes ≤ value.bytes N.spell
  nodes : size.nodes ≤ value.nodes
  depth : size.depth ≤ value.depth

theorem minimumOf_le {sizes : List Nat} {size : Nat} (h : size ∈ sizes) :
    minimumOf sizes ≤ size := by
  induction sizes using minimumOf.induct with
  | case1 => simp at h
  | case2 only =>
    rw [List.mem_singleton.1 h]
    exact Nat.le_refl only
  | case3 first rest hrest ih =>
    rw [minimumOf.eq_3 first rest hrest]
    rcases List.mem_cons.1 h with heq | hin
    · exact heq ▸ Nat.min_le_left _ _
    · exact (Nat.min_le_right _ _).trans (ih hin)

/-- The bound of a string schema, with or without an enum. -/
theorem minimumStringBytes_le {schema : StringSchema} {value : JsString}
    (h : stringSatisfies schema value = true) :
    minimumStringBytes schema ≤ Json.quoteBytes value := by
  simp only [stringSatisfies, Bool.and_eq_true] at h
  unfold minimumStringBytes
  split
  next values henum =>
    have hmem : value ∈ values := by simpa [henum] using h.2
    have hleast := minimumOf_le (List.mem_map_of_mem (f := fun value =>
      serializedStringBytes value AGENT_OUTPUT_SCHEMA_BYTES_LIMIT) hmem)
    exact hleast.trans (serializedStringBytes_le value _)
  · have hpoints := JsonData.length_characters_le value
    have hlength : schema.minLength.getD 0 ≤ codePointLength value := by
      cases hmin : schema.minLength with
      | none => exact Nat.zero_le _
      | some minimum => simpa [hmin] using h.1.1
    unfold codePointLength at hlength
    unfold Json.quoteBytes
    omega

/-- What a property adds to the bytes of its object. -/
def propertyBytes (N : Numbers ν) (property : JsString × SchemaNode ν) : Nat :=
  serializedStringBytes property.1 AGENT_OUTPUT_SCHEMA_BYTES_LIMIT + 1 +
    (minimumValueSize N property.2).bytes

theorem addProperties_eq (properties : List (JsString × SchemaNode ν)) (size : MinimumValueSize) :
    (addProperties N properties size).bytes =
        size.bytes + (properties.map (propertyBytes N)).sum ∧
      (addProperties N properties size).nodes =
        size.nodes +
          (properties.map fun property => (minimumValueSize N property.2).nodes).sum := by
  induction properties generalizing size with
  | nil => simp [addProperties]
  | cons property rest ih =>
    simp only [addProperties, ih, List.map_cons, List.sum_cons, propertyBytes]
    omega

theorem addProperties_depth {size : MinimumValueSize} {levels : Nat} (hsize : size.depth ≤ levels)
    (h : ∀ property ∈ properties, 1 + (minimumValueSize N property.2).depth ≤ levels) :
    (addProperties N properties size).depth ≤ levels := by
  induction properties generalizing size with
  | nil => exact hsize
  | cons property rest ih =>
    refine ih (Nat.max_le.2 ⟨hsize, h property (by simp)⟩) fun other hother => ?_
    exact h other (List.mem_cons_of_mem property hother)

theorem satisfiesProperties_iff {fields : Fields ν} :
    satisfiesProperties N properties fields = true ↔ ∀ property ∈ properties, ∃ value,
      fields.lookup property.1 = some value ∧ satisfies N property.2 value = true := by
  induction properties with
  | nil => simp [satisfiesProperties]
  | cons property rest ih =>
    simp only [satisfiesProperties, Bool.and_eq_true, ih, List.forall_mem_cons,
      Option.any_eq_true]

/-- An object is at least as large as its properties demand. -/
theorem object_least {fields : Fields ν} {described : Option JsString}
    (hnames : (properties.map Prod.fst).Nodup)
    (hfound : ∀ property ∈ properties, ∃ value, (property.1, value) ∈ fields ∧
      Least N (minimumValueSize N property.2) value) :
    Least N (minimumValueSize N (.object properties described)) (.obj fields) := by
  have hlength : properties.length ≤ fields.length := by
    have hcount : (properties.map fun _ => 1).sum ≤ (fields.map fun _ => 1).sum := by
      refine JsonData.sum_le_sum_of_keys hnames fun property hin => ?_
      obtain ⟨value, hvalue, _⟩ := hfound property hin
      exact ⟨_, hvalue, rfl, Nat.le_refl 1⟩
    simpa using hcount
  have hbytes : (properties.map (propertyBytes N)).sum ≤
      (fields.map fun field => Json.quoteBytes field.1 + 1 + field.2.bytes N.spell).sum := by
    refine JsonData.sum_le_sum_of_keys hnames fun property hin => ?_
    obtain ⟨value, hvalue, hleast⟩ := hfound property hin
    have hname := serializedStringBytes_le property.1 AGENT_OUTPUT_SCHEMA_BYTES_LIMIT
    have hchild := hleast.bytes
    refine ⟨_, hvalue, rfl, ?_⟩
    simp only [propertyBytes]
    omega
  have hnodes : (properties.map fun property => (minimumValueSize N property.2).nodes).sum ≤
      (fields.map fun field => field.2.nodes).sum := by
    refine JsonData.sum_le_sum_of_keys hnames fun property hin => ?_
    obtain ⟨value, hvalue, hleast⟩ := hfound property hin
    exact ⟨_, hvalue, rfl, hleast.nodes⟩
  obtain ⟨hsumBytes, hsumNodes⟩ := addProperties_eq (N := N) properties
    { bytes := 2 + (properties.length - 1), nodes := 1, depth := 1 }
  constructor
  · simp only [minimumValueSize, hsumBytes, JsonData.bytes, JsonData.fieldsBytes_eq]
    omega
  · simp only [minimumValueSize, hsumNodes, JsonData.nodes, JsonData.fieldsNodes_eq]
    omega
  · simp only [minimumValueSize, JsonData.depth]
    refine addProperties_depth (Nat.le_add_right 1 _) fun property hin => ?_
    obtain ⟨value, hvalue, hleast⟩ := hfound property hin
    have hlevel : value.depth ≤ JsonData.fieldsDepth fields := JsonData.depth_le_fieldsDepth hvalue
    have hchild := hleast.depth
    omega

/-- An array is at least as large as its smallest number of items demands. -/
theorem array_least {items : SchemaNode ν} {minItems maxItems : Option Nat}
    {described : Option JsString} {values : List (JsonData ν)}
    (hcount : minItems.getD 0 ≤ values.length)
    (h : ∀ value ∈ values, Least N (minimumValueSize N items) value) :
    Least N (minimumValueSize N (.array items minItems maxItems described)) (.arr values) := by
  have hbytes : values.length * (minimumValueSize N items).bytes ≤
      (values.map (JsonData.bytes N.spell)).sum := by
    have hsum := List.card_nsmul_le_sum (values.map (JsonData.bytes N.spell))
      (minimumValueSize N items).bytes fun size hsize => by
        obtain ⟨value, hvalue, rfl⟩ := List.mem_map.1 hsize
        exact (h value hvalue).bytes
    simpa using hsum
  have hnodes : values.length * (minimumValueSize N items).nodes ≤
      (values.map JsonData.nodes).sum := by
    have hsum := List.card_nsmul_le_sum (values.map JsonData.nodes)
      (minimumValueSize N items).nodes fun size hsize => by
        obtain ⟨value, hvalue, rfl⟩ := List.mem_map.1 hsize
        exact (h value hvalue).nodes
    simpa using hsum
  have hmulBytes := Nat.mul_le_mul_right (minimumValueSize N items).bytes hcount
  have hmulNodes := Nat.mul_le_mul_right (minimumValueSize N items).nodes hcount
  constructor
  · simp only [minimumValueSize, JsonData.bytes, JsonData.itemsBytes_eq]
    omega
  · simp only [minimumValueSize, JsonData.nodes, JsonData.itemsNodes_eq]
    omega
  · simp only [minimumValueSize, JsonData.depth]
    by_cases hzero : minItems.getD 0 = 0
    · rw [if_pos hzero]
      omega
    · rw [if_neg hzero]
      cases values with
      | nil => exact absurd (Nat.le_zero.1 hcount) hzero
      | cons first rest =>
        have hfirst := (h first (by simp)).depth
        have hlevel : first.depth ≤ JsonData.itemsDepth (first :: rest) :=
          JsonData.depth_le_itemsDepth (List.mem_cons_self ..)
        omega

/-- The bound of a number schema is not above the text of an admitted number. -/
def LeafBound (N : Numbers ν) : Prop :=
  ∀ schema value, admits N schema value = true →
    N.minimumNumberBytes schema ≤ (N.spell value).length

/-- A value without parts. -/
theorem Least.leaf {value : JsonData ν} {bytes : Nat} (h : bytes ≤ value.bytes N.spell) :
    Least N { bytes, nodes := 1, depth := 1 } value :=
  ⟨h, value.nodes_pos, value.depth_pos⟩

mutual

/-- **The bound of a schema** is not above what a value that satisfies it measures. -/
theorem minimumValueSize_le (hleaf : LeafBound N) : ∀ (schema : SchemaNode ν), Named schema →
    ∀ value, satisfies N schema value = true → Least N (minimumValueSize N schema) value
  | .nullable first second described, hnamed, value, h => by
      have hsize : min 4 (minimumValueSize N first).bytes ≤ value.bytes N.spell := by
        by_cases hnull : value = .null
        · subst hnull
          exact Nat.min_le_left _ _
        · rw [satisfies.eq_2 N _ _ _ _ hnull] at h
          have hfirst := minimumValueSize_le hleaf first hnamed.1 value h
          exact (Nat.min_le_right _ _).trans hfirst.bytes
      simp only [minimumValueSize]
      exact .leaf hsize
  | .object properties described, hnamed, value, h => by
      cases value with
      | obj fields =>
        simp only [satisfies, Bool.and_eq_true] at h
        refine object_least hnamed.1 fun property hin => ?_
        obtain ⟨child, hlookup, hsatisfied⟩ := satisfiesProperties_iff.1 h.2 property hin
        obtain ⟨before, after, hsplit, -⟩ := List.lookup_eq_some_iff.1 hlookup
        exact ⟨child, by simp [hsplit],
          properties_least hleaf properties hnamed.2 property hin child hsatisfied⟩
      | _ => simp [satisfies] at h
  | .array items minItems maxItems described, hnamed, value, h => by
      cases value with
      | arr values =>
        simp only [satisfies, Bool.and_eq_true, List.all_eq_true] at h
        refine array_least ?_ fun value hvalue =>
          minimumValueSize_le hleaf items hnamed value (h.2 value hvalue)
        cases minItems with
        | none => exact Nat.zero_le _
        | some minimum => simpa using h.1.1
      | _ => simp [satisfies] at h
  | .string schema described, _, value, h => by
      cases value with
      | str text =>
        simp only [satisfies] at h
        simp only [minimumValueSize]
        exact .leaf (minimumStringBytes_le h)
      | _ => simp [satisfies] at h
  | .number schema described, _, value, h => by
      cases value with
      | num number =>
        simp only [satisfies] at h
        simp only [minimumValueSize]
        exact .leaf (hleaf schema number h)
      | _ => simp [satisfies] at h
  | .boolean described, _, value, h => by
      cases value with
      | bool b =>
        simp only [minimumValueSize]
        exact .leaf (by cases b <;> simp [JsonData.bytes])
      | _ => simp [satisfies] at h
  | .null described, _, value, h => by
      cases value with
      | null =>
        simp only [minimumValueSize]
        exact .leaf (Nat.le_refl 4)
      | _ => simp [satisfies] at h

theorem properties_least (hleaf : LeafBound N) : ∀ (properties : List (JsString × SchemaNode ν)),
    NamedAll properties → ∀ property ∈ properties, ∀ value,
      satisfies N property.2 value = true → Least N (minimumValueSize N property.2) value
  | [], _, property, hin, _, _ => by simp at hin
  | (name, child) :: rest, hnamed, property, hin, value, h => by
      rcases List.mem_cons.1 hin with heq | hrest
      · subst heq
        exact minimumValueSize_le hleaf child hnamed.1 value h
      · exact properties_least hleaf rest hnamed.2 property hrest value h

end

/-! ## Admission -/

/-- The limits that an output value has to keep. -/
def outputBounds (maxOutputBytes : Nat) : StructuredOutputJsonBounds :=
  valueBounds (min AGENT_OUTPUT_VALUE_BYTES_LIMIT maxOutputBytes)

/-- **Minimum sizes are sound.**  Whatever node is admitted, no value that satisfies it
measures less than the bound in bytes, nodes or depth; and a schema that reads well is
admitted when one value within the limits satisfies it. -/
theorem minimum_value_size (N : Numbers ν) (hleaf : LeafBound N) :
    (∀ (room nodes : Nat) (input : JsonData ν) (path : Path) (root : Bool)
        (schema : SchemaNode ν) (after : Nat),
      node N room nodes input path root = .ok (schema, after) →
        ∀ value, satisfies N schema value = true →
          (minimumValueSize N schema).bytes ≤ utf8Length (value.stringify N.spell) ∧
          (minimumValueSize N schema).nodes ≤ value.nodes ∧
          (minimumValueSize N schema).depth ≤ value.depth) ∧
    (∀ (input : JsonData ν) (maxOutputBytes : Nat) (schema : SchemaNode ν) (after : Nat),
      node N AGENT_OUTPUT_SCHEMA_DEPTH_LIMIT 0 input [] true = .ok (schema, after) →
        (∃ value, satisfies N schema value = true ∧ Within N (outputBounds maxOutputBytes) value) →
          admitOutputSchema N input maxOutputBytes = .ok schema) ∧
    (∀ (maxOutputBytes : Nat) (input data : JsonData ν),
      maxOutputBytes ≤ AGENT_OUTPUT_VALUE_BYTES_LIMIT →
        snapshotStructuredOutputJson N (valueBounds maxOutputBytes) input = .ok data →
          Within N (outputBounds maxOutputBytes) data) := by
  have hsound : ∀ {room nodes input path root schema after},
      node N room nodes input path root = .ok (schema, after) → ∀ value,
        satisfies N schema value = true → Least N (minimumValueSize N schema) value :=
    fun hnode value h => minimumValueSize_le hleaf _ (node_named hnode).1 value h
  refine ⟨fun room nodes input path root schema after hnode value h => ?_,
    fun input maxOutputBytes schema after hnode hvalue => ?_,
    fun maxOutputBytes input data hmax hsnapshot => ?_⟩
  · have hleast := hsound hnode value h
    rw [JsonData.stringify_bytes N.ascii]
    exact ⟨hleast.bytes, hleast.nodes, hleast.depth⟩
  · obtain ⟨value, hsatisfied, hwithin⟩ := hvalue
    have hleast := hsound hnode value hsatisfied
    have hobject := (node_named hnode).2 rfl
    have hbytes := hwithin.bytes
    rw [JsonData.stringify_bytes N.ascii] at hbytes
    have hfits := Nat.le_min.1 (hleast.bytes.trans hbytes)
    have hnodes : (minimumValueSize N schema).nodes ≤ AGENT_OUTPUT_VALUE_NODES_LIMIT :=
      hleast.nodes.trans hwithin.nodes
    have hdepth : (minimumValueSize N schema).depth ≤ AGENT_OUTPUT_VALUE_DEPTH_LIMIT :=
      hleast.depth.trans hwithin.depth
    unfold admitOutputSchema
    rw [hnode]
    simp only [hobject, Bool.true_eq_false, if_false]
    rw [if_neg (by omega), if_neg (by omega)]
  · obtain ⟨_, hwithin⟩ := snapshot_within hsnapshot
    have hsame : outputBounds maxOutputBytes = valueBounds maxOutputBytes := by
      unfold outputBounds
      rw [Nat.min_eq_right hmax]
    rw [hsame]
    exact hwithin

/-! ## Integers -/

theorem decimal_ascii (n : Int) : ∀ u ∈ decimal n, u.toNat < 0x80 := by
  have hdigits : ∀ u ∈ natDecimal n.natAbs, u.toNat < 0x80 := by
    intro u hu
    have hdigit := isDigit_of_mem_natDecimal hu
    simp only [isDigit, Bool.and_eq_true, decide_eq_true_eq] at hdigit
    omega
  intro u hu
  unfold decimal at hu
  split at hu
  · rcases List.mem_cons.1 hu with heq | hin
    · rw [heq]
      decide
    · exact hdigits u hin
  · exact hdigits u hu

theorem decimal_length_pos (n : Int) : 1 ≤ (decimal n).length := by
  unfold decimal
  split
  · simp
  · exact List.length_pos_of_ne_nil (natDecimal_ne_nil n.natAbs)

/-- Safe integers, with the bound that number schemas have when their range is one number
or holds zero. -/
def safeIntegers : Numbers Int where
  spell := decimal
  ascii := decimal_ascii
  le := fun m n => decide (m ≤ n)
  isInteger := fun _ => true
  safeNat := fun n => if 0 ≤ n ∧ n < 2 ^ 53 then some n.toNat else none
  integerWithin := fun m n => decide (m ≤ n)
  minimumNumberBytes := fun schema =>
    if schema.minimum.isSome = true ∧ schema.minimum = schema.maximum then
      (decimal (schema.minimum.getD 0)).length
    else 1

theorem safeIntegers_leafBound : LeafBound safeIntegers := by
  intro schema value h
  simp only [safeIntegers]
  split
  next hone =>
    obtain ⟨minimum, hminimum⟩ := Option.isSome_iff_exists.1 hone.1
    have hmaximum : schema.maximum = some minimum := by rw [← hone.2, hminimum]
    simp only [admits, safeIntegers, hminimum, hmaximum, Option.all_some, Bool.and_eq_true,
      decide_eq_true_eq] at h
    have hvalue : value = minimum := by omega
    simp [hminimum, hvalue]
  · exact decimal_length_pos value

/-- An object with one property, whose value is an array of at least two sevens. -/
def sevens : JsonData Int :=
  .obj [(js "type", .str (js "object")), (js "additionalProperties", .bool false),
    (js "required", .arr [.str (js "n")]),
    (js "properties", .obj [(js "n", .obj [(js "type", .str (js "array")), (js "minItems", .num 2),
      (js "items", .obj [(js "type", .str (js "integer")), (js "minimum", .num 7),
        (js "maximum", .num 7)])])])]

theorem minimum_value_size_sevens :
    admitOutputSchema safeIntegers sevens 11 =
      .ok (.object [(js "n", .array (.number ⟨true, some 7, some 7⟩ none) (some 2) none none)]
        none) := by
  refine (minimum_value_size safeIntegers safeIntegers_leafBound).2.1 sevens 11 _ 3 rfl
    ⟨.obj [(js "n", .arr [.num 7, .num 7])], by decide, ⟨by decide, by decide, by decide⟩⟩

end AgentSdk.Output
