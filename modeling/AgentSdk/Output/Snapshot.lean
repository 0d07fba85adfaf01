import AgentSdk.Output.Schema

/-!
# The snapshot of an output value

`snapshotStructuredOutputJson` copies a value while it charges its bytes, nodes and
depth against the bounds.  Here the value is JSON data already; what the copy refuses
of other values, accessors, cycles and exotic prototypes, has no counterpart.

## Main results

* `serializedStringBytes_le` — the count of a string never goes above its size in JSON.
* `copy_ok` — what a copy charged is what the value measures.
* `snapshot_within` — a copied value lies within the bounds.
-/

namespace AgentSdk.Output

open AgentSdk.Text

structure StructuredOutputJsonBounds where
  maxBytes : Nat
  maxDepth : Nat
  maxNodes : Nat
  maxCollectionLength : Nat

structure ValidationIssue where
  code : String
  message : String
  path : Path
  deriving DecidableEq

/-- What has been charged so far. -/
structure Charged where
  bytes : Nat := 0
  nodes : Nat := 0

variable {ν : Type} (N : Numbers ν) (bounds : StructuredOutputJsonBounds)

def isOutputPropertyName (value : JsString) : Bool :=
  decide (0 < value.length) &&
    decide (value.length ≤ 2 * AGENT_OUTPUT_SCHEMA_PROPERTY_NAME_MAX_LENGTH) &&
    !decide (value ∈ [js "__proto__", js "constructor", js "prototype"]) &&
    decide (codePointLength value ≤ AGENT_OUTPUT_SCHEMA_PROPERTY_NAME_MAX_LENGTH)

def charge (charged : Charged) (amount : Nat) (path : Path) : Except ValidationIssue Charged :=
  if charged.bytes + amount ≤ bounds.maxBytes then
    .ok { charged with bytes := charged.bytes + amount }
  else
    .error ⟨"output_limit_exceeded", "JSON data exceeds the serialized UTF-8 byte limit.", path⟩

def visit (charged : Charged) (depth : Nat) (path : Path) : Except ValidationIssue Charged :=
  if bounds.maxNodes < charged.nodes + 1 ∨ bounds.maxDepth < depth then
    .error ⟨"output_limit_exceeded", "JSON data exceeds the node or depth limit.", path⟩
  else .ok { charged with nodes := charged.nodes + 1 }

/-- The checks of an object before its members are charged. -/
def inspect (fields : Fields ν) (path : Path) : Except ValidationIssue Unit :=
  if bounds.maxCollectionLength < fields.length then
    .error ⟨"output_limit_exceeded", "JSON collections exceed the entry limit.", path⟩
  else if fields.any (fun field => !isOutputPropertyName field.1) then
    .error ⟨"invalid_json_data", "JSON object property names must be bounded and safe.", path⟩
  else .ok ()

mutual

def copy (depth : Nat) (path : Path) (charged : Charged) :
    JsonData ν → Except ValidationIssue Charged
  | .null => do
      let charged ← visit bounds charged depth path
      charge bounds charged 4 path
  | .bool value => do
      let charged ← visit bounds charged depth path
      charge bounds charged (if value = true then 4 else 5) path
  | .str value => do
      let charged ← visit bounds charged depth path
      charge bounds charged (serializedStringBytes value (bounds.maxBytes - charged.bytes)) path
  | .num value => do
      let charged ← visit bounds charged depth path
      charge bounds charged (N.spell value).length path
  | .arr items => do
      let charged ← visit bounds charged depth path
      if bounds.maxCollectionLength < items.length then
        .error ⟨"output_limit_exceeded", "JSON arrays exceed the collection limit.", path⟩
      else do
        let charged ← charge bounds charged (2 + (items.length - 1)) path
        copyItems (depth + 1) path 0 charged items
  | .obj fields => do
      let charged ← visit bounds charged depth path
      inspect bounds fields path
      let charged ← charge bounds charged (2 + (fields.length - 1)) path
      copyFields (depth + 1) path charged fields

def copyItems (depth : Nat) (path : Path) (index : Nat) (charged : Charged) :
    List (JsonData ν) → Except ValidationIssue Charged
  | [] => .ok charged
  | item :: rest => do
      let charged ← copy depth (path ++ [.index index]) charged item
      copyItems depth path (index + 1) charged rest

def copyFields (depth : Nat) (path : Path) (charged : Charged) :
    Fields ν → Except ValidationIssue Charged
  | [] => .ok charged
  | (key, value) :: rest => do
      let charged ← charge bounds charged
        (serializedStringBytes key (bounds.maxBytes - charged.bytes) + 1) (path ++ [.key key])
      let charged ← copy depth (path ++ [.key key]) charged value
      copyFields depth path charged rest

end

/-- `snapshotStructuredOutputJson`; the copy is the data itself. -/
def snapshotStructuredOutputJson (input : JsonData ν) : Except ValidationIssue (JsonData ν) := do
  discard (copy N bounds 1 [] {} input)
  pure input

/-- The bounds of an output value. -/
def valueBounds (maxOutputBytes : Nat) : StructuredOutputJsonBounds where
  maxBytes := maxOutputBytes
  maxDepth := AGENT_OUTPUT_VALUE_DEPTH_LIMIT
  maxNodes := AGENT_OUTPUT_VALUE_NODES_LIMIT
  maxCollectionLength := AGENT_OUTPUT_VALUE_COLLECTION_LIMIT

/-! ## Strings -/

/-- The control characters with a short escape, in the order the text is printed with. -/
private theorem mem_shortEscapes (unit : UInt16) :
    unit ∈ ([8, 9, 10, 12, 13] : List UInt16) ↔
      (unit = 8 ∨ unit = 12 ∨ unit = 10 ∨ unit = 13 ∨ unit = 9) := by
  simp only [List.mem_cons, List.not_mem_nil, or_false]
  constructor
  · rintro (h | h | h | h | h) <;> simp [h]
  · rintro (h | h | h | h | h) <;> simp [h]

theorem serializedUnitBytes_eq (unit : UInt16) :
    serializedUnitBytes unit = Json.escapeUnitBytes unit := by
  have hunits : ∀ u ∈ ([8, 9, 10, 12, 13] : List UInt16), u.toNat ≤ 0x1f :=
    forall_of_all (by decide)
  unfold serializedUnitBytes Json.escapeUnitBytes unitBytes
  by_cases hquote : unit = 0x22 ∨ unit = 0x5c
  · rw [if_pos hquote, if_pos (by rcases hquote with h | h <;> simp [h])]
  · rw [if_neg hquote]
    by_cases hlow : unit.toNat ≤ 0x1f
    · rw [if_pos hlow]
      by_cases hshort : unit ∈ ([8, 9, 10, 12, 13] : List UInt16)
      · have hescaped := (mem_shortEscapes unit).1 hshort
        rw [if_pos hshort, if_pos (or_assoc.1 (.inr hescaped))]
      · have hescaped := mt (mem_shortEscapes unit).2 hshort
        have hnone := fun h => (or_assoc.2 h).elim hquote hescaped
        rw [if_neg hshort, if_neg hnone, if_pos (.inl (by omega))]
    · have hshort : unit ∉ ([8, 9, 10, 12, 13] : List UInt16) := fun h => hlow (hunits unit h)
      have hescaped := mt (mem_shortEscapes unit).2 hshort
      have hnone := fun h => (or_assoc.2 h).elim hquote hescaped
      rw [if_neg hlow, if_neg hnone]
      by_cases hsurrogate : isSurrogate unit = true
      · have hrange : 0xD800 ≤ unit.toNat := by
          simp only [isSurrogate, Bool.and_eq_true, decide_eq_true_eq] at hsurrogate
          omega
        rw [if_neg (by omega), if_neg (by omega), if_pos hsurrogate, if_pos (.inr hsurrogate)]
      · rw [if_neg (c := unit.toNat < 0x20 ∨ isSurrogate unit = true)
          (by rintro (h | h); exacts [absurd h (by omega), hsurrogate h])]
        by_cases hascii : unit.toNat ≤ 0x7f
        · rw [if_pos hascii, if_pos (by omega)]
        · rw [if_neg hascii, if_neg (c := unit.toNat < 0x80) (by omega)]
          by_cases htwo : unit.toNat ≤ 0x7ff
          · rw [if_pos htwo, if_pos (by omega)]
          · rw [if_neg htwo, if_neg hsurrogate, if_neg (by omega)]

/-- The loop counts at most the bytes of the string, and all of them unless it stops. -/
theorem serializedBytesFrom_spec (stopAfter bytes : Nat) (value : JsString) :
    serializedBytesFrom stopAfter bytes value ≤ bytes + Json.escapeBytes value ∧
      (serializedBytesFrom stopAfter bytes value ≤ stopAfter →
        serializedBytesFrom stopAfter bytes value = bytes + Json.escapeBytes value) := by
  induction bytes, value using serializedBytesFrom.induct stopAfter with
  | case1 bytes => simp [serializedBytesFrom, Json.escapeBytes]
  | case2 bytes unit =>
    simp [serializedBytesFrom, Json.escapeBytes, serializedUnitBytes_eq]
  | case3 bytes unit next rest hpair hstop =>
    simp only [serializedBytesFrom, Json.escapeBytes, hpair, if_true, hstop]
    omega
  | case4 bytes unit next rest hpair hstop ih =>
    simp only [serializedBytesFrom, Json.escapeBytes, hpair, if_true, hstop, if_false]
    rw [← Nat.add_assoc]
    exact ih
  | case5 bytes unit next rest hpair hstop =>
    rw [serializedUnitBytes_eq] at hstop
    simp only [serializedBytesFrom, Json.escapeBytes, hpair, Bool.false_eq_true, if_false,
      serializedUnitBytes_eq, hstop, if_true]
    omega
  | case6 bytes unit next rest hpair hstop ih =>
    rw [serializedUnitBytes_eq] at hstop ih
    simp only [serializedBytesFrom, Json.escapeBytes, hpair, Bool.false_eq_true, if_false,
      serializedUnitBytes_eq, hstop]
    rw [← Nat.add_assoc]
    exact ih

/-- **The count of a string** never goes above its size in JSON. -/
theorem serializedStringBytes_le (value : JsString) (stopAfter : Nat) :
    serializedStringBytes value stopAfter ≤ Json.quoteBytes value :=
  (serializedBytesFrom_spec stopAfter 2 value).1

theorem serializedStringBytes_eq {value : JsString} {stopAfter : Nat}
    (h : serializedStringBytes value stopAfter ≤ stopAfter) :
    serializedStringBytes value stopAfter = Json.quoteBytes value :=
  (serializedBytesFrom_spec stopAfter 2 value).2 h

/-! ## Charges -/

variable {N bounds}

variable {after charged : Charged} {amount depth : Nat} {path : Path}

theorem charge_ok (h : charge bounds charged amount path = .ok after) :
    after = { charged with bytes := charged.bytes + amount } ∧
      charged.bytes + amount ≤ bounds.maxBytes := by
  unfold charge at h
  split at h
  next hle => exact ⟨(Except.ok.inj h).symm, hle⟩
  · cases h

theorem visit_ok (h : visit bounds charged depth path = .ok after) :
    after = { charged with nodes := charged.nodes + 1 } ∧
      charged.nodes + 1 ≤ bounds.maxNodes ∧ depth ≤ bounds.maxDepth := by
  unfold visit at h
  split at h
  · cases h
  next hnone => exact ⟨(Except.ok.inj h).symm, by omega, by omega⟩

/-- A string that was charged took its size in JSON. -/
theorem charge_string {value : JsString} (extra : Nat)
    (h : charge bounds charged
      (serializedStringBytes value (bounds.maxBytes - charged.bytes) + extra) path = .ok after) :
    after = { charged with bytes := charged.bytes + (Json.quoteBytes value + extra) } ∧
      charged.bytes + (Json.quoteBytes value + extra) ≤ bounds.maxBytes := by
  have ⟨hafter, hle⟩ := charge_ok h
  have hsize : serializedStringBytes value (bounds.maxBytes - charged.bytes) =
      Json.quoteBytes value := serializedStringBytes_eq (by omega)
  rw [hsize] at hafter hle
  exact ⟨hafter, hle⟩

/-! ## The copy -/

/-- What a copy charged: bytes, nodes, and levels below `depth`. -/
structure Copied (bounds : StructuredOutputJsonBounds) (depth : Nat) (charged after : Charged)
    (bytes nodes levels : Nat) : Prop where
  bytes : after.bytes = charged.bytes + bytes
  nodes : after.nodes = charged.nodes + nodes
  maxBytes : charged.bytes ≤ bounds.maxBytes → after.bytes ≤ bounds.maxBytes
  maxNodes : charged.nodes ≤ bounds.maxNodes → after.nodes ≤ bounds.maxNodes
  maxDepth : depth ≤ bounds.maxDepth + 1 → depth + levels ≤ bounds.maxDepth + 1

/-- A value without parts. -/
theorem Copied.leaf {visited : Charged} (hvisit : visit bounds charged depth path = .ok visited)
    (hafter : after = { visited with bytes := visited.bytes + amount })
    (hle : visited.bytes + amount ≤ bounds.maxBytes) :
    Copied bounds depth charged after amount 1 1 := by
  have ⟨hvisited, hnodes, hdepth⟩ := visit_ok hvisit
  subst hafter hvisited
  exact ⟨rfl, rfl, fun _ => hle, fun _ => hnodes, fun _ => by omega⟩

/-- A collection: the node, its punctuation, and its parts. -/
theorem Copied.parts {bytes nodes levels : Nat} {visited entered : Charged}
    (hvisit : visit bounds charged depth path = .ok visited)
    (hcharge : charge bounds visited amount path = .ok entered)
    (h : Copied bounds (depth + 1) entered after bytes nodes levels) :
    Copied bounds depth charged after (amount + bytes) (1 + nodes) (1 + levels) := by
  have ⟨hvisited, hnodes, hdepth⟩ := visit_ok hvisit
  have ⟨hentered, hle⟩ := charge_ok hcharge
  subst hentered hvisited
  have hbytes := h.bytes
  have hcount := h.nodes
  have hlevels := h.maxDepth (by omega)
  refine ⟨?_, ?_, fun _ => h.maxBytes hle, fun _ => h.maxNodes hnodes, fun _ => by omega⟩
  · rw [hbytes]
    exact Nat.add_assoc _ _ _
  · rw [hcount]
    exact Nat.add_assoc _ _ _

theorem Copied.none (depth : Nat) (charged : Charged) : Copied bounds depth charged charged 0 0 0 :=
  ⟨rfl, rfl, id, id, id⟩

/-- One part after another. -/
theorem Copied.next {b n l b' n' l' : Nat} {between : Charged}
    (hfirst : Copied bounds depth charged between b n l)
    (hrest : Copied bounds depth between after b' n' l') :
    Copied bounds depth charged after (b + b') (n + n') (max l l') := by
  have hb := hfirst.bytes
  have hn := hfirst.nodes
  have hb' := hrest.bytes
  have hn' := hrest.nodes
  refine ⟨by omega, by omega, fun h => hrest.maxBytes (hfirst.maxBytes h),
    fun h => hrest.maxNodes (hfirst.maxNodes h), fun h => ?_⟩
  have hl := hfirst.maxDepth h
  have hl' := hrest.maxDepth h
  omega

/-- The key of a member takes bytes only. -/
theorem Copied.key {b n l : Nat} {named : Charged}
    (hnamed : named = { charged with bytes := charged.bytes + amount })
    (hle : charged.bytes + amount ≤ bounds.maxBytes) (h : Copied bounds depth named after b n l) :
    Copied bounds depth charged after (amount + b) n l := by
  subst hnamed
  refine ⟨?_, h.nodes, fun _ => h.maxBytes hle, h.maxNodes, h.maxDepth⟩
  rw [h.bytes]
  exact Nat.add_assoc _ _ _

theorem bind_ok {α β ε : Type} {x : Except ε α} {f : α → Except ε β} {b : β}
    (h : (x >>= f) = .ok b) : ∃ a, x = .ok a ∧ f a = .ok b := by
  cases x with
  | error e => cases h
  | ok a => exact ⟨a, rfl, h⟩

mutual

/-- **A copy charges what the value measures.** -/
theorem copy_ok : ∀ (value : JsonData ν) {depth : Nat} {path : Path} {charged after : Charged},
    copy N bounds depth path charged value = .ok after →
      Copied bounds depth charged after (value.bytes N.spell) value.nodes value.depth
  | .null, depth, path, charged, after, h
  | .bool _, depth, path, charged, after, h
  | .num _, depth, path, charged, after, h => by
      have ⟨visited, hvisit, hcharge⟩ := bind_ok h
      have ⟨hafter, hle⟩ := charge_ok hcharge
      exact .leaf hvisit hafter hle
  | .str value, depth, path, charged, after, h => by
      have ⟨visited, hvisit, hcharge⟩ := bind_ok h
      have ⟨hafter, hle⟩ := charge_string 0 hcharge
      exact .leaf hvisit hafter hle
  | .arr items, depth, path, charged, after, h => by
      have ⟨visited, hvisit, hrest⟩ := bind_ok h
      split at hrest
      · cases hrest
      · have ⟨entered, hcharge, hitems⟩ := bind_ok hrest
        exact .parts hvisit hcharge (copyItems_ok items hitems)
  | .obj fields, depth, path, charged, after, h => by
      have ⟨visited, hvisit, hrest⟩ := bind_ok h
      have ⟨_, _, hcharged⟩ := bind_ok hrest
      have ⟨entered, hcharge, hfields⟩ := bind_ok hcharged
      exact .parts hvisit hcharge (copyFields_ok fields hfields)

theorem copyItems_ok : ∀ (items : List (JsonData ν)) {depth index : Nat} {path : Path}
    {charged after : Charged}, copyItems N bounds depth path index charged items = .ok after →
      Copied bounds depth charged after (JsonData.itemsBytes N.spell items)
        (JsonData.itemsNodes items) (JsonData.itemsDepth items)
  | [], depth, index, path, charged, after, h => by
      cases h
      exact .none depth charged
  | item :: rest, depth, index, path, charged, after, h => by
      have ⟨between, hitem, hrest⟩ := bind_ok h
      exact (copy_ok item hitem).next (copyItems_ok rest hrest)

theorem copyFields_ok : ∀ (fields : Fields ν) {depth : Nat} {path : Path}
    {charged after : Charged}, copyFields N bounds depth path charged fields = .ok after →
      Copied bounds depth charged after (JsonData.fieldsBytes N.spell fields)
        (JsonData.fieldsNodes fields) (JsonData.fieldsDepth fields)
  | [], depth, path, charged, after, h => by
      cases h
      exact .none depth charged
  | (key, value) :: rest, depth, path, charged, after, h => by
      have ⟨named, hkey, hmember⟩ := bind_ok h
      have ⟨between, hvalue, hrest⟩ := bind_ok hmember
      have ⟨hnamed, hle⟩ := charge_string 1 hkey
      exact ((copy_ok value hvalue).key hnamed hle).next (copyFields_ok rest hrest)

end

/-- A value within the limits of bytes, nodes and depth. -/
structure Within (N : Numbers ν) (bounds : StructuredOutputJsonBounds) (value : JsonData ν) :
    Prop where
  bytes : utf8Length (value.stringify N.spell) ≤ bounds.maxBytes
  nodes : value.nodes ≤ bounds.maxNodes
  depth : value.depth ≤ bounds.maxDepth

/-- **A copied value lies within the bounds.** -/
theorem snapshot_within {input data : JsonData ν}
    (h : snapshotStructuredOutputJson N bounds input = .ok data) :
    data = input ∧ Within N bounds data := by
  obtain ⟨_, hdiscard, hdata⟩ := bind_ok h
  cases hdata
  have hcopy : ∃ after, copy N bounds 1 [] {} input = .ok after := by
    cases hresult : copy N bounds 1 [] {} input with
    | error e =>
      rw [hresult] at hdiscard
      cases hdiscard
    | ok after => exact ⟨after, rfl⟩
  obtain ⟨after, hafter⟩ := hcopy
  have hcopied := copy_ok input hafter
  have hbytes := hcopied.bytes
  have hnodes := hcopied.nodes
  have hmaxBytes := hcopied.maxBytes (Nat.zero_le _)
  have hmaxNodes := hcopied.maxNodes (Nat.zero_le _)
  have hmaxDepth := hcopied.maxDepth (by omega)
  simp only [Nat.zero_add] at hbytes hnodes
  refine ⟨rfl, ?_, by omega, by omega⟩
  rw [JsonData.stringify_bytes N.ascii]
  omega

end AgentSdk.Output
