import AgentSdk.Evidence.Steady
import AgentSdk.Evidence.Mirror

/-!
# Bounded provider data are consistent

Bounding never fails, what it returns has the size it says, and the validator
takes it back unchanged when the value is settled.  A second redaction then
changes nothing either.  Data that are not truncated mirror the value, with
`null` where an array has a hole.

## Main results

* `validate_bounded` — the validator takes back what was bounded.
* `bounded_provider_data` — the whole of it, for every value and every limit.
* `sparse_array_not_itself` — a sparse array is kept without a word about its
  holes.
-/

namespace AgentSdk

namespace Evidence

open AgentSdk.Text

variable {V ν : Type}

/-! ## The validator -/

theorem record_steady (N : Numerals ν) (reason : TruncationReason) (original : Option Nat)
    (room : Nat) : Steady (room + 2) (truncatedRecord N reason original) := by
  have hshown : ∀ key ∈ [js "truncated", js "reason", js "originalDataBytes"],
      ¬isSensitiveKey key = true := by decide
  have hleaf : Steady (room + 1)
      (original.elim .null fun bytes => .num (N.count bytes) : JsonData ν) := by
    cases original <;> trivial
  intro field hfield
  simp only [List.mem_cons, List.not_mem_nil, or_false] at hfield
  rcases hfield with rfl | rfl | rfl
  · exact ⟨fun h => absurd h (hshown _ (by simp)), fun _ => trivial⟩
  · exact ⟨fun h => absurd h (hshown _ (by simp)), fun _ => trivial⟩
  · exact ⟨fun h => absurd h (hshown _ (by simp)), fun _ => hleaf⟩

/-- The value is settled, or a record stands for its data. -/
def Lasting (W : Realm V ν) (value : V) (bounded : BoundedAgentProviderData ν) : Prop :=
  Settled W (AGENT_PROVIDER_DATA_DEPTH_LIMIT + 1) [] value ∨
    bounded.truncationReason = some .byte_limit_exceeded ∨
    bounded.truncationReason = some .byte_and_structural_limits_exceeded

variable {N : Numerals ν} {W : Realm V ν} {value : V} {limit : Nat}
  {bounded : BoundedAgentProviderData ν} {data : JsonData ν}

/-- Bounded data have the form and, when they last, are steady. -/
theorem Outcome.formed_steady (h : Outcome N limit (normalizeAgentProviderData W value) bounded)
    (hlasting : Lasting W value bounded) :
    Formed (AGENT_PROVIDER_DATA_DEPTH_LIMIT + 1) bounded.data ∧
      Steady (AGENT_PROVIDER_DATA_DEPTH_LIMIT + 1) bounded.data := by
  have hform : Formed (AGENT_PROVIDER_DATA_DEPTH_LIMIT + 1)
      (normalizeAgentProviderData W value).data := normalized_formed W _ [] value
  cases h with
  | whole | cut =>
    rcases hlasting with hsettled | hreason | hreason
    · exact ⟨hform, normalized_steady W hsettled⟩
    · cases hreason
    · cases hreason
  | large hlarge hflag
  | cutAndLarge hlarge hflag => exact ⟨record_formed N _ _ _, record_steady N _ _ _⟩

/-- The counts and the reason of bounded data are in order, as long as the count is exact. -/
theorem Outcome.accounting {normalized : NormalizedAgentProviderData ν}
    (h : Outcome N limit normalized bounded) (hlow : 256 ≤ limit)
    (hhigh : limit ≤ AGENT_PROVIDER_DATA_BYTES_LIMIT_MAX)
    (hexact : ∀ bytes, bounded.originalDataBytes = some bytes → bytes < 9007199254740992) :
    validAccounting bounded.dataBytes bounded = .ok () := by
  have hmax : AGENT_PROVIDER_DATA_BYTES_LIMIT_MAX = 32768 := rfl
  cases h with
  | whole hfits hflag =>
    have hsafe : isSafeCount (serializedAgentJsonValueBytes N normalized.data) = true :=
      decide_eq_true (by omega)
    simp [validAccounting, hsafe]
  | cut | cutAndLarge => rfl
  | large hlarge hflag =>
    have hsafe : isSafeCount (serializedAgentJsonValueBytes N normalized.data) = true :=
      decide_eq_true (hexact _ rfl)
    have hrecord := record_bytes N .byte_limit_exceeded
      (some (serializedAgentJsonValueBytes N normalized.data))
    rw [← serialized_bytes] at hrecord
    have hless : agentProtocolSerializedJsonBytes N (truncatedRecord N .byte_limit_exceeded
        (some (serializedAgentJsonValueBytes N normalized.data))) <
          serializedAgentJsonValueBytes N normalized.data := by omega
    simp [validAccounting, hsafe, hless]

/-- Steady data of the form are redacted to themselves. -/
theorem redact_steady (N : Numerals ν) (hform : Formed (AGENT_PROVIDER_DATA_DEPTH_LIMIT + 1) data)
    (hsteady : Steady (AGENT_PROVIDER_DATA_DEPTH_LIMIT + 1) data)
    (hbytes : serializedAgentJsonValueBytes N data ≤ AGENT_PROTOCOL_JSON_BYTES_LIMIT) :
    redactAgentProviderData N jsonRealm data = .ok data := by
  have hsame : (normalizeAgentProviderData jsonRealm data).data = data :=
    renormalized hform hsteady
  rw [redactAgentProviderData, hsame]
  exact parse_formed N hform (by decide) hbytes

/-- **The validator takes back what was bounded**, unchanged. -/
theorem validate_bounded [DecidableEq ν]
    (h : Outcome N limit (normalizeAgentProviderData W value) bounded) (hlow : 256 ≤ limit)
    (hhigh : limit ≤ AGENT_PROVIDER_DATA_BYTES_LIMIT_MAX) (hlasting : Lasting W value bounded)
    (hexact : ∀ bytes, bounded.originalDataBytes = some bytes → bytes < 9007199254740992) :
    validateBoundedAgentProviderData N bounded = .ok bounded := by
  obtain ⟨hform, hsteady⟩ := h.formed_steady hlasting
  obtain ⟨hsize, hfits⟩ := h.bytes hlow
  have hbytes : serializedAgentJsonValueBytes N bounded.data ≤ AGENT_PROTOCOL_JSON_BYTES_LIMIT := by
    rw [← serialized_bytes, ← hsize]
    exact hfits.trans hhigh
  have hparse : parseAgentJsonValue N bounded.data = .ok bounded.data :=
    parse_formed N hform (by decide) hbytes
  have hredact := redact_steady N hform hsteady hbytes
  have haccounting := h.accounting hlow hhigh hexact
  have hredacted : bounded.redacted = true := by cases h <;> rfl
  rw [hsize] at haccounting
  simp only [validateBoundedAgentProviderData, hredacted, hparse, hredact, isDeepStrictEqual_self,
    haccounting, bind, Except.bind]
  rw [if_neg (by decide), if_pos trivial, if_pos hsize, ← hsize, ← hredacted]
  rfl

/-- **A second redaction changes nothing** when the value is settled. -/
theorem redact_idempotent (hsettled : Settled W (AGENT_PROVIDER_DATA_DEPTH_LIMIT + 1) [] value)
    (h : redactAgentProviderData N W value = .ok data) :
    redactAgentProviderData N jsonRealm data = .ok data := by
  have hdata : data = (normalizeAgentProviderData W value).data := parse_eq N h
  have hbytes := parse_bytes N h
  rw [← hdata] at hbytes
  have hform : Formed (AGENT_PROVIDER_DATA_DEPTH_LIMIT + 1) data :=
    hdata ▸ normalized_formed W _ [] value
  have hsteady : Steady (AGENT_PROVIDER_DATA_DEPTH_LIMIT + 1) data :=
    hdata ▸ normalized_steady W hsettled
  exact redact_steady N hform hsteady hbytes

theorem Outcome.mirrors (h : Outcome N limit (normalizeAgentProviderData W value) bounded)
    (hwhole : bounded.truncated = false) :
    Mirrors true W (AGENT_PROVIDER_DATA_DEPTH_LIMIT + 1) value bounded.data := by
  cases h with
  | whole hfits hflag => exact normalized_mirrors W hflag
  | cut | large | cutAndLarge => cases hwhole

/-! ## Every value at every limit -/

/-- **Bounded provider data are total and consistent**: every value is bounded at every limit,
to data of the size that is counted and within the limit; the validator takes them back when
the value is settled or a record stands for it, and the count of the original is exact; data that
are not truncated mirror the value with `null` in its holes; and the redaction of a settled value
is redacted to itself. -/
theorem bounded_provider_data [DecidableEq ν] (N : Numerals ν) (W : Realm V ν) (value : V)
    (bytesLimit : Int) (hlow : 256 ≤ bytesLimit)
    (hhigh : bytesLimit ≤ AGENT_PROVIDER_DATA_BYTES_LIMIT_MAX) :
    (∃ bounded, createBoundedAgentProviderData N W value bytesLimit = .ok bounded ∧
      bounded.dataBytes = utf8Length (bounded.data.stringify N.spell) ∧
      (bounded.dataBytes : Int) ≤ bytesLimit ∧
      (Lasting W value bounded →
        (∀ bytes, bounded.originalDataBytes = some bytes → isSafeCount bytes = true) →
          validateBoundedAgentProviderData N bounded = .ok bounded) ∧
      (bounded.truncated = false →
        Mirrors true W (AGENT_PROVIDER_DATA_DEPTH_LIMIT + 1) value bounded.data)) ∧
    ∀ data, Settled W (AGENT_PROVIDER_DATA_DEPTH_LIMIT + 1) [] value →
      redactAgentProviderData N W value = .ok data →
        redactAgentProviderData N jsonRealm data = .ok data := by
  obtain ⟨bounded, hbounded, houtcome⟩ := createBounded_ok N W value hlow hhigh
  have hsmall : 256 ≤ bytesLimit.toNat := by omega
  have hlarge : bytesLimit.toNat ≤ AGENT_PROVIDER_DATA_BYTES_LIMIT_MAX := by omega
  obtain ⟨hsize, hfits⟩ := houtcome.bytes hsmall
  refine ⟨⟨bounded, hbounded, hsize, by omega, fun hlasting hexact => ?_, houtcome.mirrors⟩,
    fun data hsettled hdata => redact_idempotent hsettled hdata⟩
  exact validate_bounded houtcome hsmall hlarge hlasting fun bytes h =>
    of_decide_eq_true (hexact bytes h)

/-! ## JSON data -/

/-- Data of the form are settled. -/
theorem settled_data {room : Nat} {ancestors : List (JsonData ν)} (h : Formed room data) :
    Settled jsonRealm room ancestors data := by
  induction room generalizing ancestors data with
  | zero => trivial
  | succ room ih =>
    intro seen hseen _
    cases data with
    | null | bool | num | str => cases hseen
    | arr items =>
      cases hseen
      refine ⟨fun _ length hlength index hindex => ?_, fun hkind => (nomatch hkind)⟩
      cases hlength
      have hin : index < items.length := Nat.lt_of_lt_of_le hindex (Nat.min_le_left _ _)
      have hread : (arraySeen items).read (.name (natDecimal index)) =
          .ok (some { enumerable := true, value := some items[index] }) :=
        congrArg Except.ok (elementAt_index hin h.1)
      rw [hread]
      exact ih (h.2 items[index] (List.getElem_mem hin))
    | obj fields =>
      cases hseen
      obtain ⟨hlength, hkeys, hfields⟩ := h
      refine ⟨fun hkind => (nomatch hkind), fun _ _ keys enumerable hown hall key hkey => ?_⟩
      cases hown
      rw [objectKeys, hkeys.dedup, enumerableKeys_data hkeys fun field hfield => hfield] at hall
      cases hall
      rw [selectedKeys_names (by rw [List.length_map]; exact hlength)] at hkey
      obtain ⟨field, hfield, rfl⟩ := List.mem_map.1 hkey
      obtain ⟨hportable, hbelow⟩ := hfields field hfield
      rw [read_of_mem hkeys hfield]
      exact ⟨fun _ => .inr hportable, fun _ => ih hbelow⟩

/-- An object with a token and a list. -/
def sampleData : JsonData Whole :=
  .obj [(js "token", .num 7), (js "list", .arr [.null, .str (js "x")])]

theorem sampleData_formed : Formed (AGENT_PROVIDER_DATA_DEPTH_LIMIT + 1) sampleData := by
  have hportable : ∀ key ∈ [js "token", js "list"],
      isPortableAgentProviderDataKey key = true := by decide
  refine ⟨by decide, by decide, fun field hfield => ?_⟩
  simp only [List.mem_cons, List.not_mem_nil, or_false] at hfield
  rcases hfield with rfl | rfl
  · exact ⟨hportable _ (by simp), trivial⟩
  · refine ⟨hportable _ (by simp), (by decide : 2 ≤ 100), fun item hitem => ?_⟩
    simp only [List.mem_cons, List.not_mem_nil, or_false] at hitem
    rcases hitem with rfl | rfl <;> trivial

set_option maxRecDepth 20000 in
/-- At the smallest limit the sample is kept whole, and the validator takes it back. -/
theorem bounded_provider_data_token :
    ∃ bounded, createBoundedAgentProviderData wholeNumerals jsonRealm sampleData 256 =
        .ok bounded ∧
      validateBoundedAgentProviderData wholeNumerals bounded = .ok bounded ∧
      Mirrors true jsonRealm (AGENT_PROVIDER_DATA_DEPTH_LIMIT + 1) sampleData bounded.data := by
  obtain ⟨⟨bounded, hbounded, -, -, hvalid, hmirrors⟩, -⟩ :=
    bounded_provider_data wholeNumerals jsonRealm sampleData 256 (by decide) (by decide)
  have hrun : createBoundedAgentProviderData wholeNumerals jsonRealm sampleData 256 = .ok
      { data := .obj [(js "token", .str (js "[REDACTED]")),
          (js "list", .arr [.null, .str (js "x")])]
        dataBytes := 40
        originalDataBytes := some 40
        truncated := false
        truncationReason := none
        redacted := true } := by rfl
  have heq := Except.ok.inj (hrun.symm.trans hbounded)
  have hsettled : Lasting jsonRealm sampleData bounded := .inl (settled_data sampleData_formed)
  have hexact : ∀ bytes, bounded.originalDataBytes = some bytes → isSafeCount bytes = true := by
    intro bytes hbytes
    rw [← heq] at hbytes
    cases hbytes
    rfl
  exact ⟨bounded, hbounded, hvalid hsettled hexact, hmirrors (heq ▸ rfl)⟩

/-! ## A hole -/

/-- The properties of a sparse array: its second element and its length. -/
def sparseAt (key : PropertyKey) : Option (Descriptor Bool) :=
  if key = .name (js "1") then some { enumerable := true, value := some false }
  else if key = .name (js "length") then some { enumerable := false, value := none }
  else none

def sparseKeys : List PropertyKey := [.name (js "1"), .name (js "length")]

theorem sparseKeys_nodup : sparseKeys.Nodup := by decide

/-- An array of length two with no element at its first index. -/
def sparseSeen : Inspection Bool where
  isArray := .ok true
  length := fun _ => .ok (.indices 2)
  ownKeys := .ok sparseKeys
  enumerated := fun key => .ok (sparseAt key)
  read := fun key => .ok (sparseAt key)
  prototype := .ok (.other (.ok (some (js "Array"))))
  ownKeys_nodup _ h := Except.ok.inj h ▸ sparseKeys_nodup

/-- The sparse array and the text that it holds. -/
def sparseRealm {ν : Type} : Realm Bool ν where
  inspect
    | true => .object sparseSeen
    | false => .str (js "present")
  same a b := a && b

set_option maxRecDepth 20000 in
/-- A sparse array is not flagged, yet the `null` in its data is not its own. -/
theorem sparse_array_not_itself :
    ∃ bounded, createBoundedAgentProviderData wholeNumerals sparseRealm true 256 = .ok bounded ∧
      bounded.truncated = false ∧
      ¬Mirrors false sparseRealm (AGENT_PROVIDER_DATA_DEPTH_LIMIT + 1) true bounded.data := by
  refine ⟨{ data := .arr [.null, .str (js "present")]
            dataBytes := 16
            originalDataBytes := some 16
            truncated := false
            truncationReason := none
            redacted := true }, by rfl, rfl, ?_⟩
  rintro (hleaf | ⟨seen, hseen, harray | hrecord⟩)
  · cases hleaf
  · cases hseen
    obtain ⟨length, items, hlength, hdata, hitems⟩ := harray.items
    cases hlength
    cases hdata
    have hhole : sparseSeen.read (.name (natDecimal 0)) = .ok none := by rfl
    cases hitems with
    | cons hfirst hrest =>
      rcases hfirst with ⟨hholes, -, -⟩ | ⟨enumerable, value, hread, -⟩
      · cases hholes
      · rw [hhole] at hread
        cases hread
  · cases hseen
    exact absurd hrecord.isArray (by decide)

end Evidence

end AgentSdk
