import AgentSdk.History.Records
import AgentSdk.Lib.Base64Url
import AgentSdk.Lib.JsonMeasure
import AgentSdk.Lib.JsonParse

/-!
# History continuations

The envelope that carries a driver's continuation: whom it belongs to, the
digest of the query, the continuation, and a signature under a key of the codec.

## Main results

* `decode_encode` — a continuation comes back in its own scope.
* `decode_eq_ok` — what a string must be to be decoded.
-/

namespace AgentSdk.History

open AgentSdk.Text

def MAX_CURSOR_BYTES : Nat := 65536

/-! ## The envelope -/

inductive CursorOperation
  | catalog | transcript | views | metadataSearch | contentSearch
  deriving DecidableEq

def CursorOperation.name : CursorOperation → JsString
  | .catalog => js "catalog"
  | .transcript => js "transcript"
  | .views => js "views"
  | .metadataSearch => js "metadataSearch"
  | .contentSearch => js "contentSearch"

def CursorOperation.all : List CursorOperation :=
  [.catalog, .transcript, .views, .metadataSearch, .contentSearch]

structure CursorScope where
  source : AgentHistorySourceIdentity
  operation : CursorOperation
  query : JsString
  deriving DecidableEq

def CursorScope.json (scope : CursorScope) : Json :=
  .obj [(js "source", .obj [(js "providerKey", .str scope.source.providerKey),
      (js "sourceId", .str scope.source.sourceId),
      (js "generation", .str scope.source.generation)]),
    (js "operation", .str scope.operation.name), (js "query", .str scope.query)]

def AgentHistorySourceIdentity.members (source : AgentHistorySourceIdentity) :
    List (JsString × JsonData Numeral) :=
  [(js "providerKey", .str source.providerKey), (js "sourceId", .str source.sourceId),
    (js "generation", .str source.generation)]

/-- `{ version: 1, ...scope, native }` in the order of `cursorSchema`. -/
def CursorScope.members (scope : CursorScope) (native : JsString) :
    List (JsString × JsonData Numeral) :=
  [(js "version", .num .one), (js "source", .obj scope.source.members),
    (js "operation", .str scope.operation.name), (js "query", .str scope.query),
    (js "native", .str native)]

def CursorScope.envelope (scope : CursorScope) (native : JsString) : JsonData Numeral :=
  .obj (scope.members native)

/-! ## `cursorSchema` -/

/-- The members of a strict object. -/
def strictFields (keys : List JsString) : JsonData Numeral →
    Option (List (JsString × JsonData Numeral))
  | .obj fields => if fields.all fun field => keys.contains field.1 then some fields else none
  | _ => none

def stringField (fields : List (JsString × JsonData Numeral)) (key : JsString)
    (valid : JsString → Bool) : Option JsString :=
  match JsonData.member? fields key with
  | some (.str value) => if valid value then some value else none
  | _ => none

/-- `max(limit)` -/
def within (limit : Nat) (value : JsString) : Bool := decide (value.length ≤ limit)

/-- `/^[a-f0-9]{64}$/u` -/
def isQueryDigest (value : JsString) : Bool :=
  value.length == 64 &&
    value.all fun u => isDigit u || (decide (97 ≤ u.toNat) && decide (u.toNat ≤ 102))

def isNative (value : JsString) : Bool := decide (1 ≤ value.length) && within 32768 value

def parseSource (value : JsonData Numeral) : Option AgentHistorySourceIdentity := do
  let fields ← strictFields [js "providerKey", js "sourceId", js "generation"] value
  let providerKey ← stringField fields (js "providerKey") (within 100)
  let sourceId ← stringField fields (js "sourceId") (within 128)
  let generation ← stringField fields (js "generation") (within 128)
  pure ⟨providerKey, sourceId, generation⟩

def isVersion : JsonData Numeral → Bool
  | .num numeral => numeral.isOne
  | _ => false

def parseCursor (value : JsonData Numeral) : Option (CursorScope × JsString) := do
  let fields ← strictFields
    [js "version", js "source", js "operation", js "query", js "native"] value
  let version ← JsonData.member? fields (js "version")
  if isVersion version = false then none
  else
    let source ← JsonData.member? fields (js "source")
    let source ← parseSource source
    let name ← stringField fields (js "operation") fun _ => true
    let operation ← CursorOperation.all.find? fun operation => operation.name == name
    let query ← stringField fields (js "query") isQueryDigest
    let native ← stringField fields (js "native") isNative
    pure (⟨source, operation, query⟩, native)

/-- What the schema asks of an envelope. -/
def CursorScope.accepts (scope : CursorScope) (native : JsString) : Bool :=
  within 100 scope.source.providerKey && within 128 scope.source.sourceId &&
    within 128 scope.source.generation && isQueryDigest scope.query && isNative native

theorem find_name (operation : CursorOperation) :
    CursorOperation.all.find? (fun other => other.name == operation.name) = some operation := by
  cases operation <;> decide

theorem stringField_of {f : List (JsString × JsonData Numeral)} {k s : JsString}
    (h : JsonData.member? f k = some (.str s)) (valid : JsString → Bool) :
    stringField f k valid = if valid s then some s else none := by
  simp only [stringField, h]

theorem parseSource_members (source : AgentHistorySourceIdentity) :
    parseSource (.obj source.members) =
      if within 100 source.providerKey && within 128 source.sourceId &&
        within 128 source.generation then some source else none := by
  have hfields : strictFields [js "providerKey", js "sourceId", js "generation"]
      (.obj source.members) = some source.members := rfl
  simp only [parseSource, hfields, Option.bind_eq_bind, Option.bind_some,
    stringField_of (f := source.members) (k := js "providerKey") (s := source.providerKey) rfl,
    stringField_of (f := source.members) (k := js "sourceId") (s := source.sourceId) rfl,
    stringField_of (f := source.members) (k := js "generation") (s := source.generation) rfl]
  cases within 100 source.providerKey <;> cases within 128 source.sourceId <;>
    cases within 128 source.generation <;> rfl

/-- An envelope passes the schema exactly when its strings are within the bounds. -/
theorem parseCursor_envelope (scope : CursorScope) (native : JsString) :
    parseCursor (scope.envelope native) =
      if scope.accepts native then some (scope, native) else none := by
  have hfields : strictFields
      [js "version", js "source", js "operation", js "query", js "native"]
      (.obj (scope.members native)) = some (scope.members native) := rfl
  have hversion : JsonData.member? (scope.members native) (js "version") = some (.num .one) := rfl
  have hone : isVersion (.num .one) = true := by decide
  have hsource : JsonData.member? (scope.members native) (js "source") =
      some (.obj scope.source.members) := rfl
  simp only [parseCursor, CursorScope.envelope, hfields, hversion, hone, hsource,
    parseSource_members, find_name, Option.bind_eq_bind, Option.bind_some, Bool.true_eq_false,
    if_false, if_true,
    stringField_of (f := scope.members native) (k := js "operation")
      (s := scope.operation.name) rfl,
    stringField_of (f := scope.members native) (k := js "query") (s := scope.query) rfl,
    stringField_of (f := scope.members native) (k := js "native") (s := native) rfl]
  unfold CursorScope.accepts
  cases within 100 scope.source.providerKey && within 128 scope.source.sourceId &&
      within 128 scope.source.generation <;>
    cases isQueryDigest scope.query <;> cases isNative native <;> rfl

/-! ## The codec -/

/-- The keyed hash of a codec, with its key. -/
structure HistoryCursorCodec where
  «seal» : JsString → Bytes
  length_seal : ∀ payload, («seal» payload).length = 32

def envelopeExceeded : AgentHistoryError :=
  ⟨.limit_exhausted, js "The native continuation exceeds the supported cursor envelope."⟩

def invalidCursor : AgentHistoryError :=
  ⟨.invalid_cursor,
    js "History continuation does not match this source instance, operation and query."⟩

def cursorPayload (scope : CursorScope) (native : JsString) : JsString :=
  Base64Url.encode (Utf8.encode ((scope.envelope native).stringify Numeral.text))

namespace HistoryCursorCodec

variable (codec : HistoryCursorCodec)

/-- A payload with its signature. -/
def signed (payload : JsString) : JsString :=
  payload ++ 46 :: Base64Url.encode (codec.seal payload)

def encode (scope : CursorScope) (native : JsString) : Except AgentHistoryError JsString :=
  match parseCursor (scope.envelope native) with
  | none => .error envelopeExceeded
  | some (scope, native) =>
    let encoded := codec.signed (cursorPayload scope native)
    if MAX_CURSOR_BYTES < encoded.length then .error envelopeExceeded else .ok encoded

end HistoryCursorCodec

/-- `/^[A-Za-z0-9_-]+\.[A-Za-z0-9_-]{43}$/u` and the split at the one dot. -/
def cutCursor (encoded : JsString) : Option (JsString × JsString) :=
  let payload := encoded.takeWhile Base64Url.isDigit64
  match encoded.dropWhile Base64Url.isDigit64 with
  | [] => none
  | dot :: signature =>
    if payload ≠ [] ∧ dot = 46 ∧ signature.length = 43 ∧
        signature.all Base64Url.isDigit64 = true then
      some (payload, signature)
    else none

def readPayload (payload : JsString) : Option (CursorScope × JsString) := do
  let buffer := Base64Url.decode payload
  if Base64Url.encode buffer ≠ payload then none
  else
    let text ← Utf8.decodeText buffer
    let value ← JsonData.parse text
    parseCursor value

namespace HistoryCursorCodec

variable (codec : HistoryCursorCodec)

def decode (scope : CursorScope) (encoded : JsString) : Except AgentHistoryError JsString :=
  if MAX_CURSOR_BYTES < encoded.length then .error invalidCursor
  else
    match cutCursor encoded with
    | none => .error invalidCursor
    | some (payload, signature) =>
      let supplied := Base64Url.decode signature
      let expected := codec.seal payload
      if supplied.length ≠ expected.length ∨ Base64Url.encode supplied ≠ signature ∨
          supplied ≠ expected then .error invalidCursor
      else
        match readPayload payload with
        | none => .error invalidCursor
        | some (actual, native) =>
          if queryDigest actual.json ≠ queryDigest scope.json then .error invalidCursor
          else .ok native

end HistoryCursorCodec

/-! ## Payloads -/

theorem numeral_ascii (numeral : Numeral) : ∀ u ∈ numeral.text, u.toNat < 0x80 := by
  intro u hu
  have hunit := List.all_eq_true.1 numeral.units u hu
  simp only [isNumeralUnit, isDigit, Bool.or_eq_true, Bool.and_eq_true, decide_eq_true_eq,
    beq_iff_eq] at hunit
  rcases hunit with ((((h | rfl) | rfl) | rfl) | rfl) | rfl
  · omega
  all_goals decide

/-- **A payload is read back.** -/
theorem readPayload_cursorPayload {scope : CursorScope} {native : JsString}
    (h : scope.accepts native = true) :
    readPayload (cursorPayload scope native) = some (scope, native) := by
  have hsized := JsonData.stringify_sized numeral_ascii (scope.envelope native)
  have htext : Utf8.decodeText (Utf8.encode ((scope.envelope native).stringify Numeral.text)) =
      some ((scope.envelope native).stringify Numeral.text) := by
    rw [Utf8.decodeText, Utf8.decode_encode hsized.wellFormed]
    rfl
  simp only [readPayload, cursorPayload, Base64Url.decode_encode, ne_eq, not_true, if_false,
    htext, Option.bind_eq_bind, Option.bind_some, JsonData.parse_stringify, parseCursor_envelope,
    h, if_true]

theorem cutCursor_signed (codec : HistoryCursorCodec) {payload : JsString}
    (hnil : payload ≠ []) (hunits : ∀ u ∈ payload, Base64Url.isDigit64 u = true) :
    cutCursor (codec.signed payload) =
      some (payload, Base64Url.encode (codec.seal payload)) := by
  have hdot : Base64Url.isDigit64 46 = false := by decide
  have htake : (codec.signed payload).takeWhile Base64Url.isDigit64 = payload := by
    rw [HistoryCursorCodec.signed, List.takeWhile_append_of_pos hunits]
    simp [hdot]
  have hdrop : (codec.signed payload).dropWhile Base64Url.isDigit64 =
      46 :: Base64Url.encode (codec.seal payload) := by
    rw [HistoryCursorCodec.signed, List.dropWhile_append_of_pos hunits]
    simp [hdot]
  have hlength : (Base64Url.encode (codec.seal payload)).length = 43 := by
    rw [Base64Url.length_encode, codec.length_seal]
  have hsignature : (Base64Url.encode (codec.seal payload)).all Base64Url.isDigit64 = true :=
    List.all_eq_true.2 fun u hu => Base64Url.isDigit64_of_mem_encode hu
  simp only [cutCursor, htake, hdrop]
  rw [if_pos ⟨hnil, trivial, hlength, hsignature⟩]

/-- What the pattern matches is a payload, a dot and a signature. -/
theorem eq_of_cutCursor {encoded payload signature : JsString}
    (h : cutCursor encoded = some (payload, signature)) :
    encoded = payload ++ 46 :: signature := by
  have hsplit := List.takeWhile_append_dropWhile (p := Base64Url.isDigit64) (l := encoded)
  unfold cutCursor at h
  cases hdrop : encoded.dropWhile Base64Url.isDigit64 with
  | nil => simp [hdrop] at h
  | cons dot rest =>
    simp only [hdrop] at h
    split at h
    next hmatch =>
      cases h
      rw [hdrop, hmatch.2.1] at hsplit
      exact hsplit.symm
    · cases h

theorem cursorPayload_ne_nil (scope : CursorScope) (native : JsString) :
    cursorPayload scope native ≠ [] := by
  intro h
  have hdecoded := Base64Url.decode_encode
    (Utf8.encode ((scope.envelope native).stringify Numeral.text))
  rw [cursorPayload] at h
  rw [h] at hdecoded
  have hlength := Utf8.length_encode ((scope.envelope native).stringify Numeral.text)
  rw [← hdecoded] at hlength
  have hpos := length_le_utf8Length ((scope.envelope native).stringify Numeral.text)
  rw [← hlength] at hpos
  simp [CursorScope.envelope, JsonData.stringify, Base64Url.decode, Base64Url.join] at hpos

/-! ## What a codec promises -/

namespace HistoryCursorCodec

variable {codec : HistoryCursorCodec} {scope other : CursorScope} {native encoded : JsString}

theorem encode_eq_ok : codec.encode scope native = .ok encoded ↔
    scope.accepts native = true ∧ encoded = codec.signed (cursorPayload scope native) ∧
      encoded.length ≤ MAX_CURSOR_BYTES := by
  unfold encode
  rw [parseCursor_envelope]
  cases haccepts : scope.accepts native with
  | false => simp
  | true =>
    simp only [if_true, true_and]
    by_cases hlength : MAX_CURSOR_BYTES < (codec.signed (cursorPayload scope native)).length
    · rw [if_pos hlength]
      constructor
      · intro h
        cases h
      · rintro ⟨rfl, hle⟩
        omega
    · rw [if_neg hlength]
      constructor
      · intro h
        cases h
        exact ⟨rfl, by omega⟩
      · rintro ⟨rfl, -⟩
        rfl

/-- Encoding fails in one way. -/
theorem encode_eq_error {error : AgentHistoryError} (h : codec.encode scope native = .error error) :
    error = envelopeExceeded ∧ (scope.accepts native = true →
      MAX_CURSOR_BYTES < (codec.signed (cursorPayload scope native)).length) := by
  unfold encode at h
  rw [parseCursor_envelope] at h
  cases haccepts : scope.accepts native with
  | false =>
    simp only [haccepts, Bool.false_eq_true, if_false] at h
    cases h
    exact ⟨rfl, fun hfalse => by cases hfalse⟩
  | true =>
    simp only [haccepts, if_true] at h
    split at h
    next hlength =>
      cases h
      exact ⟨rfl, fun _ => hlength⟩
    · cases h

theorem encode_long (haccepts : scope.accepts native = true)
    (hlong : MAX_CURSOR_BYTES < (codec.signed (cursorPayload scope native)).length) :
    codec.encode scope native = .error envelopeExceeded := by
  rw [encode, parseCursor_envelope, haccepts, if_pos rfl]
  exact if_pos hlong

/-- Decoding fails in one way. -/
theorem decode_eq_error {error : AgentHistoryError}
    (h : codec.decode scope encoded = .error error) : error = invalidCursor := by
  unfold decode at h
  split at h
  · cases h
    rfl
  · split at h
    · cases h
      rfl
    · simp only at h
      split at h
      · cases h
        rfl
      · split at h
        · cases h
          rfl
        · split at h
          · cases h
            rfl
          · cases h

/-- **A decoded string** is a signed payload of the same scope. -/
theorem decode_eq_ok : codec.decode scope encoded = .ok native ↔
    ∃ payload actual, encoded = codec.signed payload ∧ encoded.length ≤ MAX_CURSOR_BYTES ∧
      cutCursor encoded = some (payload, Base64Url.encode (codec.seal payload)) ∧
      readPayload payload = some (actual, native) ∧
      queryDigest actual.json = queryDigest scope.json := by
  constructor
  · intro h
    unfold decode at h
    split at h
    · cases h
    next hlength =>
      split at h
      · cases h
      next payload signature hcut =>
        simp only at h
        split at h
        · cases h
        next hsignature =>
          simp only [not_or, ne_eq, Decidable.not_not] at hsignature
          obtain ⟨-, hcanonical, hsame⟩ := hsignature
          rw [hsame] at hcanonical
          split at h
          · cases h
          next actual found hread =>
            split at h
            · cases h
            next hdigest =>
              cases h
              refine ⟨payload, actual, ?_, by omega, ?_, hread, Decidable.not_not.1 hdigest⟩
              · rw [eq_of_cutCursor hcut, signed, hcanonical]
              · rw [hcut, hcanonical]
  · rintro ⟨payload, actual, -, hlength, hcut, hread, hdigest⟩
    unfold decode
    rw [if_neg (by omega), hcut]
    simp only [Base64Url.decode_encode, ne_eq, not_true, or_self, if_false, hread, hdigest]

/-- **A continuation comes back** in the scope it was encoded for, and in no scope with
another digest. -/
theorem decode_encode (h : codec.encode scope native = .ok encoded) :
    codec.decode other encoded =
      if queryDigest scope.json = queryDigest other.json then .ok native
      else .error invalidCursor := by
  obtain ⟨haccepts, rfl, hlength⟩ := encode_eq_ok.1 h
  have hcut := cutCursor_signed codec (cursorPayload_ne_nil scope native) fun u hu =>
    Base64Url.isDigit64_of_mem_encode hu
  have hread := readPayload_cursorPayload haccepts
  by_cases hdigest : queryDigest scope.json = queryDigest other.json
  · rw [if_pos hdigest]
    exact decode_eq_ok.2 ⟨_, scope, rfl, hlength, hcut, hread, hdigest⟩
  · rw [if_neg hdigest]
    cases hdecode : codec.decode other (codec.signed (cursorPayload scope native)) with
    | error error => rw [decode_eq_error hdecode]
    | ok found =>
      obtain ⟨payload, actual, -, -, hcut', hread', hsame⟩ := decode_eq_ok.1 hdecode
      rw [hcut] at hcut'
      cases hcut'
      rw [hread] at hread'
      cases hread'
      exact absurd hsame hdigest

end HistoryCursorCodec

end AgentSdk.History
