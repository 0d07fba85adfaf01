import AgentSdk.History.Cursor
import AgentSdk.Lib.TextOrder

/-!
# Pages of a history source

A driver decides whether a page fits before its continuation is wrapped:
`nativePageFits` allows for the envelope with a third of the continuation and a
fixed allowance.  `traversal` checks a page and wraps the continuation.

## Main results

* `wrapped_le` — the allowance covers the envelope.
* `page_error` — how a page that fits can still be refused.
-/

namespace AgentSdk.History

open AgentSdk.Text

/-! ## Pages -/

/-- The limits that paging reads. -/
structure AgentHistoryLimits where
  pageSize : Nat
  pageBytes : Nat

/-- A page, with its members besides the items and the continuation. -/
structure AgentHistoryPage (ν : Type) where
  items : List (JsonData ν)
  nextCursor : Option JsString
  others : List (JsString × JsonData ν)

/-- The page as an object; the order of its members does not count. -/
def AgentHistoryPage.json {ν : Type} (page : AgentHistoryPage ν) : JsonData ν :=
  .obj ((js "items", .arr page.items) ::
    ((page.nextCursor.map fun cursor => (js "nextCursor", JsonData.str cursor)).toList ++
      page.others))

/-- The members of an input besides its continuation and its limit. -/
structure QueryFields where
  members : List (JsString × Json)
  keys : (members.map Prod.fst).Nodup
  unlimited : js "limit" ∉ members.map Prod.fst

/-- `{ ...query, limit }` -/
def QueryFields.query (fields : QueryFields) (limit : Nat) : Json :=
  .obj (fields.members ++ [(js "limit", .num limit)])

structure TraversalInput where
  cursor : Option JsString
  limit : Option Nat
  fields : QueryFields

def requestedPageExceeds : AgentHistoryError :=
  ⟨.limit_exhausted, js "Requested history page exceeds this source limit."⟩

def tooManyRecords : AgentHistoryError :=
  ⟨.limit_exhausted, js "Native history returned more records than requested."⟩

def notAdvanced : AgentHistoryError :=
  ⟨.native_failure, js "Native history did not advance its continuation."⟩

def outputExceeds : AgentHistoryError :=
  ⟨.limit_exhausted, js "The history result exceeds its output byte limit."⟩

def traversalScope (source : AgentHistorySourceIdentity) (operation : CursorOperation)
    (fields : QueryFields) (limit : Nat) : CursorScope :=
  ⟨source, operation, queryDigest (fields.query limit)⟩

structure Traversal where
  scope : CursorScope
  limit : Nat
  nativeCursor : Option JsString
  limits : AgentHistoryLimits

def traversal (codec : HistoryCursorCodec) (source : AgentHistorySourceIdentity)
    (operation : CursorOperation) (input : TraversalInput) (limits : AgentHistoryLimits) :
    Except AgentHistoryError Traversal :=
  let limit := input.limit.getD limits.pageSize
  if limits.pageSize < limit then .error requestedPageExceeds
  else
    let scope := traversalScope source operation input.fields limit
    match input.cursor with
    | none => .ok ⟨scope, limit, none, limits⟩
    | some cursor => do
        let native ← codec.decode scope cursor
        .ok ⟨scope, limit, some native, limits⟩

section Bytes

variable {ν : Type} (spell : ν → JsString)

/-- `Buffer.byteLength(JSON.stringify(value))` -/
def byteLength (value : JsonData ν) : Nat := utf8Length (value.stringify spell)

def enforcePageBytes (value : AgentHistoryPage ν) (maximum : Nat) :
    Except AgentHistoryError (AgentHistoryPage ν) :=
  if maximum < byteLength spell value.json then .error outputExceeds else .ok value

def nativePageFits (value : JsonData ν) (pageBytes : Nat) (nextCursor : Option JsString) : Bool :=
  let cursorGrowth := match nextCursor with
    | none => 0
    | some native => (byteLength spell (.str native) + 2) / 3
  decide (byteLength spell value + 2048 + cursorGrowth ≤ pageBytes)

def Traversal.page (t : Traversal) (codec : HistoryCursorCodec) (page : AgentHistoryPage ν) :
    Except AgentHistoryError (AgentHistoryPage ν) :=
  if t.limit < page.items.length then .error tooManyRecords
  else if t.nativeCursor ≠ none ∧ page.nextCursor = t.nativeCursor then .error notAdvanced
  else
    match page.nextCursor with
    | none => enforcePageBytes spell page t.limits.pageBytes
    | some native =>
      match codec.encode t.scope native with
      | .error error => .error error
      | .ok nextCursor =>
        enforcePageBytes spell { page with nextCursor := some nextCursor } t.limits.pageBytes

end Bytes

/-! ## The size of an envelope -/

/-- A string of the schemas of identities: bounded and free of control characters.  The
schemas do not exclude lone surrogates, which take six bytes in JSON. -/
structure Bounded (limit : Nat) (s : JsString) : Prop where
  length : s.length ≤ limit
  visible : ∀ u ∈ s, 0x20 ≤ u.toNat
  scalars : wellFormed s = true

/-- An identity within its declared limits. -/
structure Declared (source : AgentHistorySourceIdentity) : Prop where
  providerKey : Bounded 100 source.providerKey
  sourceId : Bounded 128 source.sourceId
  generation : Bounded 128 source.generation

/-- Three bytes a unit suffice for visible well-formed text. -/
theorem Bounded.escapeBytes_le {limit : Nat} {s : JsString} (h : Bounded limit s) :
    Json.escapeBytes s ≤ 3 * limit := by
  have hunit : ∀ u, 0x20 ≤ u.toNat → isSurrogate u = false → Json.escapeUnitBytes u ≤ 3 := by
    intro u hlow hsurrogate
    have hle := unitBytes_le u
    unfold Json.escapeUnitBytes
    split
    · omega
    · rw [if_neg (by simp [hsurrogate]; omega)]
      exact hle
  have hbytes : ∀ s : JsString, (∀ u ∈ s, 0x20 ≤ u.toNat) → wellFormed s = true →
      Json.escapeBytes s ≤ 3 * s.length := by
    intro s
    induction s using Json.escape.induct with
    | case1 => simp [Json.escapeBytes]
    | case2 u =>
      intro hlow hwell
      have hu := hunit u (hlow u (by simp)) (by simpa [wellFormed] using hwell)
      simpa [Json.escapeBytes] using hu
    | case3 u v rest hpair ih =>
      intro hlow hwell
      simp only [wellFormed, hpair, if_true] at hwell
      have hrest := ih (fun w hw => hlow w (by simp [hw])) hwell
      simp only [Json.escapeBytes, hpair, if_true, List.length_cons]
      omega
    | case4 u v rest hpair ih =>
      intro hlow hwell
      simp only [wellFormed, hpair, Bool.false_eq_true, if_false, Bool.and_eq_true,
        Bool.not_eq_true'] at hwell
      have hu := hunit u (hlow u (by simp)) hwell.1
      have hrest := ih (fun w hw => hlow w (List.mem_cons_of_mem u hw)) hwell.2
      simp only [Json.escapeBytes, hpair, Bool.false_eq_true, if_false, List.length_cons]
        at hrest ⊢
      omega
  have hle := hbytes s h.visible h.scalars
  have hlength := h.length
  omega

theorem isPlain_of_above {u : UInt16} (hlow : 0x2D ≤ u.toNat) (hhigh : u.toNat < 0x80)
    (hslash : u ≠ 92) : Json.isPlain u = true := by
  have hquote : u ≠ 34 := by
    rintro rfl
    exact absurd hlow (by decide)
  have hvisible : 0x20 ≤ u.toNat := by omega
  simp [Json.isPlain, hvisible, hhigh, hquote, hslash]

theorem quoteBytes_query {query : JsString} (h : isQueryDigest query = true) :
    Json.quoteBytes query = 66 := by
  simp only [isQueryDigest, Bool.and_eq_true, beq_iff_eq, List.all_eq_true] at h
  have hplain : query.all Json.isPlain = true := by
    refine List.all_eq_true.2 fun u hu => ?_
    have hunit := h.2 u hu
    simp only [isDigit, Bool.or_eq_true, Bool.and_eq_true, decide_eq_true_eq] at hunit
    refine isPlain_of_above (by omega) (by omega) ?_
    rintro rfl
    exact absurd hunit (by decide)
  rw [Json.quoteBytes, Json.escapeBytes_plain query hplain, h.1]

/-- The size of the envelope of a declared identity, the continuation apart. -/
theorem bytes_envelope_le {scope : CursorScope} (hsource : Declared scope.source)
    (hquery : isQueryDigest scope.query = true) (native : JsString) :
    (scope.envelope native).bytes Numeral.text ≤ 1253 + Json.quoteBytes native := by
  have hproviderKey := hsource.providerKey.escapeBytes_le
  have hsourceId := hsource.sourceId.escapeBytes_le
  have hgeneration := hsource.generation.escapeBytes_le
  have hoperation : Json.quoteBytes scope.operation.name ≤ 16 := by
    cases scope.operation <;> decide
  have hkeys : Json.quoteBytes (js "version") = 9 ∧ Json.quoteBytes (js "source") = 8 ∧
      Json.quoteBytes (js "operation") = 11 ∧ Json.quoteBytes (js "query") = 7 ∧
      Json.quoteBytes (js "native") = 8 ∧ Json.quoteBytes (js "providerKey") = 13 ∧
      Json.quoteBytes (js "sourceId") = 10 ∧ Json.quoteBytes (js "generation") = 12 := by
    decide
  have hone : Numeral.one.text.length = 1 := rfl
  simp only [CursorScope.envelope, CursorScope.members, AgentHistorySourceIdentity.members,
    JsonData.bytes, JsonData.fieldsBytes, List.length_cons, List.length_nil, hkeys, hone,
    quoteBytes_query hquery]
  have hquotes : ∀ s, Json.quoteBytes s = 2 + Json.escapeBytes s := fun _ => rfl
  rw [hquotes scope.source.providerKey, hquotes scope.source.sourceId,
    hquotes scope.source.generation]
  omega

/-- The length of a wrapped continuation. -/
def wrappedLength (scope : CursorScope) (native : JsString) : Nat :=
  (4 * byteLength Numeral.text (scope.envelope native) + 2) / 3 + 44

theorem length_signed (codec : HistoryCursorCodec) (scope : CursorScope) (native : JsString) :
    (codec.signed (cursorPayload scope native)).length = wrappedLength scope native := by
  simp only [HistoryCursorCodec.signed, cursorPayload, List.length_append, List.length_cons,
    Base64Url.length_encode, Utf8.length_encode, codec.length_seal, wrappedLength, byteLength]

theorem quoteBytes_signed (codec : HistoryCursorCodec) (scope : CursorScope) (native : JsString) :
    Json.quoteBytes (codec.signed (cursorPayload scope native)) =
      2 + wrappedLength scope native := by
  have hplain : (codec.signed (cursorPayload scope native)).all Json.isPlain = true := by
    refine List.all_eq_true.2 fun u hu => ?_
    have hdigit : ∀ {bytes : Bytes}, u ∈ Base64Url.encode bytes → Json.isPlain u = true := by
      intro bytes hmem
      have hrange := Base64Url.toNat_lt_of_isDigit64 (Base64Url.isDigit64_of_mem_encode hmem)
      exact isPlain_of_above hrange.1 hrange.2.1 hrange.2.2.2
    rw [HistoryCursorCodec.signed, List.mem_append, List.mem_cons] at hu
    rcases hu with hu | rfl | hu
    · exact hdigit hu
    · decide
    · exact hdigit hu
  rw [Json.quoteBytes, Json.escapeBytes_plain _ hplain, length_signed]

/-- **The allowance covers the envelope**: a third of the continuation and 2048 bytes. -/
theorem wrapped_le {scope : CursorScope} (hsource : Declared scope.source)
    (hquery : isQueryDigest scope.query = true) (native : JsString) :
    2 + wrappedLength scope native ≤
      Json.quoteBytes native + 2048 + (Json.quoteBytes native + 2) / 3 := by
  have hbytes := bytes_envelope_le hsource hquery native
  have hsize : byteLength Numeral.text (scope.envelope native) =
      (scope.envelope native).bytes Numeral.text := JsonData.stringify_bytes numeral_ascii _
  unfold wrappedLength
  rw [hsize]
  omega

theorem isQueryDigest_queryDigest (input : Json) : isQueryDigest (queryDigest input) = true := by
  have hunits : ∀ u ∈ queryDigest input,
      (isDigit u || (decide (97 ≤ u.toNat) && decide (u.toNat ≤ 102))) = true := by
    intro u hu
    have hrange := Sha256.hexDigest_units hu
    simp only [isDigit, Bool.or_eq_true, Bool.and_eq_true, decide_eq_true_eq]
    omega
  simp only [isQueryDigest, queryDigest, Sha256.length_hexDigest, beq_self_eq_true, Bool.true_and]
  exact List.all_eq_true.2 hunits

/-! ## Pages that fit -/

section Fits

variable {ν : Type} {spell : ν → JsString}

/-- Replacing the continuation changes the size of a page by the sizes of the two. -/
theorem byteLength_replace (hspell : ∀ n, ∀ u ∈ spell n, u.toNat < 0x80)
    {page : AgentHistoryPage ν} {native : JsString} (hnext : page.nextCursor = some native)
    (wrapped : JsString) :
    byteLength spell ({ page with nextCursor := some wrapped } : AgentHistoryPage ν).json +
        Json.quoteBytes native =
      byteLength spell page.json + Json.quoteBytes wrapped := by
  simp only [byteLength, JsonData.stringify_bytes hspell, AgentHistoryPage.json, hnext,
    JsonData.bytes, JsonData.fieldsBytes, Option.map_some, Option.toList_some, List.cons_append,
    List.nil_append, List.length_cons]
  omega

theorem page_of_refused {t : Traversal} {codec : HistoryCursorCodec} {page : AgentHistoryPage ν}
    {native : JsString} {error : AgentHistoryError} (hmany : ¬t.limit < page.items.length)
    (hadvanced : ¬(t.nativeCursor ≠ none ∧ page.nextCursor = t.nativeCursor))
    (hnext : page.nextCursor = some native)
    (hencode : codec.encode t.scope native = .error error) :
    t.page spell codec page = .error error := by
  rw [Traversal.page, if_neg hmany, if_neg hadvanced, hnext]
  simp only [hencode]

/-- **How a page that fits can be refused**: for its number of records, for a continuation
that did not advance, or for one that exceeds the envelope. -/
theorem page_error {t : Traversal} {codec : HistoryCursorCodec} {page : AgentHistoryPage ν}
    {error : AgentHistoryError} (hspell : ∀ n, ∀ u ∈ spell n, u.toNat < 0x80)
    (hsource : Declared t.scope.source) (hquery : isQueryDigest t.scope.query = true)
    (hfits : nativePageFits spell page.json t.limits.pageBytes page.nextCursor = true)
    (h : t.page spell codec page = .error error) :
    (error = tooManyRecords ∧ t.limit < page.items.length) ∨
      (error = notAdvanced ∧ page.nextCursor = t.nativeCursor) ∨
      ∃ native, page.nextCursor = some native ∧ error = envelopeExceeded ∧
        (isNative native = true → MAX_CURSOR_BYTES < wrappedLength t.scope native) := by
  unfold Traversal.page at h
  split at h
  next hmany =>
    cases h
    exact .inl ⟨rfl, hmany⟩
  · split at h
    next hsame =>
      cases h
      exact .inr (.inl ⟨rfl, hsame.2⟩)
    · simp only [nativePageFits, decide_eq_true_eq] at hfits
      cases hnext : page.nextCursor with
      | none =>
        simp only [hnext, enforcePageBytes] at h hfits
        rw [if_neg (by omega)] at h
        cases h
      | some native =>
        simp only [hnext] at h hfits
        cases hencode : codec.encode t.scope native with
        | error refused =>
          simp only [hencode] at h
          cases h
          obtain ⟨hrefused, hlong⟩ := HistoryCursorCodec.encode_eq_error hencode
          refine .inr (.inr ⟨native, rfl, hrefused, fun hnative => ?_⟩)
          rw [length_signed] at hlong
          refine hlong ?_
          have hproviderKey := hsource.providerKey.length
          have hsourceId := hsource.sourceId.length
          have hgeneration := hsource.generation.length
          simp [CursorScope.accepts, within, hproviderKey, hsourceId, hgeneration, hquery,
            hnative]
        | ok wrapped =>
          -- the page with the wrapped continuation is within its bytes
          obtain ⟨-, hwrapped, -⟩ := HistoryCursorCodec.encode_eq_ok.1 hencode
          have hreplace := byteLength_replace hspell hnext wrapped
          have hle := wrapped_le hsource hquery native
          have hnative : byteLength spell (.str native) = Json.quoteBytes native :=
            JsonData.stringify_bytes hspell _
          rw [hwrapped, quoteBytes_signed, ← hwrapped] at hreplace
          simp only [hencode, enforcePageBytes] at h
          rw [if_neg (by omega)] at h
          cases h

end Fits

/-! ## The envelope -/

/-- The digests of these data collide only for equal data. -/
def CollisionFree (data : List Json) : Prop :=
  ∀ v ∈ data, ∀ w ∈ data, queryDigest v = queryDigest w →
    Json.canonicalText v = Json.canonicalText w

/-- Some member has no equal among the others. -/
def Lacks (members others : List (JsString × Json)) : Prop :=
  ∃ key value, (key, value) ∈ members ∧
    ∀ other, (key, other) ∈ others → value.canonicalize ≠ other.canonicalize

theorem canonicalize_scope (scope : CursorScope) :
    scope.json.canonicalize =
      .obj [(js "operation", .str scope.operation.name), (js "query", .str scope.query),
        (js "source", .obj [(js "generation", .str scope.source.generation),
          (js "providerKey", .str scope.source.providerKey),
          (js "sourceId", .str scope.source.sourceId)])] := by
  simp only [CursorScope.json, Json.canonicalize, Json.canonicalizeFields]
  rfl

theorem name_inj {operation other : CursorOperation} (h : operation.name = other.name) :
    operation = other := by
  revert h
  cases operation <;> cases other <;> decide

/-- Scopes with one digest are one scope. -/
theorem scope_inj {scope other : CursorScope} (h : CollisionFree [scope.json, other.json])
    (hdigest : queryDigest scope.json = queryDigest other.json) : scope = other := by
  obtain ⟨⟨providerKey, sourceId, generation⟩, operation, query⟩ := scope
  obtain ⟨⟨providerKey', sourceId', generation'⟩, operation', query'⟩ := other
  have hcanonical := Json.canonicalText_inj (h _ (by simp) _ (by simp) hdigest)
  rw [canonicalize_scope, canonicalize_scope] at hcanonical
  simp only [Json.obj.injEq, List.cons.injEq, Prod.mk.injEq, Json.str.injEq, true_and,
    and_true] at hcanonical
  obtain ⟨hoperation, rfl, rfl, rfl, rfl⟩ := hcanonical
  rw [name_inj hoperation]

/-- Queries that differ in a member or in the limit have different digests. -/
theorem query_ne {fields others : QueryFields} {limit limit' : Nat}
    (h : CollisionFree [fields.query limit, others.query limit'])
    (hdiffer : limit ≠ limit' ∨ Lacks fields.members others.members ∨
      Lacks others.members fields.members) :
    queryDigest (fields.query limit) ≠ queryDigest (others.query limit') := by
  intro hdigest
  have hcanonical := Json.canonicalText_inj (h _ (by simp) _ (by simp) hdigest)
  have hmembers : ∀ {fields others : QueryFields} {limit limit' : Nat},
      (fields.query limit).canonicalize = (others.query limit').canonicalize →
      ¬Lacks fields.members others.members := by
    rintro fields others limit limit' hsame ⟨key, value, hmem, hlacks⟩
    obtain ⟨other, hother, hvalue⟩ := Json.exists_of_canonicalize_eq hsame
      (List.mem_append_left [(js "limit", Json.num limit)] hmem)
    rcases List.mem_append.1 hother with hin | hlimit
    · exact hlacks other hin hvalue
    · -- the limit has a key of its own
      rw [List.mem_singleton, Prod.mk.injEq] at hlimit
      exact fields.unlimited (List.mem_map.2 ⟨(key, value), hmem, hlimit.1⟩)
  rcases hdiffer with hlimit | hlacks | hlacks
  · obtain ⟨other, hother, hvalue⟩ := Json.exists_of_canonicalize_eq hcanonical
      (List.mem_append_right fields.members (List.mem_singleton.2 rfl))
    rcases List.mem_append.1 hother with hin | hsame
    · exact others.unlimited (List.mem_map.2 ⟨_, hin, rfl⟩)
    · rw [List.mem_singleton, Prod.mk.injEq] at hsame
      rw [hsame.2] at hvalue
      simp only [Json.canonicalize, Json.num.injEq, Nat.cast_inj] at hvalue
      exact hlimit hvalue
  · exact hmembers hcanonical hlacks
  · exact hmembers hcanonical.symm hlacks

theorem traversal_ok {codec : HistoryCursorCodec} {source : AgentHistorySourceIdentity}
    {operation : CursorOperation} {input : TraversalInput} {limits : AgentHistoryLimits}
    {t : Traversal} (h : traversal codec source operation input limits = .ok t) :
    t.scope.source = source ∧ t.limits = limits ∧ isQueryDigest t.scope.query = true := by
  simp only [traversal] at h
  by_cases hlimit : limits.pageSize < input.limit.getD limits.pageSize
  · rw [if_pos hlimit] at h
    cases h
  · rw [if_neg hlimit] at h
    cases hcursor : input.cursor with
    | none =>
      rw [hcursor] at h
      cases h
      exact ⟨rfl, rfl, isQueryDigest_queryDigest _⟩
    | some cursor =>
      rw [hcursor] at h
      cases hdecode : codec.decode (traversalScope source operation input.fields
          (input.limit.getD limits.pageSize)) cursor with
      | error error =>
        simp only [hdecode] at h
        cases h
      | ok native =>
        simp only [hdecode] at h
        cases h
        exact ⟨rfl, rfl, isQueryDigest_queryDigest _⟩

/-- What a forger cannot do: a string with the right signature carries a payload that this
codec has signed for one of the calls of `encode`. -/
def Unforged (codec : HistoryCursorCodec) (calls : List (CursorScope × JsString))
    (encoded : JsString) : Prop :=
  ∀ payload, encoded = codec.signed payload →
    ∃ call ∈ calls, call.1.accepts call.2 = true ∧ payload = cursorPayload call.1 call.2

/-- **History continuations.**  A continuation comes back in its own scope and in no other;
the order of the members of a query does not count; a string that the codec did not return is
refused; and a page that fits is refused neither for its bytes nor, unless the wrapped
continuation is longer than the envelope allows, for its continuation. -/
theorem history_continuations (codec : HistoryCursorCodec) :
    (∀ (scope other : CursorScope) (native encoded : JsString),
      codec.encode scope native = .ok encoded →
      codec.decode scope encoded = .ok native ∧
        (CollisionFree [scope.json, other.json] → scope ≠ other →
          codec.decode other encoded = .error invalidCursor)) ∧
    (∀ (source : AgentHistorySourceIdentity) (operation : CursorOperation)
        (fields others : QueryFields) (limit limit' : Nat),
      (Json.Reordered (fields.query limit) (others.query limit') →
        traversalScope source operation fields limit =
          traversalScope source operation others limit') ∧
      (CollisionFree [fields.query limit, others.query limit'] →
        limit ≠ limit' ∨ Lacks fields.members others.members ∨
          Lacks others.members fields.members →
        traversalScope source operation fields limit ≠
          traversalScope source operation others limit')) ∧
    (∀ (calls : List (CursorScope × JsString)) (scope : CursorScope) (encoded : JsString),
      Unforged codec calls encoded →
      (∀ call ∈ calls, codec.encode call.1 call.2 ≠ .ok encoded) →
      codec.decode scope encoded = .error invalidCursor) ∧
    (∀ (ν : Type) (spell : ν → JsString) (source : AgentHistorySourceIdentity)
        (operation : CursorOperation) (input : TraversalInput) (limits : AgentHistoryLimits)
        (t : Traversal) (page : AgentHistoryPage ν) (error : AgentHistoryError),
      (∀ n, ∀ u ∈ spell n, u.toNat < 0x80) → Declared source →
      traversal codec source operation input limits = .ok t →
      nativePageFits spell page.json limits.pageBytes page.nextCursor = true →
      t.page spell codec page = .error error →
      (error = tooManyRecords ∧ t.limit < page.items.length) ∨
        (error = notAdvanced ∧ page.nextCursor = t.nativeCursor) ∨
        ∃ native, page.nextCursor = some native ∧ error = envelopeExceeded ∧
          (isNative native = true → MAX_CURSOR_BYTES < wrappedLength t.scope native)) := by
  refine ⟨fun scope other native encoded h => ?_, fun source operation fields others limit limit' =>
    ⟨fun hsame => ?_, fun hfree hdiffer hscope => ?_⟩, fun calls scope encoded hforged hnew => ?_,
    fun ν spell source operation input limits t page error hspell hsource ht hfits h => ?_⟩
  · have hdecode : ∀ other : CursorScope, codec.decode other encoded =
        if queryDigest scope.json = queryDigest other.json then .ok native
        else .error invalidCursor := fun _ => HistoryCursorCodec.decode_encode h
    refine ⟨by rw [hdecode, if_pos rfl], fun hfree hne => ?_⟩
    rw [hdecode, if_neg fun hdigest => hne (scope_inj hfree hdigest)]
  · unfold traversalScope
    rw [queryDigest, queryDigest, Json.canonicalText, Json.canonicalText, hsame.canonicalize]
  · exact query_ne hfree hdiffer (congrArg CursorScope.query hscope)
  · cases hdecode : codec.decode scope encoded with
    | error error => rw [HistoryCursorCodec.decode_eq_error hdecode]
    | ok native =>
      obtain ⟨payload, -, hsigned, hlength, -⟩ := HistoryCursorCodec.decode_eq_ok.1 hdecode
      obtain ⟨call, hcall, haccepts, rfl⟩ := hforged payload hsigned
      exact absurd (HistoryCursorCodec.encode_eq_ok.2 ⟨haccepts, hsigned, hlength⟩)
        (hnew call hcall)
  · obtain ⟨rfl, rfl, hquery⟩ := traversal_ok ht
    exact page_error hspell hsource hquery hfits h

/-! ## A continuation within the native bound that does not fit the envelope -/

def sampleCodec : HistoryCursorCodec := ⟨fun _ => List.replicate 32 0, fun _ => by decide⟩

def sampleSource : AgentHistorySourceIdentity := ⟨js "a", js "b", js "c"⟩

def sampleInput : TraversalInput := ⟨none, none, ⟨[], by decide, by decide⟩⟩

def sampleTraversal : Traversal :=
  ⟨traversalScope sampleSource .catalog sampleInput.fields 100, 100, none, ⟨100, 1048576⟩⟩

/-- A continuation of the native bound; every unit takes two bytes in JSON. -/
def quotationMarks : JsString := List.replicate 32768 34

/-- An empty page with a continuation. -/
def samplePage (native : JsString) : AgentHistoryPage Numeral := ⟨[], some native, []⟩

theorem nativePageFits_sample {native : JsString} {limit : Nat}
    (h : 2048 + 2 * Json.quoteBytes native + 30 ≤ limit) :
    nativePageFits Numeral.text (samplePage native).json limit (some native) = true := by
  have hitems : Json.quoteBytes (js "items") = 7 := by decide
  have hcursor : Json.quoteBytes (js "nextCursor") = 12 := by decide
  have hnative : Json.quoteBytes native = 2 + Json.escapeBytes native := rfl
  simp only [nativePageFits, byteLength, JsonData.stringify_bytes numeral_ascii, samplePage,
    AgentHistoryPage.json, JsonData.bytes, JsonData.fieldsBytes, JsonData.itemsBytes, hitems,
    hcursor, Option.map_some, Option.toList_some, List.cons_append, List.nil_append,
    List.length_cons, List.length_nil, decide_eq_true_eq]
  omega

theorem quoteBytes_le_wrappedLength (scope : CursorScope) (native : JsString) :
    Json.quoteBytes native ≤ wrappedLength scope native := by
  rw [wrappedLength, byteLength, JsonData.stringify_bytes numeral_ascii]
  simp only [CursorScope.envelope, CursorScope.members, JsonData.bytes, JsonData.fieldsBytes]
  omega

theorem isNative_quotationMarks : isNative quotationMarks = true := by
  rw [isNative, within, quotationMarks, List.length_replicate]
  decide

theorem quoteBytes_quotationMarks : Json.quoteBytes quotationMarks = 65538 := by
  have hescape : ∀ n, Json.escapeBytes (List.replicate n 34) = 2 * n := by
    intro n
    induction n using Nat.twoStepInduction with
    | zero => rfl
    | one => rfl
    | more n _ ih =>
      rw [List.replicate_succ] at ih ⊢
      rw [List.replicate_succ, Json.escapeBytes, if_neg (by decide), ih]
      simp only [Json.escapeUnitBytes, true_or, if_true]
      omega
  rw [Json.quoteBytes, quotationMarks, hescape]

theorem declared_sample : Declared sampleSource where
  providerKey := ⟨by decide, forall_of_all (by decide), by decide⟩
  sourceId := ⟨by decide, forall_of_all (by decide), by decide⟩
  generation := ⟨by decide, forall_of_all (by decide), by decide⟩

/-- **The page fits, and its continuation is refused.** -/
theorem quotes_exceed_envelope :
    Declared sampleSource ∧ isNative quotationMarks = true ∧
      traversal sampleCodec sampleSource .catalog sampleInput ⟨100, 1048576⟩ =
        .ok sampleTraversal ∧
      nativePageFits Numeral.text (samplePage quotationMarks).json 1048576
        (samplePage quotationMarks).nextCursor = true ∧
      sampleTraversal.page Numeral.text sampleCodec (samplePage quotationMarks) =
        .error envelopeExceeded := by
  refine ⟨declared_sample, isNative_quotationMarks, ?_, ?_, ?_⟩
  · simp only [traversal, sampleInput, sampleTraversal, Option.getD_none, Nat.lt_irrefl, if_false]
  · exact nativePageFits_sample (by rw [quoteBytes_quotationMarks]; omega)
  · have hquery : isQueryDigest sampleTraversal.scope.query = true := isQueryDigest_queryDigest _
    have haccepts : sampleTraversal.scope.accepts quotationMarks = true := by
      rw [CursorScope.accepts, isNative_quotationMarks, hquery]
      decide
    have hlong : MAX_CURSOR_BYTES <
        (sampleCodec.signed (cursorPayload sampleTraversal.scope quotationMarks)).length := by
      have hle := quoteBytes_le_wrappedLength sampleTraversal.scope quotationMarks
      rw [quoteBytes_quotationMarks] at hle
      rw [length_signed, MAX_CURSOR_BYTES]
      omega
    exact page_of_refused (Nat.not_lt_zero _) (fun h => h.1 rfl) rfl
      (HistoryCursorCodec.encode_long haccepts hlong)

end AgentSdk.History
