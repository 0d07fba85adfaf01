import AgentSdk.Journal.Valid
import AgentSdk.Lib.JsonSize

/-!
# Sizes of the records

How many bytes each record of the journal takes at most, by what the schema says
about its values.  Identities that a recovery record carries take 514 bytes at
most; the schema of the journal alone allows 1538.

## Main results

* `RoleLedger.bytes_le` — a ledger, by the identity its presence names.
* `MemberProjection.bytes_le` — a projection, by the identities it names.
* `CoordinatorMember.metadata_le` — a member without scopes fits its byte capacity.
-/

namespace AgentSdk.Journal

open AgentSdk.Text AgentSdk.Json

/-! ## Scalars -/

variable {n : Nat} {value : JsString}

theorem count_le (h : isSequence n = true) : jsonBytes (count n) ≤ 16 := by
  have hle : n ≤ MAX_SAFE_INTEGER := of_decide_eq_true h
  rw [MAX_SAFE_INTEGER] at hle
  exact jsonBytes_num_le (by omega) (by omega)

theorem isPlain_of_isLowerHex {u : UInt16} (h : isLowerHex u = true) : isPlain u = true := by
  simp only [isLowerHex, isDigit, Bool.or_eq_true, Bool.and_eq_true, decide_eq_true_eq] at h
  have hne : ∀ c : UInt16, c.toNat < 48 ∨ (57 < c.toNat ∧ c.toNat < 97) → u ≠ c := by
    intro c hc hu
    rw [hu] at h
    omega
  simp only [isPlain, Bool.and_eq_true, decide_eq_true_eq, bne_iff_ne, ne_eq]
  exact ⟨⟨⟨by omega, by omega⟩, hne 34 (by decide)⟩, hne 92 (by decide)⟩

theorem digest_spec (h : isDigest value = true) : value.length = 71 ∧ value.all isPlain = true := by
  simp only [isDigest, Bool.and_eq_true, List.isPrefixOf_iff_prefix, beq_iff_eq] at h
  obtain ⟨⟨⟨rest, rfl⟩, hlength⟩, hhex⟩ := h
  have hprefix : (js "sha256:").length = 7 := by decide
  rw [List.drop_append_of_le_length (by omega), ← hprefix, List.drop_length, List.nil_append]
    at hlength hhex
  refine ⟨by rw [List.length_append, hprefix, hlength], ?_⟩
  rw [List.all_append, Bool.and_eq_true]
  refine ⟨by decide, List.all_eq_true.2 fun u hu => ?_⟩
  exact isPlain_of_isLowerHex (List.all_eq_true.1 hhex u hu)

theorem digest_le (h : isDigest value = true) : jsonBytes (.str value) ≤ 73 := by
  obtain ⟨hlength, hplain⟩ := digest_spec h
  rw [jsonBytes, quoteBytes, escapeBytes_plain _ hplain]
  omega

theorem str_le_length (value : JsString) : jsonBytes (.str value) ≤ 2 + 6 * value.length := by
  rw [jsonBytes, quoteBytes]
  have hescape := escapeBytes_le_length value
  omega

theorem id_le (h : isId value = true) : jsonBytes (.str value) ≤ 1538 := by
  simp only [isId, utf8Within, Bool.and_eq_true, decide_eq_true_eq] at h
  have hescape := escapeBytes_le_utf8 value h.2.1
  have hbytes : utf8Length value ≤ 256 := h.2.2
  rw [jsonBytes, quoteBytes]
  omega

theorem identity_le (h : isIdentity value = true) : jsonBytes (.str value) ≤ 514 := by
  simp only [isIdentity, safeIdentity, utf8Within, Bool.and_eq_true, decide_eq_true_eq,
    List.all_eq_true, Bool.not_eq_true'] at h
  have hbytes : utf8Length value ≤ 256 := h.1.2.2
  have hescape := escapeBytes_le_printable value h.1.2.1 fun u hu => by
    have hsafe := h.2 u hu
    simp only [isUnsafe, Bool.or_eq_false_iff, decide_eq_false_iff_not] at hsafe
    omega
  rw [jsonBytes, quoteBytes]
  omega

theorem uuid_le (h : isUuid value = true) : jsonBytes (.str value) ≤ 218 := by
  have hlength : value.length = 36 := by
    simp only [isUuid, matchesClasses, Bool.and_eq_true, beq_iff_eq] at h
    rw [← h.1]
    rfl
  have hstr := str_le_length value
  omega

/-- The parts of a separated string, and the separators. -/
theorem length_splitOn_le {separator : UInt16}
    (h : ∀ part ∈ value.splitOn separator, part.length ≤ n) :
    value.length ≤ (n + 1) * (value.splitOn separator).length := by
  have hjoined : [separator].intercalate (value.splitOn separator) = value :=
    List.intercalate_splitOn separator
  have hsum : ∀ parts : List JsString, (∀ part ∈ parts, part.length ≤ n) →
      ([separator].intercalate parts).length ≤ (n + 1) * parts.length := by
    intro parts hparts
    induction parts with
    | nil => simp
    | cons part rest ih =>
      have hhead := hparts part (by simp)
      have htail := ih fun other hother => hparts other (by simp [hother])
      cases rest with
      | nil =>
        simp only [List.intercalate, List.intersperse_singleton, List.flatten_cons,
          List.flatten_nil, List.append_nil, List.length_cons, List.length_nil]
        omega
      | cons next rest =>
        simp only [List.intercalate, List.intersperse_cons_cons, List.flatten_cons,
          List.length_append, List.length_cons, List.length_nil] at htail ⊢
        simp only [Nat.mul_add, Nat.mul_one] at htail ⊢
        omega
  rw [← hjoined]
  simpa [hjoined] using hsum _ h

theorem ipv4_le (h : isIpv4 value = true) : jsonBytes (.str value) ≤ 98 := by
  simp only [isIpv4, Bool.and_eq_true, beq_iff_eq, List.all_eq_true] at h
  have hparts : ∀ part ∈ value.splitOn 46, part.length ≤ 3 := by
    intro part hpart
    have hoctet := h.2 part hpart
    unfold octet? at hoctet
    split at hoctet
    · rename_i hlength
      simp only [Bool.and_eq_true, decide_eq_true_eq] at hlength
      exact hlength.1.1.2
    · simp at hoctet
  have hlength := length_splitOn_le hparts
  rw [h.1] at hlength
  have hstr := str_le_length value
  omega

theorem mac_le (h : isMac value = true) : jsonBytes (.str value) ≤ 110 := by
  simp only [isMac, Bool.and_eq_true, beq_iff_eq, List.all_eq_true] at h
  have hparts : ∀ part ∈ value.splitOn 58, part.length ≤ 2 := by
    intro part hpart
    have hclasses := h.2 part hpart
    simp only [matchesClasses, Bool.and_eq_true, beq_iff_eq] at hclasses
    exact Nat.le_of_eq hclasses.1.symm
  have hlength := length_splitOn_le hparts
  rw [h.1] at hlength
  have hstr := str_le_length value
  omega

theorem subnet_le (h : isSubnet value = true) : jsonBytes (.str value) ≤ 98 := by
  simp only [isSubnet, COORDINATOR_JOURNAL_LIMITS.subnetSlots, List.any_eq_true, List.mem_range,
    beq_iff_eq] at h
  obtain ⟨slot, hslot, rfl⟩ := h
  have hdigits : (natDecimal (slot * 16)).length ≤ 3 := length_natDecimal_le (by omega) (by omega)
  have hfirst : (js "10.240.0.").length = 9 := by decide
  have hlast : (js "/28").length = 3 := by decide
  have hstr := str_le_length (subnetOf slot)
  simp only [subnetOf, List.length_append, hfirst, hlast] at hstr ⊢
  omega

theorem nullable_le {α : Type} {value : Option α} {json : α → Json} (hn : 4 ≤ n)
    (h : ∀ x ∈ value, jsonBytes (json x) ≤ n) : jsonBytes (nullable value json) ≤ n := by
  cases value with
  | none => simpa [nullable, jsonBytes] using hn
  | some x => exact h x rfl

/-! ## Words -/

theorem roleWord_le (role : ResourceRole) : jsonBytes (word role.word) ≤ 16 := by
  cases role <;> decide

theorem outcomeWord_le (outcome : ActionOutcome) : jsonBytes (word outcome.word) ≤ 16 := by
  cases outcome <;> decide

theorem runtimeWord_le (runtime : Runtime) : jsonBytes (word runtime.word) ≤ 16 := by
  cases runtime <;> decide

theorem phaseWord_le (phase : ProjectionPhase) : jsonBytes (word phase.word) ≤ 16 := by
  cases phase <;> decide

theorem profileWord_le (profile : Profile) : jsonBytes (word profile.word) ≤ 44 := by
  cases profile <;> decide

theorem backendRevision_le (profile : Profile) : jsonBytes (.str profile.backendRevision) ≤ 59 := by
  cases profile <;> decide

/-! ## Ledgers -/

/-- The identity that a presence names. -/
def Presence.named? : Presence → Option JsString
  | .not_entered _ => none
  | .possibly_present _ returnedId => returnedId
  | .present id _ _ _ => some id
  | .absent reference _ _ _ => some reference

/-- An object that starts with its kind. -/
theorem kindJson_le {kind : String} {rest : List (JsString × Json)} (keys first values : Nat)
    (hkeys : keyBytes ((field "kind" (word kind) :: rest).map Prod.fst) ≤ keys)
    (hfirst : jsonBytes (word kind) ≤ first) (hvalues : itemsBytes (rest.map Prod.snd) ≤ values) :
    jsonBytes (kindJson kind rest) ≤ keys + (first + values) := by
  refine jsonBytes_obj_le keys (first + values) hkeys ?_
  simp only [List.map_cons, itemsBytes, field]
  omega

theorem Presence.bytes_le {presence : Presence} (shape : presence.shape = true) (hn : 4 ≤ n)
    (named : ∀ id ∈ presence.named?, jsonBytes (.str id) ≤ n) :
    jsonBytes presence.json ≤ 240 + n := by
  cases presence with
  | not_entered proved =>
    have hproved := count_le shape
    refine (kindJson_le 40 13 16 (Nat.le_of_ble_eq_true rfl) (by decide) ?_).trans (by omega)
    simpa [itemsBytes, field] using hproved
  | possibly_present effect returnedId =>
    simp only [Presence.shape, Bool.and_eq_true] at shape
    have heffect := count_le shape.1
    have hreturned : jsonBytes (nullable returnedId .str) ≤ n := nullable_le hn named
    refine (kindJson_le 60 18 (16 + n) (Nat.le_of_ble_eq_true rfl) (by decide) ?_).trans (by omega)
    simp only [List.map_cons, List.map_nil, itemsBytes, field]
    omega
  | present id fingerprint digest runtime =>
    simp only [Presence.shape, Bool.and_eq_true] at shape
    have hid := named id rfl
    have hfingerprint := digest_le shape.1.2
    have hdigest := digest_le shape.2
    have hruntime := runtimeWord_le runtime
    refine (kindJson_le 62 9 (n + 162) (Nat.le_of_ble_eq_true rfl) (by decide) ?_).trans (by omega)
    simp only [List.map_cons, List.map_nil, itemsBytes, field]
    omega
  | absent reference fingerprint inspected late =>
    simp only [Presence.shape, Bool.and_eq_true] at shape
    have href := named reference rfl
    have hfingerprint : jsonBytes (nullable fingerprint .str) ≤ 73 :=
      nullable_le (by omega) fun x hx => by
        rw [Option.mem_def.1 hx] at shape
        exact digest_le shape.1.1.2
    have hinspected := count_le shape.1.2
    have hlate := count_le shape.2
    refine (kindJson_le 85 8 (n + 105) (Nat.le_of_ble_eq_true rfl) (by decide) ?_).trans (by omega)
    simp only [List.map_cons, List.map_nil, itemsBytes, field]
    omega

theorem ActionReceipt.bytes_le {receipt : ActionReceipt} (shape : receipt.shape = true) :
    jsonBytes receipt.json ≤ 200 := by
  cases receipt with
  | not_applicable | not_entered => decide
  | pending effect =>
    have heffect := count_le shape
    refine (kindJson_le 30 9 16 (Nat.le_of_ble_eq_true rfl) (by decide) ?_).trans (by omega)
    simpa [itemsBytes, field] using heffect
  | uncertain effect digest =>
    simp only [ActionReceipt.shape, Bool.and_eq_true] at shape
    have heffect := count_le shape.1
    have hdigest := digest_le shape.2
    refine (kindJson_le 50 11 89 (Nat.le_of_ble_eq_true rfl) (by decide) ?_).trans (by omega)
    simp only [List.map_cons, List.map_nil, itemsBytes, field]
    omega
  | settled effect outcome digest atSequence =>
    simp only [ActionReceipt.shape, Bool.and_eq_true] at shape
    have heffect := count_le shape.1.1
    have houtcome := outcomeWord_le outcome
    have hdigest := digest_le shape.1.2
    have hat := count_le shape.2
    refine (kindJson_le 66 9 121 (Nat.le_of_ble_eq_true rfl) (by decide) ?_).trans (by omega)
    simp only [List.map_cons, List.map_nil, itemsBytes, field]
    omega

theorem RoleLedger.bytes_le {ledger : RoleLedger} (shape : ledger.shape = true) (hn : 4 ≤ n)
    (named : ∀ id ∈ ledger.presence.named?, jsonBytes (.str id) ≤ n) :
    jsonBytes ledger.json ≤ 1130 + n := by
  simp only [RoleLedger.shape, RoleLedger.cells, List.all_cons, List.all_nil, Bool.and_eq_true] at shape
  obtain ⟨hpresence, hcreate, hstart, hclose, hdelete, -⟩ := shape
  have hp := Presence.bytes_le hpresence hn named
  have hc := ActionReceipt.bytes_le hcreate
  have hs := ActionReceipt.bytes_le hstart
  have hx := ActionReceipt.bytes_le hclose
  have hd := ActionReceipt.bytes_le hdelete
  have hr := roleWord_le ledger.role
  refine (jsonBytes_obj_le 70 (1056 + n) (Nat.le_of_ble_eq_true rfl) ?_).trans (by omega)
  simp only [List.map_cons, List.map_nil, itemsBytes, field]
  omega

/-! ## Projections -/

theorem NetworkFacts.bytes_le {network : NetworkFacts} (shape : network.shape = true)
    (id : jsonBytes (.str network.id) ≤ 514) (name : jsonBytes (.str network.name) ≤ 514) :
    jsonBytes network.json ≤ 2910 := by
  simp only [NetworkFacts.shape, Bool.and_eq_true] at shape
  have hbridge := id_le shape.1.1.1.2
  have hsubnet := subnet_le shape.1.1.2
  have hgateway := ipv4_le shape.1.2
  have hdigest := digest_le shape.2
  refine (jsonBytes_obj_le 70 2835 (Nat.le_of_ble_eq_true rfl) ?_).trans (by omega)
  simp only [List.map_cons, List.map_nil, itemsBytes, field]
  omega

theorem BrokerFacts.bytes_le {broker : BrokerFacts} (shape : broker.shape = true)
    (id : jsonBytes (.str broker.id) ≤ 514) : jsonBytes broker.json ≤ 2440 := by
  simp only [BrokerFacts.shape, Bool.and_eq_true] at shape
  have hendpoint := id_le shape.1.1.1.2
  have hmac := mac_le shape.1.1.2
  have haddress := ipv4_le shape.1.2
  have hgateway := ipv4_le shape.2
  have hprefix : jsonBytes (count 28) ≤ 2 := jsonBytes_num_le (by omega) (by omega)
  refine (jsonBytes_obj_le 76 2360 (Nat.le_of_ble_eq_true rfl) ?_).trans (by omega)
  simp only [List.map_cons, List.map_nil, itemsBytes, field]
  omega

theorem VmLink.bytes_le {link : VmLink} (shape : link.shape = true) :
    jsonBytes link.json ≤ 1880 := by
  simp only [VmLink.shape, Bool.and_eq_true] at shape
  have hindex := count_le shape.1.1.1.1.2
  have hname := id_le shape.1.1.1.2
  have hmac := mac_le shape.1.1.2
  have hidentity := digest_le shape.1.2
  have hstate := digest_le shape.2
  refine (jsonBytes_obj_le 65 1810 (Nat.le_of_ble_eq_true rfl) ?_).trans (by omega)
  simp only [List.map_cons, List.map_nil, itemsBytes, field]
  omega

/-- The names of a projection are those of the record, and no longer. -/
structure ProjectionFacts.Named (facts : ProjectionFacts) : Prop where
  resources : ∀ entry ∈ facts.resources, ∀ id ∈ entry.2, jsonBytes (.str id) ≤ 514
  network : ∀ network ∈ facts.network, jsonBytes (.str network.name) ≤ 514

theorem ProjectionFacts.bytes_le {facts : ProjectionFacts} (shape : facts.shape = true)
    (named : facts.Named) : jsonBytes facts.json ≤ 12900 := by
  simp only [ProjectionFacts.shape, Bool.and_eq_true, decide_eq_true_eq] at shape
  obtain ⟨⟨⟨⟨⟨⟨⟨⟨hnetwork, -⟩, -⟩, -⟩, hbroker⟩, hcount⟩, hlinks⟩, hengine⟩, hvm⟩ := shape
  have hresource : ∀ role id?, (role, id?) ∈ facts.resources →
      jsonBytes (nullable id? .str) ≤ 514 := fun role id? hmem =>
    nullable_le (by omega) (named.resources (role, id?) hmem)
  have hn : jsonBytes (nullable facts.network NetworkFacts.json) ≤ 2910 :=
    nullable_le (by omega) fun network hmem => by
      rw [Option.mem_def.1 hmem] at hnetwork
      refine NetworkFacts.bytes_le hnetwork ?_ (named.network network hmem)
      exact named.resources (.network, facts.network.map NetworkFacts.id)
        (by simp [ProjectionFacts.resources]) _ (by rw [Option.mem_def.1 hmem]; rfl)
  have hb : jsonBytes (nullable facts.broker BrokerFacts.json) ≤ 2440 :=
    nullable_le (by omega) fun broker hmem => by
      rw [Option.mem_def.1 hmem] at hbroker
      refine BrokerFacts.bytes_le hbroker ?_
      exact named.resources (.egress_broker, facts.broker.map BrokerFacts.id)
        (by simp [ProjectionFacts.resources]) _ (by rw [Option.mem_def.1 hmem]; rfl)
  have ho := hresource .route_observer facts.observerId (by simp [ProjectionFacts.resources])
  have hc := hresource .compute facts.computeNoneId (by simp [ProjectionFacts.resources])
  have hf := hresource .filesystem facts.filesystemNoneId (by simp [ProjectionFacts.resources])
  have hl : jsonBytes (.arr (facts.vmLinks.map VmLink.json)) ≤ 2 + 3 + 1880 * 3 :=
    jsonBytes_map_le hcount fun link hlink =>
      VmLink.bytes_le (List.all_eq_true.1 hlinks link hlink)
  have he := digest_le hengine
  have hv := digest_le hvm
  refine (jsonBytes_obj_le 130 12700 (Nat.le_of_ble_eq_true rfl) ?_).trans (by omega)
  simp only [List.map_cons, List.map_nil, itemsBytes, field]
  omega

/-- The names of a projection are bounded, when it has facts. -/
def MemberProjection.Named : MemberProjection → Prop
  | .none => True
  | .registered _ facts _ => facts.Named

theorem MemberProjection.bytes_le {projection : MemberProjection} (shape : projection.shape = true)
    (named : projection.Named) : jsonBytes projection.json ≤ 13120 := by
  cases projection with
  | none => decide
  | registered phase facts digest =>
    simp only [MemberProjection.shape, Bool.and_eq_true] at shape
    have hfacts := ProjectionFacts.bytes_le shape.1 named
    have hdigest := digest_le shape.2
    have hphase := phaseWord_le phase
    have hrecipe : jsonBytes (word "desktop-member-projection-v1") ≤ 30 := by decide
    refine (kindJson_le 60 12 13020 (Nat.le_of_ble_eq_true rfl) (by decide) ?_).trans (by omega)
    simp only [List.map_cons, List.map_nil, itemsBytes, field]
    omega

/-! ## Members -/

theorem MemberBinding.bytes_le {binding : MemberBinding} (shape : binding.shape = true) :
    jsonBytes binding.json ≤ 440 := by
  simp only [MemberBinding.shape, Bool.and_eq_true] at shape
  have hidentity := digest_le shape.1.1
  have hinitial := digest_le shape.1.2
  have hconfiguration := digest_le shape.2
  have hprofile := profileWord_le binding.profile
  have hrevision := backendRevision_le binding.profile
  refine (jsonBytes_obj_le 110 330 (Nat.le_of_ble_eq_true rfl) ?_).trans (by omega)
  simp only [List.map_cons, List.map_nil, itemsBytes, field]
  omega

theorem CallerSink.bytes_le {sink : CallerSink} (shape : sink.shape = true) :
    jsonBytes sink.json ≤ 60 := by
  cases sink with
  | healthy => decide
  | failed atSequence =>
    have hat := count_le shape
    refine (kindJson_le 30 8 16 (Nat.le_of_ble_eq_true rfl) (by decide) ?_).trans (by omega)
    simpa [itemsBytes, field] using hat

theorem MemberAllocation.bytes_le {allocation : MemberAllocation} (shape : allocation.shape = true) :
    jsonBytes allocation.json ≤ 270 := by
  have hslot : ∀ slot, slot ≤ COORDINATOR_JOURNAL_LIMITS.subnetSlots - 1 →
      jsonBytes (count slot) ≤ 2 := by
    intro slot hle
    have hsmall : slot ≤ 15 := hle
    exact jsonBytes_num_le (by omega) (by omega)
  cases allocation with
  | reserved slot subnet gateway =>
    simp only [MemberAllocation.shape, Bool.and_eq_true, decide_eq_true_eq] at shape
    have hcount := hslot slot shape.1.1
    have hsubnet := subnet_le shape.1.2
    have hgateway := ipv4_le shape.2
    refine (kindJson_le 45 10 200 (Nat.le_of_ble_eq_true rfl) (by decide) ?_).trans (by omega)
    simp only [List.map_cons, List.map_nil, itemsBytes, field]
    omega
  | released previousSlot releaseSequence =>
    simp only [MemberAllocation.shape, Bool.and_eq_true, decide_eq_true_eq] at shape
    have hcount := hslot previousSlot shape.1
    have hrelease := count_le shape.2
    refine (kindJson_le 45 10 20 (Nat.le_of_ble_eq_true rfl) (by decide) ?_).trans (by omega)
    simp only [List.map_cons, List.map_nil, itemsBytes, field]
    omega

/-- What the schema alone says about the identity of a presence. -/
theorem Presence.named_le {presence : Presence} (shape : presence.shape = true) :
    ∀ id ∈ presence.named?, jsonBytes (.str id) ≤ 1538 := by
  intro id hid
  cases presence with
  | not_entered proved => cases hid
  | possibly_present effect returnedId =>
    simp only [Presence.shape, Bool.and_eq_true] at shape
    have hreturned : returnedId = some id := hid
    rw [hreturned] at shape
    exact id_le shape.2
  | present found fingerprint digest runtime =>
    simp only [Presence.shape, Bool.and_eq_true] at shape
    cases hid
    exact id_le shape.1.1
  | absent reference fingerprint inspected late =>
    simp only [Presence.shape, Bool.and_eq_true] at shape
    cases hid
    exact id_le shape.1.1.1

/-- A member that owns no scope fits its byte capacity, where at most one of its
roles has an identity that no recovery record carries. -/
theorem CoordinatorMember.metadata_le {member : CoordinatorMember} (shape : member.shape = true)
    (state : jsonBytes member.state.json ≤ 60) (work : jsonBytes member.work.json ≤ 240)
    (roles : (member.roles.map RoleLedger.role).Nodup) (long : ResourceRole)
    (short : ∀ ledger ∈ member.roles, ledger.role ≠ long →
      ∀ id ∈ ledger.presence.named?, jsonBytes (.str id) ≤ 514)
    (named : member.projection.Named) :
    jsonBytes member.metadata ≤ COORDINATOR_JOURNAL_LIMITS.memberMetadataBytes := by
  simp only [CoordinatorMember.shape, Checkpoint.shape, Bool.and_eq_true, decide_eq_true_eq] at shape
  obtain ⟨⟨⟨⟨⟨⟨⟨⟨hid, hsequence⟩, hbinding⟩, ⟨⟨⟨hrevision, hdigest⟩, -⟩, hsink⟩⟩, hallocation⟩,
    hcount⟩, hledgers⟩, hprojection⟩, -⟩ := shape
  have hid' := uuid_le hid
  have hsequence' := count_le hsequence
  have hbinding' := MemberBinding.bytes_le hbinding
  have hrevision' := count_le hrevision
  have hdigest' := digest_le hdigest
  have hsink' := CallerSink.bytes_le hsink
  have hallocation' := MemberAllocation.bytes_le hallocation
  have hprojection' := MemberProjection.bytes_le hprojection named
  have hroles : jsonBytes (.arr (member.roles.map RoleLedger.json)) ≤ 2 + 9 + 15820 := by
    have hitems : itemsBytes (member.roles.map RoleLedger.json) ≤
        1644 * member.roles.length + 1024 :=
      itemsBytes_le_except RoleLedger.json RoleLedger.role long member.roles roles
        fun ledger hledger => by
        have hshape := List.all_eq_true.1 hledgers ledger hledger
        have hpresence : ledger.presence.shape = true := by
          simp only [RoleLedger.shape, Bool.and_eq_true] at hshape
          exact hshape.1
        split
        · exact RoleLedger.bytes_le hshape (by omega) (Presence.named_le hpresence)
        · rename_i hother
          exact RoleLedger.bytes_le hshape (by omega) (short ledger hledger hother)
    have hnine : member.roles.length ≤ 9 := hcount.2
    refine jsonBytes_arr_le (by simpa using hnine) (hitems.trans ?_)
    omega
  have hcheckpoint : jsonBytes (.obj ([field "revision" (count member.checkpoint.revision),
      field "digest" (.str member.checkpoint.digest)] ++ [] ++
      [field "callerSink" member.checkpoint.callerSink.json])) ≤ 40 + 160 := by
    refine jsonBytes_obj_le 40 160 (Nat.le_of_ble_eq_true rfl) ?_
    simp only [List.append_nil, List.cons_append, List.nil_append, List.map_cons, List.map_nil,
      itemsBytes, field]
    omega
  unfold CoordinatorMember.metadata CoordinatorMember.jsonWith
  refine (jsonBytes_obj_le 130 30500 (Nat.le_of_ble_eq_true rfl) ?_).trans
    (Nat.le_of_ble_eq_true rfl)
  simp only [List.map_cons, List.map_nil, itemsBytes, field] at hcheckpoint ⊢
  omega

end AgentSdk.Journal
