import AgentSdk.Journal.Openings

/-!
# The frame of a snapshot

A snapshot is written into a frame of fixed capacity.  The bounds on its parts,
which validation checks one by one, add up to less than the frame holds: the
frame never refuses what the other checks accept.

## Main results

* `isDigest_coordinatorDigest` — digests have the form that the schema asks for.
* `framed_of_validated` — a snapshot that passed the other checks fits its frame.
* `frame_never_refuses` — encoding refuses only what the schema or the check does.
-/

namespace AgentSdk.Journal

open AgentSdk.Text AgentSdk.Outcome AgentSdk.Json

/-! ## Digests -/

theorem isDigest_coordinatorDigest (domain : String) (text : JsString) :
    isDigest (coordinatorDigest domain text) = true := by
  have hprefix : (js "sha256:").length = 7 := by decide
  have hdrop : (coordinatorDigest domain text).drop 7 =
      Sha256.hexDigest (js domain ++ 0 :: text) := by
    rw [coordinatorDigest, ← hprefix, List.drop_left]
  have hstart : (js "sha256:").isPrefixOf (coordinatorDigest domain text) = true :=
    List.isPrefixOf_iff_prefix.2 (List.prefix_append _ _)
  have hunits : (Sha256.hexDigest (js domain ++ 0 :: text)).all isLowerHex = true := by
    refine List.all_eq_true.2 fun u hu => ?_
    have hrange := Sha256.hexDigest_units hu
    simp only [isLowerHex, isDigit, Bool.or_eq_true, Bool.and_eq_true, decide_eq_true_eq]
    exact hrange
  simp [isDigest, hdrop, hstart, hunits, Sha256.length_hexDigest]

/-- A valid snapshot has a digest. -/
theorem CoordinatorSnapshot.Valid.digest {snapshot : CoordinatorSnapshot} (h : snapshot.Valid) :
    ∃ digest, snapshotDigest snapshot = .ok digest ∧ isDigest digest = true :=
  ⟨_, bind_eq_ok.2 ⟨_, h.encoded, rfl⟩, isDigest_coordinatorDigest _ _⟩

/-! ## Sizes -/

theorem GenerationIdentity.bytes_le {identity : GenerationIdentity} (shape : identity.shape = true) :
    jsonBytes identity.json ≤ 900 := by
  simp only [GenerationIdentity.shape, Bool.and_eq_true] at shape
  have hid := uuid_le shape.1.1.1.1.1.1
  have hordinal := count_le shape.1.1.1.1.1.2
  have hpolicy := digest_le shape.1.1.1.1.2
  have hengine := digest_le shape.1.1.1.2
  have hendpoint := digest_le shape.1.1.2
  have hhost := digest_le shape.1.2
  have hnative := digest_le shape.2
  have hrevision : jsonBytes (word "desktop-coordination-v1") ≤ 25 := by decide
  refine (jsonBytes_obj_le 195 630 (Nat.le_of_ble_eq_true rfl) ?_).trans (by omega)
  simp only [List.map_cons, List.map_nil, itemsBytes, field]
  omega

theorem AuthorityBasis.bytes_le {basis : AuthorityBasis} (shape : basis.shape = true) :
    jsonBytes basis.json ≤ 900 := by
  cases basis with
  | host_engine_only basis =>
    simp only [AuthorityBasis.shape, Bool.and_eq_true] at shape
    have hhost := digest_le shape.1.1.1
    have hengine := digest_le shape.1.1.2
    have hexclusion := digest_le shape.1.2
    have hat := count_le shape.2
    refine (kindJson_le 80 18 235 (Nat.le_of_ble_eq_true rfl) (by decide) ?_).trans (by omega)
    simp only [List.map_cons, List.map_nil, itemsBytes, field]
    omega
  | full basis =>
    simp only [AuthorityBasis.shape, Bool.and_eq_true] at shape
    have hhost := digest_le shape.1.1.1.1.1.1.1
    have hengine := digest_le shape.1.1.1.1.1.1.2
    have hvm := digest_le shape.1.1.1.1.1.2
    have hexternal := digest_le shape.1.1.1.1.2
    have hexternalVm := digest_le shape.1.1.1.2
    have hexclusion := digest_le shape.1.1.2
    have hprojection := digest_le shape.1.2
    have hat := count_le shape.2
    refine (kindJson_le 170 6 527 (Nat.le_of_ble_eq_true rfl) (by decide) ?_).trans (by omega)
    simp only [List.map_cons, List.map_nil, itemsBytes, field]
    omega

/-- A member is its metadata, its record and the key of the record. -/
theorem CoordinatorMember.bytes_eq (member : CoordinatorMember) :
    jsonBytes member.json = jsonBytes member.metadata + 10 + jsonBytes member.checkpoint.record.json := by
  have hkey : quoteBytes (js "record") = 8 := by decide
  have hcheckpoint : ∀ first second last : JsString × Json, ∀ record : Json,
      jsonBytes (.obj ([first, second] ++ [(js "record", record)] ++ [last])) =
        jsonBytes (.obj ([first, second] ++ [] ++ [last])) + 10 + jsonBytes record := by
    intro first second last record
    simp only [jsonBytes_obj, keyBytes, List.cons_append, List.nil_append, List.map_cons,
      List.map_nil, List.length_cons, List.length_nil, List.sum_cons, List.sum_nil, itemsBytes, hkey]
    omega
  simp only [CoordinatorMember.json, CoordinatorMember.metadata, CoordinatorMember.jsonWith]
  rw [jsonBytes_obj, jsonBytes_obj]
  simp only [List.map_cons, List.map_nil, itemsBytes, field, hcheckpoint]
  omega

/-- A record with a digest fits its byte capacity. -/
theorem recoveryRecordDigest_le {record : SandboxRecoveryRecord} {digest : JsString}
    (h : recoveryRecordDigest record = .ok digest) :
    jsonBytes record.json ≤ COORDINATOR_JOURNAL_LIMITS.recordBytes := by
  unfold recoveryRecordDigest at h
  obtain ⟨parsed, hparsed, hrest⟩ := bind_eq_ok.1 h
  obtain ⟨-, hsame⟩ := parseSandboxRecoveryRecord_eq_ok hparsed
  obtain ⟨hbytes, -⟩ := failIf_bind_eq_ok.1 hrest
  rw [← hsame]
  exact Nat.not_lt.1 hbytes

theorem namespace_le {value : JsString} (h : isNamespace value = true) :
    jsonBytes (.str value) ≤ 514 := by
  refine identity_le ?_
  simp only [isNamespace, isIdentity, safeIdentity, utf8Within, Bool.and_eq_true,
    decide_eq_true_eq] at h ⊢
  have hbytes : utf8Length value ≤ 64 := h.1.2.2
  exact ⟨⟨h.1.1, h.1.2.1, hbytes.trans (by decide)⟩, h.2⟩

theorem SandboxRecoveryResource.bytes_le {resource : SandboxRecoveryResource}
    (h : resource.admitted = true) : jsonBytes resource.json ≤ 1240 := by
  simp only [SandboxRecoveryResource.admitted, Bool.and_eq_true] at h
  have hname := identity_le h.1
  have hrole := roleWord_le resource.role
  have hidentity : jsonBytes resource.identity.json ≤ 650 := by
    cases hcase : resource.identity with
    | planned | creating => decide
    | identified id fingerprint =>
      have hadmitted := h.2
      simp only [hcase, SandboxResourceIdentity.admitted, Bool.and_eq_true] at hadmitted
      have hid := identity_le hadmitted.1
      have hfingerprint := digest_le hadmitted.2
      refine (kindJson_le 40 12 587 (Nat.le_of_ble_eq_true rfl) (by decide) ?_).trans (by omega)
      simp only [List.map_cons, List.map_nil, itemsBytes, field]
      omega
  refine (jsonBytes_obj_le 30 1180 (Nat.le_of_ble_eq_true rfl) ?_).trans (by omega)
  simp only [List.map_cons, List.map_nil, itemsBytes, field]
  omega

/-- A record that the recovery schema admits fits its byte capacity. -/
theorem SandboxRecoveryRecord.bytes_le {record : SandboxRecoveryRecord}
    (h : record.admitted = true) : jsonBytes record.json ≤ 16000 := by
  simp only [SandboxRecoveryRecord.admitted, Bool.and_eq_true, decide_eq_true_eq] at h
  obtain ⟨⟨⟨⟨⟨⟨⟨⟨⟨⟨⟨⟨⟨hbackend, hrevision⟩, hnamespace⟩, hoperation⟩, hsandbox⟩, himage⟩, hpolicy⟩,
    hconfiguration⟩, hauthority⟩, hresources⟩, hcount⟩, -⟩, -⟩, -⟩ := h
  have h1 := identity_le hbackend
  have h2 := identity_le hrevision
  have h3 := namespace_le hnamespace
  have h4 := identity_le hoperation
  have h5 := identity_le hsandbox
  have h6 := digest_le himage
  have h7 := digest_le hpolicy
  have h8 := digest_le hconfiguration
  have h9 : jsonBytes (word record.phase.word) ≤ 16 := by cases record.phase <;> decide
  have h10 : jsonBytes record.authority.json ≤ 570 := by
    cases hcase : record.authority with
    | unverified => decide
    | verified identity =>
      rw [hcase] at hauthority
      have hidentity := identity_le hauthority
      refine (kindJson_le 40 10 514 (Nat.le_of_ble_eq_true rfl) (by decide) ?_).trans (by omega)
      simpa [itemsBytes, field] using hidentity
  have h11 : jsonBytes (.arr (record.resources.map SandboxRecoveryResource.json)) ≤
      2 + 9 + 1240 * 9 :=
    jsonBytes_map_le hcount.2 fun resource hmem =>
      SandboxRecoveryResource.bytes_le (List.all_eq_true.1 hresources resource hmem)
  have h12 : jsonBytes (word "agenai.sandbox-recovery.v3") ≤ 28 := by decide
  have hkeys : keyBytes ([js "format", js "backendId", js "backendRevision", js "namespace",
      js "operationId", js "sandboxId", js "imageDigest", js "policyDigest",
      js "configurationDigest", js "phase", js "authority", js "resources"] : List JsString) ≤
      220 := by decide
  unfold SandboxRecoveryRecord.json
  refine (jsonBytes_obj_le 220 15700 ?_ ?_).trans (by omega)
  · exact hkeys
  simp only [List.map_cons, List.map_nil, itemsBytes, field]
  omega

/-- Admission of a record is all that its digest depends on. -/
theorem recoveryRecordDigest_of_admitted {record : SandboxRecoveryRecord}
    (h : record.admitted = true) :
    parseSandboxRecoveryRecord record = .ok record ∧
      recoveryRecordDigest record =
        .ok (coordinatorDigest "agenai.desktop-coordinator.recovery-record.v1"
          (Json.stringify record.json)) := by
  have hbytes := SandboxRecoveryRecord.bytes_le h
  have hparse : parseSandboxRecoveryRecord record = .ok record := by
    unfold parseSandboxRecoveryRecord
    refine failIf_bind_eq_ok.2 ⟨Nat.not_lt.2 (hbytes.trans (by decide)),
      failIf_bind_eq_ok.2 ⟨by simp [h], rfl⟩⟩
  refine ⟨hparse, ?_⟩
  unfold recoveryRecordDigest
  exact bind_eq_ok.2 ⟨_, hparse,
    failIf_bind_eq_ok.2 ⟨Nat.not_lt.2 (hbytes.trans (by decide)), rfl⟩⟩

/-- The header of a snapshot: everything but its generation. -/
theorem CoordinatorSnapshot.jsonWith_le {snapshot : CoordinatorSnapshot}
    (shape : snapshot.shape = true) {generation : Json} {n : Nat} (hn : jsonBytes generation ≤ n) :
    jsonBytes (snapshot.jsonWith generation) ≤ 2100 + n := by
  simp only [CoordinatorSnapshot.shape, Bool.and_eq_true] at shape
  have hauthority := uuid_le shape.1.1.1.1.1
  have hkey := digest_le shape.1.1.1.1.2
  have hdaemon := id_le shape.1.1.1.2
  have hsequence := count_le shape.1.1.2
  have hprevious : jsonBytes (nullable snapshot.previousDigest .str) ≤ 73 :=
    nullable_le (by omega) fun digest hdigest =>
      digest_le ((Option.all_eq_true _ _).1 shape.1.2 digest hdigest)
  have hformat : jsonBytes (word "agenai.docker-desktop-coordinator.v1") ≤ 38 := by decide
  refine (jsonBytes_obj_le 100 (1956 + n) (Nat.le_of_ble_eq_true rfl) ?_).trans (by omega)
  simp only [List.map_cons, List.map_nil, itemsBytes, field]
  omega

theorem GenerationState.bytes_le {state : GenerationState} (shape : state.shape = true) :
    jsonBytes state.json ≤ 127 := by
  cases state with
  | awaiting_first_observer | open_ | quiescent | admission_closed => decide
  | fenced fault atSequence =>
    have hfault : jsonBytes (word fault.word) ≤ 30 := by cases fault <;> decide
    have hat := count_le shape
    refine (kindJson_le 40 8 46 (Nat.le_of_ble_eq_true rfl) (by decide) ?_).trans (by omega)
    simp only [List.map_cons, List.map_nil, itemsBytes, field]
    omega
  | cleanup_only digest =>
    have hdigest := digest_le shape
    refine (kindJson_le 40 14 73 (Nat.le_of_ble_eq_true rfl) (by decide) ?_).trans (by omega)
    simpa [itemsBytes, field] using hdigest

theorem effectRoleWord_le (role : EffectRole) : jsonBytes (word role.word) ≤ 16 := by
  cases role with
  | member => decide
  | resource role => exact roleWord_le role

theorem effectActionWord_le (action : EffectAction) : jsonBytes (word action.word) ≤ 16 := by
  cases action with
  | member_retire => decide
  | resource action => cases action <;> decide

theorem EffectResult.bytes_le {result : EffectResult} (shape : result.shape = true) :
    jsonBytes result.json ≤ 1565 := by
  cases result with
  | unobserved => decide
  | returned id =>
    have hid := id_le shape
    refine (kindJson_le 16 10 1538 (Nat.le_of_ble_eq_true rfl) (by decide) ?_).trans (by omega)
    simpa [itemsBytes, field] using hid

theorem transitionRecipe_le {value : JsString} (h : isTransitionRecipe value = true) :
    jsonBytes (.str value) ≤ 60 := by
  simp only [isTransitionRecipe, List.any_eq_true, Bool.and_eq_true, beq_iff_eq] at h
  obtain ⟨role, -, action, -, -, rfl⟩ := h
  cases role <;> cases action <;> decide

/-- An effect that the schema accepts fits its byte capacity. -/
theorem EnteredEffect.bytes_le {effect : EnteredEffect} (shape : effect.shape = true) :
    jsonBytes effect.json ≤ COORDINATOR_JOURNAL_LIMITS.effectBytes := by
  simp only [EnteredEffect.shape, QueuedEffect.shape, Bool.and_eq_true] at shape
  obtain ⟨⟨⟨⟨⟨⟨⟨⟨⟨⟨⟨hsequence, hmember⟩, hbinding⟩, hrequested⟩, harmed⟩, hrevision⟩, hcheckpoint⟩,
    hreference⟩, hbefore⟩, hrecipe⟩, hinput⟩, hresult⟩ := shape
  have h1 := count_le hsequence
  have h2 := uuid_le hmember
  have h3 := digest_le hbinding
  have h4 := count_le hrequested
  have h5 := count_le harmed
  have h6 := count_le hrevision
  have h7 := digest_le hcheckpoint
  have h8 := id_le hreference
  have h9 := digest_le hbefore
  have h10 := transitionRecipe_le hrecipe
  have h11 := digest_le hinput
  have h12 := EffectResult.bytes_le hresult
  have h13 := effectRoleWord_le effect.role
  have h14 := effectActionWord_le effect.action
  have hkeys : keyBytes (([js "effectSequence", js "memberId", js "role", js "action",
      js "bindingDigest", js "requestedAtSequence"] : List JsString) ++ [js "armedAtSequence",
      js "checkpointRevision", js "checkpointDigest", js "reference", js "expectedBeforeDigest",
      js "transitionRecipe", js "expectedInputDigest", js "result"]) ≤ 270 := by decide
  unfold EnteredEffect.json
  refine (jsonBytes_obj_le 270 3826 ?_ ?_).trans (by decide)
  · exact hkeys
  rw [List.map_append, itemsBytes_append]
  simp only [QueuedEffect.fields, List.map_cons, List.map_nil, itemsBytes, field]
  omega

theorem QueuedEffect.bytes_le {effect : QueuedEffect} (shape : effect.shape = true) :
    jsonBytes effect.json ≤ COORDINATOR_JOURNAL_LIMITS.effectBytes := by
  simp only [QueuedEffect.shape, Bool.and_eq_true] at shape
  obtain ⟨⟨⟨hsequence, hmember⟩, hbinding⟩, hrequested⟩ := shape
  have h1 := count_le hsequence
  have h2 := uuid_le hmember
  have h3 := digest_le hbinding
  have h4 := count_le hrequested
  have h5 := effectRoleWord_le effect.role
  have h6 := effectActionWord_le effect.action
  refine (jsonBytes_obj_le 120 400 (Nat.le_of_ble_eq_true rfl) ?_).trans (Nat.le_of_ble_eq_true rfl)
  simp only [QueuedEffect.fields, List.map_cons, List.map_nil, itemsBytes, field]
  omega

/-- A generation without its members, its effects and its tombstones. -/
theorem envelope_le {g : DirtyGeneration} (shape : g.shape = true) :
    itemsBytes (g.envelopeFields.map Prod.snd) ≤ 1970 := by
  simp only [DirtyGeneration.shape, Bool.and_eq_true] at shape
  obtain ⟨⟨⟨⟨⟨⟨⟨⟨⟨⟨⟨hidentity, hstate⟩, hbasis⟩, hnextMember⟩, hnextEffect⟩, -⟩, -⟩, -⟩, -⟩, -⟩, -⟩, -⟩ :=
    shape
  have hidentity' := GenerationIdentity.bytes_le hidentity
  have hstate' := GenerationState.bytes_le hstate
  have hbasis' := AuthorityBasis.bytes_le hbasis
  have hmember := count_le hnextMember
  have heffect := count_le hnextEffect
  have hkind : jsonBytes (word "dirty") ≤ 7 := by decide
  simp only [DirtyGeneration.envelopeFields, List.map_cons, List.map_nil, itemsBytes, field]
  omega

/-! ## The frame -/

section Frames

variable {snapshot : CoordinatorSnapshot} {g : DirtyGeneration}

/-- The envelope keeps its capacity. -/
theorem envelope_fits (shape : snapshot.shape = true) (hshape : g.shape = true) :
    bytes (snapshot.jsonWith (.obj g.envelopeFields)) ≤
      COORDINATOR_JOURNAL_LIMITS.envelopeBytes := by
  have hgeneration : jsonBytes (.obj g.envelopeFields) ≤ 130 + 1970 :=
    jsonBytes_obj_le 130 1970 (Nat.le_of_ble_eq_true rfl) (envelope_le hshape)
  exact (CoordinatorSnapshot.jsonWith_le shape hgeneration).trans (Nat.le_of_ble_eq_true rfl)

/-- Bounds on the parts of a generation bound its frame. -/
theorem framed_of_parts (shape : snapshot.shape = true) (hg : snapshot.generation = .dirty g)
    (members : ∀ item ∈ g.members, jsonBytes item.json ≤ 98314)
    (queue : ∀ effect ∈ g.queue, jsonBytes effect.json ≤ 4096)
    (entered : ∀ effect ∈ g.entered, jsonBytes effect.json ≤ 4096)
    (retired : ∀ tombstone ∈ g.retired, jsonBytes tombstone.json ≤ 256) :
    bytes snapshot.json + COORDINATOR_JOURNAL_LIMITS.nativeHeaderBytes ≤
      COORDINATOR_JOURNAL_LIMITS.framedBytes := by
  have hshape : g.shape = true := by
    simp only [CoordinatorSnapshot.shape, hg, Generation.shape, Bool.and_eq_true] at shape
    exact shape.2
  have henvelope := envelope_le hshape
  simp only [DirtyGeneration.shape, Bool.and_eq_true, decide_eq_true_eq] at hshape
  obtain ⟨⟨⟨⟨⟨⟨-, hcount⟩, -⟩, hwaiting⟩, -⟩, -⟩, htombstones⟩ := hshape.1
  have hmembers : jsonBytes (.arr (g.members.map CoordinatorMember.json)) ≤ 2 + 4 + 98314 * 4 :=
    jsonBytes_map_le hcount members
  have hqueue : jsonBytes (.arr (g.queue.map QueuedEffect.json)) ≤ 2 + 16 + 4096 * 16 :=
    jsonBytes_map_le hwaiting queue
  have hentered : jsonBytes (nullable g.entered EnteredEffect.json) ≤ 4096 :=
    nullable_le (by omega) entered
  have hretired : jsonBytes (.arr (g.retired.map MemberTombstone.json)) ≤ 2 + 256 + 256 * 256 :=
    jsonBytes_map_le htombstones retired
  have hgeneration : jsonBytes g.json ≤ 150 + 531000 := by
    refine jsonBytes_obj_le 150 531000 (Nat.le_of_ble_eq_true rfl) ?_
    rw [List.map_append, itemsBytes_append]
    simp only [List.map_cons, List.map_nil, itemsBytes, field]
    omega
  have hjson : jsonBytes snapshot.json ≤ 2100 + (150 + 531000) := by
    rw [CoordinatorSnapshot.json, hg]
    exact CoordinatorSnapshot.jsonWith_le shape hgeneration
  exact (Nat.add_le_add_right hjson _).trans (Nat.le_of_ble_eq_true rfl)

/-- The checks of a member that bound its size. -/
theorem validateMember_sized {item : CoordinatorMember} {seen seen' : Seen}
    (h : validateMember snapshot g seen item = .ok seen') :
    jsonBytes item.checkpoint.record.json ≤ COORDINATOR_JOURNAL_LIMITS.recordBytes ∧
      jsonBytes item.metadata ≤ COORDINATOR_JOURNAL_LIMITS.memberMetadataBytes ∧
      validateProjection item = .ok () := by
  unfold validateMember at h
  obtain ⟨named, -, h⟩ := bind_eq_ok.1 h
  obtain ⟨⟨⟩, hcheckpoint, h⟩ := bind_eq_ok.1 h
  obtain ⟨⟨⟩, -, h⟩ := bind_eq_ok.1 h
  obtain ⟨⟨⟩, -, h⟩ := bind_eq_ok.1 h
  obtain ⟨⟨⟩, hprojection, h⟩ := bind_eq_ok.1 h
  obtain ⟨hmetadata, -⟩ := failIf_bind_eq_ok.1 h
  unfold validateCheckpoint at hcheckpoint
  obtain ⟨recordDigest, hrecord, -⟩ := bind_eq_ok.1 hcheckpoint
  exact ⟨recoveryRecordDigest_le hrecord, Nat.not_lt.1 hmetadata, hprojection⟩

theorem validateEffect_sized {seen : Seen} {queued : Bool} {effect : QueuedEffect} {size : Nat}
    (h : validateEffect snapshot g seen queued effect size = .ok ()) :
    size ≤ COORDINATOR_JOURNAL_LIMITS.effectBytes := by
  unfold validateEffect at h
  obtain ⟨hbound, -⟩ := failIf_bind_eq_ok.1 h
  simp only [not_or] at hbound
  exact Nat.not_lt.1 hbound.2.2.2.2.1

/-- **A snapshot that passed the other checks fits its frame.** -/
theorem framed_of_validated (shape : snapshot.shape = true) (hg : snapshot.generation = .dirty g)
    (h : validateDirty snapshot g = .ok ()) :
    bytes snapshot.json + COORDINATOR_JOURNAL_LIMITS.nativeHeaderBytes ≤
      COORDINATOR_JOURNAL_LIMITS.framedBytes := by
  unfold validateDirty at h
  obtain ⟨⟨⟩, -, h⟩ := bind_eq_ok.1 h
  obtain ⟨seen, hmembers, h⟩ := bind_eq_ok.1 h
  obtain ⟨-, h⟩ := failIf_bind_eq_ok.1 h
  obtain ⟨-, h⟩ := failIf_bind_eq_ok.1 h
  obtain ⟨⟨⟩, hqueue, h⟩ := bind_eq_ok.1 h
  obtain ⟨⟨⟩, hentered, h⟩ := bind_eq_ok.1 h
  obtain ⟨⟨⟩, -, h⟩ := bind_eq_ok.1 h
  obtain ⟨⟨⟩, hretired, -⟩ := bind_eq_ok.1 h
  refine framed_of_parts shape hg (fun item hitem => ?_) (fun effect heffect => ?_)
    (fun effect heffect => ?_) (fun tombstone hmem => ?_)
  · obtain ⟨x, y, hok⟩ := foldlM_ok_mem hmembers item hitem
    obtain ⟨hrecord, hmetadata, -⟩ := validateMember_sized hok
    have hrecord' : jsonBytes item.checkpoint.record.json ≤ 65536 := hrecord
    have hmetadata' : jsonBytes item.metadata ≤ 32768 := hmetadata
    rw [CoordinatorMember.bytes_eq]
    omega
  · exact validateEffect_sized (forM_eq_ok.1 hqueue effect heffect)
  · exact validateEffect_sized (forM_eq_ok.1 hentered effect (Option.mem_toList.2 heffect))
  · have hchecked := failIf_eq_ok.1 (forM_eq_ok.1 hretired tombstone hmem)
    simp only [not_or, Nat.not_lt] at hchecked
    exact hchecked.2

end Frames

/-- **The frame never refuses a snapshot**: one is encoded exactly when it has the schema
and passes the check, whatever fills it. -/
theorem frame_never_refuses (snapshot : CoordinatorSnapshot) :
    encodeCoordinatorSnapshot snapshot = .ok (Json.stringify snapshot.json) ↔
      snapshot.shape = true ∧ validateSnapshot snapshot = .ok () := by
  constructor
  · intro h
    obtain ⟨parsed, hparsed, -⟩ := bind_eq_ok.1 h
    obtain ⟨-, hvalid⟩ := parseCoordinatorSnapshot_ok hparsed
    exact ⟨hvalid.shape, hvalid.validated⟩
  · rintro ⟨hshape, hvalidated⟩
    refine CoordinatorSnapshot.Valid.encoded ⟨?_, hshape, hvalidated⟩
    obtain ⟨key, -, h⟩ := bind_eq_ok.1 hvalidated
    obtain ⟨-, h⟩ := failIf_bind_eq_ok.1 h
    obtain ⟨-, h⟩ := failIf_bind_eq_ok.1 h
    cases hg : snapshot.generation with
    | dirty g =>
      rw [hg] at h
      exact framed_of_validated hshape hg h
    | clean g =>
      have hparts := hshape
      simp only [CoordinatorSnapshot.shape, hg, Generation.shape, Bool.and_eq_true] at hparts
      obtain ⟨-, ⟨hordinal, hlast⟩, hat⟩ := hparts
      have hordinal := count_le hordinal
      have hat := count_le hat
      have hlast : jsonBytes (nullable g.lastGenerationId .str) ≤ 218 :=
        nullable_le (by omega) fun id hid => uuid_le ((Option.all_eq_true _ _).1 hlast id hid)
      have hclean : jsonBytes g.json ≤ 80 + (7 + 250) :=
        kindJson_le 80 7 250 (Nat.le_of_ble_eq_true rfl) (by decide) (by
          simp only [List.map_cons, List.map_nil, itemsBytes, field]
          omega)
      rw [CoordinatorSnapshot.json, hg]
      exact (Nat.add_le_add_right (CoordinatorSnapshot.jsonWith_le hshape hclean) _).trans
        (Nat.le_of_ble_eq_true rfl)

end AgentSdk.Journal
