import AgentSdk.Journal.Frame
import AgentSdk.Journal.Obligations
import AgentSdk.Journal.Recovered

/-!
# Reopening a generation for cleanup

After a crash the journal holds the last committed snapshot.  Recovery of that
snapshot is never refused for what the snapshot contains: every check that it
passed is passed again.

## Main results

* `CoordinatorSnapshot.Valid.recovered` — the recovered snapshot is valid.
* `planReopenCleanup_accepted` — recovery is accepted while sequences are left.
-/

namespace AgentSdk.Journal

open AgentSdk.Text AgentSdk.Outcome AgentSdk.Json

/-! ## The recovered snapshot -/

/-- The snapshot that recovery commits. -/
def CoordinatorSnapshot.recoveredWith (snapshot : CoordinatorSnapshot) (g : DirtyGeneration)
    (digest : JsString) : CoordinatorSnapshot :=
  { snapshot with
    sequence := snapshot.sequence + 1
    previousDigest := some digest
    generation := .dirty (g.recoveredWith digest) }

section Recovered

variable {snapshot : CoordinatorSnapshot} {g : DirtyGeneration} {digest : JsString}

theorem everyone_recovered : (g.recoveredWith digest).everyone = g.everyone := by
  simp only [DirtyGeneration.everyone, DirtyGeneration.recoveredWith, DirtyGeneration.reopened,
    List.map_map]
  rfl

theorem slots_recovered : (g.recoveredWith digest).slots = g.slots := by
  simp only [DirtyGeneration.slots, DirtyGeneration.recoveredWith, List.filterMap_map]
  rfl

theorem validateCounters_recovered {u : Unit} (h : validateCounters snapshot g = .ok u) :
    validateCounters (snapshot.recoveredWith g digest) (g.recoveredWith digest) = .ok () := by
  unfold validateCounters at h ⊢
  obtain ⟨hcounters, h⟩ := failIf_bind_eq_ok.1 h
  obtain ⟨-, h⟩ := failIf_bind_eq_ok.1 h
  obtain ⟨hcapacity, h⟩ := failIf_bind_eq_ok.1 h
  obtain ⟨hsorted, h⟩ := failIf_bind_eq_ok.1 h
  obtain ⟨heveryone, h⟩ := failIf_bind_eq_ok.1 h
  have hslots := failIf_eq_ok.1 h
  have hsequences : (g.recoveredWith digest).members.map CoordinatorMember.memberSequence =
      g.members.map CoordinatorMember.memberSequence := by
    simp only [DirtyGeneration.recoveredWith, List.map_map]
    rfl
  have hlength : (g.recoveredWith digest).members.length = g.members.length := List.length_map ..
  simp only [not_or] at hcounters hsorted
  obtain ⟨-, hordinal, hmembers, heffects, hauthority, hbasis, -⟩ := hcounters
  refine failIf_bind_eq_ok.2 ⟨?_, failIf_bind_eq_ok.2 ⟨by
    simp [DirtyGeneration.recoveredWith, DirtyGeneration.reopened], failIf_bind_eq_ok.2 ⟨?_,
    failIf_bind_eq_ok.2 ⟨?_, failIf_bind_eq_ok.2 ⟨?_, failIf_eq_ok.2 ?_⟩⟩⟩⟩⟩
  · simp only [not_or]
    refine ⟨by simp [CoordinatorSnapshot.recoveredWith], hordinal, hmembers, heffects, hauthority,
      ?_, by simp [DirtyGeneration.recoveredWith, DirtyGeneration.reopened]⟩
    show ¬snapshot.sequence + 1 < g.basis.atSequence
    omega
  · rw [hlength]
    exact hcapacity
  · rw [hsequences]
    simp only [not_or]
    refine ⟨hsorted.1, hsorted.2.1, ?_⟩
    simp [DirtyGeneration.recoveredWith, DirtyGeneration.reopened, sortedUnique]
  · rw [everyone_recovered]
    exact heveryone
  · rw [slots_recovered]
    exact hslots

theorem shape_recoveredWith (hdigest : isDigest digest = true)
    (room : snapshot.sequence < MAX_SAFE_INTEGER) (shape : snapshot.shape = true)
    (hg : snapshot.generation = .dirty g) : (snapshot.recoveredWith g digest).shape = true := by
  simp only [CoordinatorSnapshot.shape, hg, Generation.shape, Bool.and_eq_true] at shape
  obtain ⟨⟨⟨⟨⟨hauthority, hkey⟩, hdaemon⟩, -⟩, -⟩, hgeneration⟩ := shape
  simp only [DirtyGeneration.shape, Bool.and_eq_true, decide_eq_true_eq] at hgeneration
  obtain ⟨⟨⟨⟨⟨⟨⟨⟨⟨⟨⟨hidentity, -⟩, hbasis⟩, hnextMember⟩, hnextEffect⟩, hcount⟩, hmembers⟩, -⟩, -⟩, -⟩,
    htombstones⟩, hretired⟩ := hgeneration
  have hsequence : isSequence (snapshot.sequence + 1) = true := by
    simp only [isSequence, decide_eq_true_eq]
    omega
  have hrecovered : (g.members.map (CoordinatorMember.recoveredWith digest)).all
      CoordinatorMember.shape = true := by
    rw [List.all_map, List.all_eq_true]
    exact fun item hitem => shape_recovered hdigest (List.all_eq_true.1 hmembers item hitem)
  simp only [CoordinatorSnapshot.shape, CoordinatorSnapshot.recoveredWith, Generation.shape,
    DirtyGeneration.shape, DirtyGeneration.recoveredWith, DirtyGeneration.reopened,
    GenerationState.shape, hauthority, hkey, hdaemon, hsequence, hdigest, hidentity, hbasis,
    hnextMember, hnextEffect, hrecovered, htombstones, hretired, List.length_map, hcount,
    Option.all_some, Option.all_none, List.all_nil, List.length_nil, Bool.and_true, decide_true,
    Nat.zero_le]

/-- The metadata of a recovered member fits its capacity. -/
theorem metadata_recovered (sound : GenerationSound snapshot g) (openings : Openings g)
    (active : g.state.isCleanupOnly = false) (hdigest : isDigest digest = true)
    {item : CoordinatorMember} (hitem : item ∈ g.members) (shape : item.shape = true)
    (projection : validateProjection item = .ok ()) :
    jsonBytes (item.recoveredWith digest).metadata ≤
      COORDINATOR_JOURNAL_LIMITS.memberMetadataBytes := by
  have hsound := sound.member item hitem
  obtain ⟨long, hshort⟩ := openings.short active hsound shape (member?_of_mem sound hitem)
  have hroles : (item.recoveredWith digest).roles.map RoleLedger.role =
      item.roles.map RoleLedger.role := by
    simp only [CoordinatorMember.recoveredWith, List.map_map]
    rfl
  have hdistinct : ((item.recoveredWith digest).roles.map RoleLedger.role).Nodup := by
    rw [hroles]
    exact hsound.distinct
  have hnamed : item.projection.Named := validateProjection_named shape projection
  have hstate : jsonBytes (item.recoveredWith digest).state.json ≤ 60 :=
    Nat.le_of_ble_eq_true rfl
  have hwork : jsonBytes (item.recoveredWith digest).work.json ≤ 240 := Nat.le_of_ble_eq_true rfl
  refine CoordinatorMember.metadata_le (shape_recovered hdigest shape) hstate hwork hdistinct long
    (fun ledger hledger hother => ?_) hnamed
  obtain ⟨before, hbefore, rfl⟩ := List.mem_map.1 hledger
  exact hshort before hbefore hother

/-- The check of a dirty generation passes again. -/
theorem validateDirty_recovered (h : validateDirty snapshot g = .ok ())
    (hshape : (snapshot.recoveredWith g digest).shape = true)
    (metadata : ∀ item ∈ g.members, bytes (item.recoveredWith digest).metadata ≤
      COORDINATOR_JOURNAL_LIMITS.memberMetadataBytes) :
    validateDirty (snapshot.recoveredWith g digest) (g.recoveredWith digest) = .ok () := by
  unfold validateDirty at h ⊢
  obtain ⟨⟨⟩, hcounters, h⟩ := bind_eq_ok.1 h
  obtain ⟨seen, hmembers, h⟩ := bind_eq_ok.1 h
  obtain ⟨-, h⟩ := failIf_bind_eq_ok.1 h
  obtain ⟨-, h⟩ := failIf_bind_eq_ok.1 h
  obtain ⟨⟨⟩, -, h⟩ := bind_eq_ok.1 h
  obtain ⟨⟨⟩, -, h⟩ := bind_eq_ok.1 h
  obtain ⟨⟨⟩, -, h⟩ := bind_eq_ok.1 h
  obtain ⟨⟨⟩, hretired, -⟩ := bind_eq_ok.1 h
  have hsequence : snapshot.sequence ≤ (snapshot.recoveredWith g digest).sequence :=
    Nat.le_succ snapshot.sequence
  have hmembers' : (g.recoveredWith digest).members.foldlM
      (validateMember (snapshot.recoveredWith g digest) (g.recoveredWith digest))
      (Seen.recovered {}) = .ok seen.recovered :=
    foldlM_ok_map (CoordinatorMember.recoveredWith digest) Seen.recovered
      (fun x item hitem y hok =>
        validateMember_recovered hsequence rfl rfl rfl (metadata item hitem) hok) hmembers
  have heffects : (g.recoveredWith digest).effects = [] := rfl
  have htombstones : (g.recoveredWith digest).retired.forM
      (validateTombstone (snapshot.recoveredWith g digest)) = .ok () := by
    refine forM_eq_ok.2 fun tombstone hmem => ?_
    have hchecked := failIf_eq_ok.1 (forM_eq_ok.1 hretired tombstone hmem)
    refine failIf_eq_ok.2 fun hbad => hchecked (hbad.imp_left fun hfuture => ?_)
    exact Nat.lt_of_le_of_lt hsequence hfuture
  have henvelope : bytes ((snapshot.recoveredWith g digest).jsonWith
      (.obj (g.recoveredWith digest).envelopeFields)) ≤
      COORDINATOR_JOURNAL_LIMITS.envelopeBytes := by
    have hgeneration := hshape
    simp only [CoordinatorSnapshot.shape, Bool.and_eq_true] at hgeneration
    exact envelope_fits hshape hgeneration.2
  refine bind_eq_ok.2 ⟨(), validateCounters_recovered hcounters, bind_eq_ok.2 ⟨_, hmembers',
    failIf_bind_eq_ok.2 ⟨by simp [heffects], failIf_bind_eq_ok.2 ⟨?_, bind_eq_ok.2 ⟨(), rfl,
    bind_eq_ok.2 ⟨(), rfl, bind_eq_ok.2 ⟨(), ?_, bind_eq_ok.2 ⟨(), htombstones,
    failIf_eq_ok.2 (Nat.not_lt.2 henvelope)⟩⟩⟩⟩⟩⟩⟩⟩
  · exact Nat.not_lt.2 (Nat.zero_le _)
  · exact failIf_eq_ok.2 (by simp [Seen.recovered])

/-- **The recovered snapshot is valid.** -/
theorem CoordinatorSnapshot.Valid.recovered (valid : snapshot.Valid)
    (hg : snapshot.generation = .dirty g) (openings : Openings g)
    (active : g.state.isCleanupOnly = false) (room : snapshot.sequence < MAX_SAFE_INTEGER)
    (hdigest : isDigest digest = true) : (snapshot.recoveredWith g digest).Valid := by
  have hshape := shape_recoveredWith hdigest room valid.shape hg
  have sound := valid.sound hg
  have hgeneration : g.shape = true := by
    have hsnapshot := valid.shape
    simp only [CoordinatorSnapshot.shape, hg, Generation.shape, Bool.and_eq_true] at hsnapshot
    exact hsnapshot.2
  have hvalidated := valid.validated
  unfold validateSnapshot at hvalidated
  obtain ⟨engineKey, hkey, hvalidated⟩ := bind_eq_ok.1 hvalidated
  obtain ⟨hbound, hvalidated⟩ := failIf_bind_eq_ok.1 hvalidated
  obtain ⟨-, hvalidated⟩ := failIf_bind_eq_ok.1 hvalidated
  rw [hg] at hvalidated
  have hdirty : validateDirty snapshot g = .ok () := hvalidated
  have hmetadata : ∀ item ∈ g.members, jsonBytes (item.recoveredWith digest).metadata ≤
      COORDINATOR_JOURNAL_LIMITS.memberMetadataBytes := by
    intro item hitem
    unfold validateDirty at hvalidated
    obtain ⟨⟨⟩, -, hvalidated⟩ := bind_eq_ok.1 hvalidated
    obtain ⟨seen, hmembers, -⟩ := bind_eq_ok.1 hvalidated
    obtain ⟨x, y, hok⟩ := foldlM_ok_mem hmembers item hitem
    simp only [DirtyGeneration.shape, Bool.and_eq_true] at hgeneration
    have hitemShape := List.all_eq_true.1 hgeneration.1.1.1.1.1.2 item hitem
    exact metadata_recovered sound openings active hdigest hitem hitemShape
      (validateMember_sized hok).2.2
  have hdirty' := validateDirty_recovered hdirty hshape hmetadata
  refine ⟨framed_of_validated hshape rfl hdirty', hshape, ?_⟩
  refine bind_eq_ok.2 ⟨engineKey, hkey, failIf_bind_eq_ok.2 ⟨hbound, failIf_bind_eq_ok.2 ⟨?_,
    hdirty'⟩⟩⟩
  simp [CoordinatorSnapshot.recoveredWith]

/-! ## Acceptance -/

/-- A commit of a valid successor is accepted. -/
theorem commit_accepted {generation : Generation} (room : snapshot.sequence < MAX_SAFE_INTEGER)
    (hdigest : snapshotDigest snapshot = .ok digest) (next : CoordinatorSnapshot)
    (hnext : next = { snapshot with
      sequence := snapshot.sequence + 1, previousDigest := some digest, generation })
    (hvalid : next.Valid) : commit snapshot generation = .ok next := by
  subst hnext
  unfold commit
  refine failIf_bind_eq_ok.2 ⟨Nat.ne_of_lt room, bind_eq_ok.2 ⟨digest, hdigest, ?_⟩⟩
  simp only [hvalid.encoded, hvalid.parsed, discard, Functor.discard]
  rfl

/-- **Recovery is accepted** on every valid snapshot of a generation that is not yet
for cleanup only, while sequences are left. -/
theorem planReopenCleanup_accepted (valid : snapshot.Valid) (hg : snapshot.generation = .dirty g)
    (slot : Slot g) (openings : Openings g) (active : g.state.isCleanupOnly = false)
    (room : snapshot.sequence < MAX_SAFE_INTEGER) :
    ∃ digest, isDigest digest = true ∧ planCoordinatorTransition snapshot .reopen_cleanup =
      .ok (.commit (snapshot.recoveredWith g digest)) := by
  obtain ⟨digest, hdigest, hisDigest⟩ := valid.digest
  have hvalid := valid.recovered hg openings active room hisDigest
  have hcommit : commit snapshot (.dirty (g.recoveredWith digest)) =
      .ok (snapshot.recoveredWith g digest) :=
    commit_accepted room hdigest _ rfl hvalid
  have hrecovered : recoveredGeneration g digest = .ok (g.recoveredWith digest) :=
    recoveredGeneration_eq slot (valid.sound hg)
  refine ⟨digest, hisDigest, ?_⟩
  simp only [planCoordinatorTransition, hg, planDirtyTransition, planReopenCleanup, active,
    Bool.false_eq_true, if_false]
  refine failIf_bind_eq_ok.2 ⟨by omega, bind_eq_ok.2 ⟨digest, hdigest, bind_eq_ok.2
    ⟨_, hrecovered, ?_⟩⟩⟩
  unfold commitDirty
  exact bind_eq_ok.2 ⟨_, hcommit, rfl⟩

/-- Recovery of a generation for cleanup only changes nothing. -/
theorem planReopenCleanup_repeated (hg : snapshot.generation = .dirty g)
    (cleanup : g.state.isCleanupOnly = true) (room : snapshot.sequence < MAX_SAFE_INTEGER) :
    planCoordinatorTransition snapshot .reopen_cleanup = .ok (.commit snapshot) := by
  simp only [planCoordinatorTransition, hg, planDirtyTransition, planReopenCleanup, cleanup, if_true]
  exact failIf_bind_eq_ok.2 ⟨by omega, rfl⟩

/-! ## What recovery keeps -/

/-- What a recovery keeps of a member. -/
structure MemberRecovered (member next : CoordinatorMember) : Prop where
  memberId : next.memberId = member.memberId
  memberSequence : next.memberSequence = member.memberSequence
  binding : next.binding = member.binding
  checkpoint : next.checkpoint = member.checkpoint
  allocation : next.allocation = member.allocation
  projection : next.projection = member.projection
  roles : next.roles.map RoleLedger.role = member.roles.map RoleLedger.role
  presences : next.roles.map RoleLedger.presence = member.roles.map RoleLedger.presence

/-- What a recovery keeps of a generation: members, checkpoints, presences and
tombstones; only the entered action has another receipt. -/
structure Recovered (g next : DirtyGeneration) : Prop where
  cleanup : next.state.isCleanupOnly = true
  effects : next.effects = []
  identity : next.identity = g.identity
  retired : next.retired = g.retired
  members : List.Forall₂ MemberRecovered g.members next.members
  cells : ∀ owner, (∀ entered ∈ g.entered, entered.owner ≠ owner) → next.cell? owner = g.cell? owner
  entered : ∀ entered ∈ g.entered, ∃ digest,
    next.cell? entered.owner = some (.uncertain entered.effectSequence digest)

theorem memberRecovered (member : CoordinatorMember) :
    MemberRecovered member (member.recoveredWith digest) := by
  refine ⟨rfl, rfl, rfl, rfl, rfl, rfl, ?_, ?_⟩
  · simp only [CoordinatorMember.recoveredWith, List.map_map]
    rfl
  · simp only [CoordinatorMember.recoveredWith, List.map_map]
    rfl

theorem recovered_kept (slot : Slot g) (sound : GenerationSound snapshot g) :
    Recovered g (g.recoveredWith digest) := by
  have hrecovered : recoveredGeneration g digest = .ok (g.recoveredWith digest) :=
    recoveredGeneration_eq slot sound
  have hmembers : List.Forall₂ MemberRecovered g.members (g.recoveredWith digest).members := by
    simp only [DirtyGeneration.recoveredWith, List.forall₂_map_right_iff]
    exact List.forall₂_same.2 fun item _ => memberRecovered item
  refine ⟨rfl, rfl, rfl, rfl, hmembers, fun owner hother => ?_, fun entered hentered => ?_⟩
  · rcases recoveredGeneration_ok slot hrecovered with hidle | hactive
    · rw [hidle.2, cell?_reopened]
    · obtain ⟨entered, member, role, action, ledger, hentered, horiginal, hnext⟩ := hactive
      rw [hnext, cell?_recovered horiginal, if_neg fun hsame => hother entered hentered hsame.symm]
  · rcases recoveredGeneration_ok slot hrecovered with hidle | hactive
    · rw [hidle.1] at hentered
      cases hentered
    · obtain ⟨other, member, role, action, ledger, hother, horiginal, hnext⟩ := hactive
      rw [hother] at hentered
      cases hentered
      exact ⟨digest, by rw [hnext, cell?_recovered horiginal, if_pos rfl]⟩

end Recovered

end AgentSdk.Journal
