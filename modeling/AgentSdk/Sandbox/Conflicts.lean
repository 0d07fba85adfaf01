import AgentSdk.Sandbox.Sort

/-!
# Path conflicts

The check of a sorted run keeps the last record and its ancestors on a stack.
It finds a conflict exactly when the records have one.

## Main results

* `validateLoop_check` — reading a run back checks its records in turn.
* `check_eq_ok` — a sorted list of records passes when it is free of conflicts.
-/

namespace AgentSdk.Sandbox

open AgentSdk.Text AgentSdk.Paced

variable (progress : Progress)

/-! ### Paths that contain others -/

namespace SandboxRelativePath

/-- One path properly extends another, component by component. -/
def Contains (ancestor path : SandboxRelativePath) : Prop :=
  ancestor.segments <+: path.segments ∧ ancestor ≠ path

theorem contains_iff {ancestor path : SandboxRelativePath} :
    Contains ancestor path ↔ components ancestor <+: components path ∧ ancestor ≠ path := by
  refine and_congr_left fun _ => ⟨fun h => h.map Utf8.encode, fun h => ?_⟩
  have hdecode : ∀ p : SandboxRelativePath,
      (components p).filterMap Utf8.decode = p.segments := by
    intro p
    have heach : ∀ s ∈ p.segments, (Utf8.decode ∘ Utf8.encode) s = some s :=
      fun s hs => Utf8.decode_encode (p.wellFormed_of_mem hs)
    rw [components, List.filterMap_map, List.filterMap_congr heach]
    simp
  have hfiltered := h.filterMap Utf8.decode
  rwa [hdecode, hdecode] at hfiltered

theorem segments_inj {p q : SandboxRelativePath} (h : p.segments = q.segments) : p = q :=
  components_inj (by rw [components, components, h])

theorem Contains.trans {p q r : SandboxRelativePath} (hpq : Contains p q) (hqr : Contains q r) :
    Contains p r := by
  refine ⟨hpq.1.trans hqr.1, ?_⟩
  rintro rfl
  have hlength := Nat.le_antisymm hpq.1.length_le hqr.1.length_le
  exact hpq.2 (segments_inj (hpq.1.eq_of_length hlength))

end SandboxRelativePath

/-! ### The check of a run -/

/-- The check of records in turn, behind those on the stack. -/
def check : List MetadataRecord → List MetadataRecord → Except SandboxError Unit
  | _, [] => .ok ()
  | ancestors, record :: records => do
      Outcome.failIf (ancestors.head?.any fun previous => previous.path = record.path)
        (.conflict .duplicate_path record.path.text)
      let kept := ancestors.dropWhile fun ancestor =>
        !isDescendant (encodeRecord record) (encodeRecord ancestor)
      Outcome.failIf (kept.head?.any fun ancestor => ancestor.kind == .file)
        (.conflict .file_ancestor record.path.text)
      Outcome.failIf (kept.head?.any fun ancestor => ancestor.kind == .symlink)
        (.conflict .symlink_ancestor record.path.text)
      check (record :: kept) records

theorem settles_failIf {c d : Prop} [Decidable c] [Decidable d] (h : c ↔ d) (e : SandboxError) :
    Settles (Paced.failIf c e) (Outcome.failIf d e) := by
  by_cases hd : d
  · rw [Outcome.failIf_of e hd]
    exact Settles.failIf_of (h.2 hd)
  · rw [Outcome.failIf_of_not e hd]
    exact Settles.failIf_of_not (fun hc => hd (h.1 hc))

theorem compareRecords_eq {r s : MetadataRecord} :
    (compareRecords (encodeRecord r) (encodeRecord s) == .eq) = decide (r.path = s.path) := by
  rw [Bool.eq_iff_iff, beq_iff_eq, decide_eq_true_eq, compareRecords, bufferCompare_eq_eq, key_inj]

theorem keepAncestors_map (record : MetadataRecord) (ancestors : List MetadataRecord) :
    keepAncestors (encodeRecord record) (ancestors.map encodeRecord) =
      (ancestors.dropWhile fun ancestor =>
        !isDescendant (encodeRecord record) (encodeRecord ancestor)).map encodeRecord := by
  rw [keepAncestors, List.dropWhile_map]
  rfl

/-- Reading a run back checks its records in turn. -/
theorem validateLoop_check {file : Bytes} (hsafe : file.length ≤ maxSafeInteger) :
    ∀ (records ancestors : List MetadataRecord) (cursor : RunCursor) (rounds : Nat),
      At file cursor (records.map encodeRecord) → records.length < rounds →
      Settles (validateLoop progress file rounds cursor (ancestors.map encodeRecord))
        (check ancestors records) := by
  intro records
  induction records with
  | nil =>
    intro ancestors cursor rounds hat hrounds
    obtain ⟨cursor', _, hread⟩ := readRecord_at progress hat (by simp) hsafe
    obtain ⟨rounds, rfl⟩ : ∃ k, rounds = k + 1 := ⟨rounds - 1, by simp at hrounds; omega⟩
    exact hread.bind (Settles.pure ())
  | cons record records ih =>
    intro ancestors cursor rounds hat hrounds
    obtain ⟨cursor', hat', hread⟩ := readRecord_at progress hat
      (fun r hr => by
        obtain ⟨m, _, rfl⟩ := List.mem_map.1 hr
        exact encodeRecord_valid m) hsafe
    obtain ⟨rounds, rfl⟩ : ∃ k, rounds = k + 1 := ⟨rounds - 1, by simp at hrounds; omega⟩
    have hdecode : Settles (Paced.lift (decodeRecord (encodeRecord record))) (.ok record) := by
      rw [decodeRecord_encodeRecord]
      exact Settles.lift _
    refine hread.bind (hdecode.bind ?_)
    rw [keepAncestors_map]
    refine (settles_failIf ?_ _).seq fun _ _ => (settles_failIf ?_ _).seq fun _ _ =>
      (settles_failIf ?_ _).seq fun _ _ => ?_
    · rw [List.head?_map]
      cases ancestors.head? with
      | none => rfl
      | some a => simp [compareRecords_eq]
    · rw [List.head?_map]
      cases (ancestors.dropWhile _).head? with
      | none | some => rfl
    · rw [List.head?_map]
      cases (ancestors.dropWhile _).head? with
      | none | some => rfl
    · exact ih (record :: _) cursor' rounds hat' (by simp at hrounds; omega)

/-! ### Sorted records -/

/-- The order of the components of paths. -/
def Before (r s : MetadataRecord) : Prop := ¬components s.path < components r.path

theorem Before.trans {r s t : MetadataRecord} (hrs : Before r s) (hst : Before s t) :
    Before r t := by
  rw [Before, not_lt] at *
  exact le_trans hrs hst

theorem before_iff {r s : MetadataRecord} :
    (encodeRecord r).key ≤ (encodeRecord s).key ↔ Before r s := by
  rw [Before, ← key_lt, not_lt]

theorem path_eq_of_before {r s : MetadataRecord} (hrs : Before r s) (hsr : Before s r) :
    r.path = s.path := by
  rw [Before, not_lt] at hrs hsr
  exact components_inj (le_antisymm hrs hsr)

theorem before_of_contains {r s : MetadataRecord} (h : r.path.Contains s.path) : Before r s :=
  Joined.not_lt_of_prefix (SandboxRelativePath.contains_iff.1 h).1

/-- What lies between a path and one of its extensions is an extension too. -/
theorem contains_of_between {a r s : MetadataRecord} (h : a.path.Contains s.path)
    (har : Before a r) (hrs : Before r s) : a.path = r.path ∨ a.path.Contains r.path := by
  by_cases heq : a.path = r.path
  · exact Or.inl heq
  · have hinit := Joined.prefix_of_between (SandboxRelativePath.contains_iff.1 h).1 har hrs
    exact Or.inr (SandboxRelativePath.contains_iff.2 ⟨hinit, heq⟩)

/-- Records with distinct paths, where no file and no link lies above another
record. -/
structure ConflictFree (records : List MetadataRecord) : Prop where
  distinct : (records.map MetadataRecord.path).Nodup
  apart : ∀ a ∈ records, ∀ r ∈ records, a.kind ≠ .directory → ¬a.path.Contains r.path

theorem ConflictFree.sublist {r s : List MetadataRecord} (hs : ConflictFree s)
    (h : r.Sublist s) : ConflictFree r :=
  ⟨hs.distinct.sublist (h.map _), fun a ha b hb => hs.apart a (h.subset ha) b (h.subset hb)⟩

theorem ConflictFree.perm {r s : List MetadataRecord} (h : r.Perm s) :
    ConflictFree r ↔ ConflictFree s := by
  have hforward : ∀ {r s : List MetadataRecord}, r.Perm s → ConflictFree r → ConflictFree s := by
    intro r s h hr
    exact ⟨(h.map _).nodup_iff.1 hr.distinct,
      fun a ha b hb => hr.apart a (h.mem_iff.2 ha) b (h.mem_iff.2 hb)⟩
  exact ⟨hforward h, hforward h.symm⟩

/-- One more record behind the others in order. -/
theorem conflictFree_snoc (done : List MetadataRecord) {record : MetadataRecord}
    (hbefore : ∀ d ∈ done, Before d record) :
    ConflictFree (done ++ [record]) ↔ ConflictFree done ∧ (∀ d ∈ done, d.path ≠ record.path) ∧
      ∀ a ∈ done, a.kind ≠ .directory → ¬a.path.Contains record.path := by
  constructor
  · intro h
    refine ⟨h.sublist (List.sublist_append_left _ _), ?_, ?_⟩
    · intro d hd heq
      have hdistinct := h.distinct
      rw [List.map_append, List.nodup_append] at hdistinct
      exact hdistinct.2.2 d.path (List.mem_map_of_mem hd) record.path (by simp) heq
    · exact fun a ha => h.apart a (by simp [ha]) record (by simp)
  · rintro ⟨hdone, hnew, habove⟩
    constructor
    · rw [List.map_append, List.nodup_append]
      refine ⟨hdone.distinct, by simp, ?_⟩
      intro p hp q hq
      obtain ⟨d, hd, rfl⟩ := List.mem_map.1 hp
      rw [List.map_singleton, List.mem_singleton] at hq
      exact hq ▸ hnew d hd
    · intro a ha r hr hkind hcontains
      rcases List.mem_append.1 ha with ha | ha
      · rcases List.mem_append.1 hr with hr | hr
        · exact hdone.apart a ha r hr hkind hcontains
        · rw [List.mem_singleton.1 hr] at hcontains
          exact habove a ha hkind hcontains
      · rw [List.mem_singleton.1 ha] at hcontains
        rcases List.mem_append.1 hr with hr | hr
        · exact hnew r hr (path_eq_of_before (hbefore r hr) (before_of_contains hcontains))
        · rw [List.mem_singleton.1 hr] at hcontains
          exact hcontains.2 rfl

/-! ### The stack of ancestors -/

/-- The stack behind the records done: the last of them and its ancestors among
them, the nearest first. -/
structure Stack (done ancestors : List MetadataRecord) : Prop where
  chain : ancestors.Pairwise fun near far => far.path.Contains near.path
  subset : ∀ a ∈ ancestors, a ∈ done
  complete : ∀ last, done.getLast? = some last →
    ∀ a ∈ done, a.path = last.path ∨ a.path.Contains last.path → a ∈ ancestors
  head : ancestors.head? = done.getLast?

/-- The part of the stack above a new record. -/
def above (record : MetadataRecord) (ancestors : List MetadataRecord) : List MetadataRecord :=
  ancestors.dropWhile fun ancestor => !isDescendant (encodeRecord record) (encodeRecord ancestor)

theorem isDescendant_iff_contains {record ancestor : MetadataRecord} :
    isDescendant (encodeRecord record) (encodeRecord ancestor) = true ↔
      ancestor.path.Contains record.path := by
  rw [isDescendant_encodeRecord, SandboxRelativePath.contains_iff]

theorem mem_above {record a : MetadataRecord} {ancestors : List MetadataRecord}
    (hchain : ancestors.Pairwise fun near far => far.path.Contains near.path) :
    a ∈ above record ancestors ↔ a ∈ ancestors ∧ a.path.Contains record.path := by
  induction ancestors with
  | nil => simp [above]
  | cons near far ih =>
    obtain ⟨hnear, hfar⟩ := List.pairwise_cons.1 hchain
    rw [above, List.dropWhile_cons]
    by_cases hdescendant : near.path.Contains record.path
    · rw [if_neg (by simpa using isDescendant_iff_contains.2 hdescendant)]
      constructor
      · intro ha
        refine ⟨ha, ?_⟩
        rcases List.mem_cons.1 ha with rfl | ha
        · exact hdescendant
        · exact (hnear a ha).trans hdescendant
      · exact fun ha => ha.1
    · rw [if_pos (by
        rw [Bool.not_eq_true', Bool.eq_false_iff]
        exact fun h => hdescendant (isDescendant_iff_contains.1 h))]
      refine (ih hfar).trans ?_
      constructor
      · exact fun ha => ⟨List.mem_cons_of_mem near ha.1, ha.2⟩
      · rintro ⟨ha, hcontains⟩
        rcases List.mem_cons.1 ha with rfl | ha
        · exact absurd hcontains hdescendant
        · exact ⟨ha, hcontains⟩

theorem above_sublist (record : MetadataRecord) (ancestors : List MetadataRecord) :
    (above record ancestors).Sublist ancestors := List.dropWhile_sublist _

section Step

variable {done ancestors : List MetadataRecord} {record : MetadataRecord}
  (hstack : Stack done ancestors) (hdone : ConflictFree done)
  (hsorted : (done ++ [record]).Pairwise Before)
include hstack hsorted

omit hstack in
theorem before_of_done {d : MetadataRecord} (hd : d ∈ done) : Before d record :=
  (List.pairwise_append.1 hsorted).2.2 d hd record (by simp)

omit hstack in
theorem before_last {d last : MetadataRecord} (hd : d ∈ done) (hlast : done.getLast? = some last) :
    Before d last := by
  obtain ⟨front, rfl⟩ := List.getLast?_eq_some_iff.1 hlast
  rcases List.mem_append.1 hd with hfront | heq
  · exact (List.pairwise_append.1 (List.pairwise_append.1 hsorted).1).2.2 d hfront last (by simp)
  · rw [List.mem_singleton.1 heq]
    exact lt_irrefl _

omit hsorted in
theorem head_any (p : MetadataRecord → Bool) :
    ancestors.head?.any p = true ↔ ∃ last, done.getLast? = some last ∧ p last = true := by
  rw [hstack.head]
  cases done.getLast? <;> simp

/-- Only the record before it can have the path of a new record. -/
theorem head_path_iff : (ancestors.head?.any fun previous => previous.path = record.path) = true ↔
    ∃ d ∈ done, d.path = record.path := by
  rw [head_any hstack]
  constructor
  · rintro ⟨last, hlast, hpath⟩
    exact ⟨last, List.mem_of_getLast? hlast, by simpa using hpath⟩
  · rintro ⟨d, hd, hpath⟩
    cases hlast : done.getLast? with
    | none => simp_all
    | some last =>
      have hbefore := before_last hsorted hd hlast
      have hafter := before_of_done hsorted (List.mem_of_getLast? hlast)
      rw [Before, ← hpath] at hafter
      exact ⟨last, rfl, by simpa [hpath] using path_eq_of_before hafter hbefore⟩

/-- The stack keeps every record above a new one. -/
theorem mem_above_iff {a : MetadataRecord} :
    a ∈ above record ancestors ↔ a ∈ done ∧ a.path.Contains record.path := by
  rw [mem_above hstack.chain]
  constructor
  · exact fun h => ⟨hstack.subset a h.1, h.2⟩
  · rintro ⟨ha, hcontains⟩
    refine ⟨?_, hcontains⟩
    cases hlast : done.getLast? with
    | none => simp_all
    | some last =>
      have hlastMem : last ∈ done := List.mem_of_getLast? hlast
      exact hstack.complete last hlast a ha (contains_of_between hcontains
        (before_last hsorted ha hlast) (before_of_done hsorted hlastMem))

/-- The nearest record above a new one tells whether any record above it is in
conflict with it: the others lie above the nearest one. -/
theorem above_head_iff (hdone : ConflictFree done) :
    (∀ near, (above record ancestors).head? = some near → near.kind = .directory) ↔
      ∀ a ∈ done, a.kind ≠ .directory → ¬a.path.Contains record.path := by
  constructor
  · intro hnear a ha hkind hcontains
    have hmem := (mem_above_iff hstack hsorted).2 ⟨ha, hcontains⟩
    have hchain := hstack.chain.sublist (above_sublist record ancestors)
    have hsubset : ∀ b ∈ above record ancestors, b ∈ done := fun b hb =>
      ((mem_above_iff hstack hsorted).1 hb).1
    cases habove : above record ancestors with
    | nil =>
      rw [habove] at hmem
      exact List.not_mem_nil hmem
    | cons near far =>
      rw [habove] at hmem hchain hsubset
      rcases List.mem_cons.1 hmem with rfl | hfar
      · exact hkind (hnear a (by rw [habove]; rfl))
      · exact hdone.apart a ha near (hsubset near (by simp)) hkind
          ((List.pairwise_cons.1 hchain).1 a hfar)
  · intro hfree near hnear
    have hmem := (mem_above_iff hstack hsorted).1 (List.mem_of_head? hnear)
    by_contra hkind
    exact hfree near hmem.1 hkind hmem.2

/-- The stack behind a new record. -/
theorem stack_snoc (hnew : ∀ d ∈ done, d.path ≠ record.path) :
    Stack (done ++ [record]) (record :: above record ancestors) := by
  constructor
  · refine List.pairwise_cons.2 ⟨?_, hstack.chain.sublist (above_sublist record ancestors)⟩
    exact fun a ha => ((mem_above_iff hstack hsorted).1 ha).2
  · intro a ha
    rcases List.mem_cons.1 ha with rfl | ha
    · simp
    · exact List.mem_append_left _ ((mem_above_iff hstack hsorted).1 ha).1
  · intro last hlast a ha hrelated
    rw [List.getLast?_append, List.getLast?_singleton, Option.some_or] at hlast
    cases hlast
    rcases List.mem_append.1 ha with ha | ha
    · rcases hrelated with heq | hcontains
      · exact absurd heq (hnew a ha)
      · exact List.mem_cons_of_mem _ ((mem_above_iff hstack hsorted).2 ⟨ha, hcontains⟩)
    · rw [List.mem_singleton.1 ha]
      simp
  · simp

end Step

theorem kind_checks {heads : Option MetadataRecord} :
    ((¬(heads.any fun a => a.kind == .file) = true) ∧
      ¬(heads.any fun a => a.kind == .symlink) = true) ↔
      ∀ near, heads = some near → near.kind = .directory := by
  cases heads with
  | none => simp
  | some a =>
    cases hkind : a.kind <;> simp [hkind]

/-- A sorted list of records passes when it is free of conflicts. -/
theorem check_iff :
    ∀ (records done ancestors : List MetadataRecord), Stack done ancestors → ConflictFree done →
      (done ++ records).Pairwise Before →
      (check ancestors records = .ok () ↔ ConflictFree (done ++ records)) := by
  intro records
  induction records with
  | nil =>
    intro done ancestors _ hdone _
    simpa [check] using hdone
  | cons record records ih =>
    intro done ancestors hstack hdone hsorted
    have happend : done ++ record :: records = done ++ [record] ++ records := by simp
    have hinit : (done ++ [record]).Pairwise Before := by
      rw [happend] at hsorted
      exact (List.pairwise_append.1 hsorted).1
    have hbefore : ∀ d ∈ done, Before d record := fun d => before_of_done hinit
    rw [check, Outcome.failIf_bind_eq_ok, head_path_iff hstack hinit]
    rw [Outcome.failIf_bind_eq_ok, Outcome.failIf_bind_eq_ok, ← and_assoc (a := ¬_ = true),
      ← above, kind_checks, above_head_iff hstack hinit hdone]
    have hsnoc := conflictFree_snoc done hbefore
    constructor
    · rintro ⟨hnew, hfree, hrest⟩
      have hnew' : ∀ d ∈ done, d.path ≠ record.path := fun d hd heq => hnew ⟨d, hd, heq⟩
      rw [happend] at hsorted ⊢
      exact (ih (done ++ [record]) (record :: above record ancestors)
        (stack_snoc hstack hinit hnew') (hsnoc.2 ⟨hdone, hnew', hfree⟩) hsorted).1 hrest
    · intro hall
      rw [happend] at hsorted hall
      obtain ⟨_, hnew, hfree⟩ := hsnoc.1 (hall.sublist (List.sublist_append_left _ _))
      exact ⟨fun ⟨d, hd, heq⟩ => hnew d hd heq, hfree,
        (ih (done ++ [record]) (record :: above record ancestors)
          (stack_snoc hstack hinit hnew) (hsnoc.2 ⟨hdone, hnew, hfree⟩) hsorted).2 hall⟩

theorem check_eq_ok {records : List MetadataRecord} (hsorted : records.Pairwise Before) :
    check [] records = .ok () ↔ ConflictFree records :=
  check_iff records [] [] ⟨by simp, by simp, by simp, rfl⟩ ⟨by simp, by simp⟩ hsorted

end AgentSdk.Sandbox
