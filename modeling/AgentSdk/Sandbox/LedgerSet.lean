import AgentSdk.Sandbox.SealedLedger

/-!
# The ledger as a set of paths

A ledger answers as the set of its records in component order: no batch size,
no fan-in, no pace of the spill files and no order of the appends shows.

## Main results

* `subtree_contiguous` — the members of a directory stand right behind it.
* `metadata_ledger_set` — the ledger as a set with conflict detection.
-/

namespace AgentSdk.Sandbox

open AgentSdk.Text AgentSdk.Paced

namespace Ledger

/-! ### Component order -/

/-- The records in the order of the components of their paths. -/
def componentOrder (records : List MetadataRecord) : List MetadataRecord :=
  records.mergeSort fun r s => !decide (components s.path < components r.path)

theorem componentOrder_perm (records : List MetadataRecord) :
    (componentOrder records).Perm records := List.mergeSort_perm records _

theorem componentOrder_before (records : List MetadataRecord) :
    (componentOrder records).Pairwise Before := by
  have hle : ∀ r s : MetadataRecord,
      (!decide (components s.path < components r.path)) = true ↔ Before r s := by
    intro r s
    simp [Before]
  have hpairwise := @List.pairwise_mergeSort _
    (fun r s : MetadataRecord => !decide (components s.path < components r.path))
    (fun r s t hrs hst => (hle r t).2 (((hle r s).1 hrs).trans ((hle s t).1 hst)))
    (fun r s => by
      rw [Bool.or_eq_true, hle, hle, Before, Before, not_lt, not_lt]
      exact le_total _ _) records
  exact hpairwise.imp fun h => (hle _ _).1 h

/-- Records with distinct paths ascend when they are sorted. -/
theorem ascending_of_before {records : List MetadataRecord} (hbefore : records.Pairwise Before)
    (hdistinct : (records.map MetadataRecord.path).Nodup) : Ascending records := by
  have hne : records.Pairwise fun r s => r.path ≠ s.path := List.pairwise_map.1 hdistinct
  refine (hbefore.and hne).imp ?_
  rintro r s ⟨hrs, hpath⟩
  refine lt_of_le_of_ne (not_lt.1 hrs) ?_
  exact fun heq => hpath (components_inj heq)

/-- Only one arrangement of records ascends. -/
theorem ascending_unique {r s : List MetadataRecord} (hr : Ascending r) (hs : Ascending s)
    (hperm : r.Perm s) : r = s :=
  List.Perm.eq_of_pairwise (fun _ _ _ _ hab hba => absurd (lt_trans hab hba) (lt_irrefl _)) hr hs
    hperm

/-- The members of a directory stand right behind it. -/
theorem subtree_contiguous {ordered : List MetadataRecord} (h : Ascending ordered)
    {r : MetadataRecord} (hr : r ∈ ordered) :
    ∃ before members after, ordered = before ++ r :: members ++ after ∧
      ∀ m ∈ ordered, r.path.Contains m.path ↔ m ∈ members := by
  obtain ⟨before, rest, rfl⟩ := List.append_of_mem hr
  obtain ⟨-, hrest, hcross⟩ := List.pairwise_append.1 h
  obtain ⟨hfirst, hrest⟩ := List.pairwise_cons.1 hrest
  let member : MetadataRecord → Bool := fun m => isDescendant (encodeRecord m) (encodeRecord r)
  have hmember : ∀ m, member m = true ↔ r.path.Contains m.path := fun m => isDescendant_iff_contains
  refine ⟨before, rest.takeWhile member, rest.dropWhile member, by simp, ?_⟩
  intro m hm
  constructor
  · intro hcontains
    have hrm := before_of_contains hcontains
    have hmrest : m ∈ rest := by
      rcases List.mem_append.1 hm with hmbefore | hmlater
      · exact absurd (hcross m hmbefore r (by simp)) hrm
      · rcases List.mem_cons.1 hmlater with rfl | hmrest
        · exact absurd rfl hcontains.2
        · exact hmrest
    rw [← List.takeWhile_append_dropWhile (p := member) (l := rest)] at hmrest
    rcases List.mem_append.1 hmrest with htake | hdrop
    · exact htake
    · -- The first record behind the members lies between `r` and `m`.
      exfalso
      cases hsplit : rest.dropWhile member with
      | nil =>
        rw [hsplit] at hdrop
        exact List.not_mem_nil hdrop
      | cons x later =>
        have hx : member x = false := by
          have hhead := List.head?_dropWhile_not member rest
          rw [hsplit] at hhead
          simpa using hhead
        have hxrest : x ∈ rest :=
          (List.dropWhile_sublist member).subset (hsplit ▸ List.mem_cons_self)
        have hrx := hfirst x hxrest
        have hxm : Before x m := by
          rw [hsplit] at hdrop
          rcases List.mem_cons.1 hdrop with rfl | hlater
          · exact lt_irrefl _
          · have hpair := hrest.sublist (List.dropWhile_sublist member)
            rw [hsplit] at hpair
            exact lt_asymm ((List.pairwise_cons.1 hpair).1 m hlater)
        rcases contains_of_between hcontains (lt_asymm hrx) hxm with heq | hrx'
        · rw [heq] at hrx
          exact lt_irrefl _ hrx
        · rw [(hmember x).2 hrx'] at hx
          exact Bool.noConfusion hx
  · intro hmembers
    exact (hmember m).1 (List.all_eq_true.1 List.all_takeWhile m hmembers)

/-! ### The ledger as a set -/

/-- The records in component order, each once, and every subtree contiguous. -/
structure ComponentOrder (ordered records : List MetadataRecord) : Prop where
  same : ordered.Perm records
  ascending : Ascending ordered
  contiguous : ∀ r ∈ ordered, ∃ before members after, ordered = before ++ r :: members ++ after ∧
    ∀ m ∈ ordered, r.path.Contains m.path ↔ m ∈ members

/-- A ledger replays these records and finds each of them by its path. -/
structure Answers (progress : Progress) (ledger : Ledger) (ordered : List MetadataRecord) :
    Prop where
  replay : Settles (records progress ledger) (.ok (ledger, .ok ordered))
  found : ∀ r ∈ ordered, Settles (get progress ledger r.path) (.ok (ledger, .ok (some r)))
  absent : ∀ path, (∀ r ∈ ordered, r.path ≠ path) →
    Settles (get progress ledger path) (.ok (ledger, .ok none))

theorem find_of_ascending {ordered : List MetadataRecord} (h : Ascending ordered)
    {r : MetadataRecord} (hr : r ∈ ordered) :
    ordered.find? (fun m => m.path = r.path) = some r := by
  obtain ⟨before, rest, rfl⟩ := List.append_of_mem hr
  obtain ⟨_, _, hcross⟩ := List.pairwise_append.1 h
  rw [List.find?_append, List.find?_cons_of_pos (by simp)]
  have hnone : before.find? (fun m => m.path = r.path) = none := by
    rw [List.find?_eq_none]
    intro m hm hpath
    have hless := hcross m hm r (by simp)
    rw [show m.path = r.path by simpa using hpath] at hless
    exact lt_irrefl _ hless
  rw [hnone, Option.none_or]

theorem Sealed.answers {progress : Progress} {ledger : Ledger} {ordered : List MetadataRecord}
    (h : Sealed ledger ordered) (hordered : Ascending ordered) :
    Answers progress ledger ordered := by
  refine ⟨records_settles progress h, ?_, ?_⟩
  · intro r hr
    rw [← find_of_ascending hordered hr]
    exact get_settles progress h hordered r.path
  · intro path hpath
    have hnone : ordered.find? (fun m => m.path = path) = none := by
      rw [List.find?_eq_none]
      exact fun r hr => by simpa using hpath r hr
    rw [← hnone]
    exact get_settles progress h hordered path

/-- Appending records and finishing the ledger. -/
theorem fillAndFinish_settles (options : MetadataLedgerOptions) (progress : Progress)
    (records : List MetadataRecord) :
    ∃ ledger result, Settles (fillAndFinish progress options records) (.ok (ledger, result)) ∧
      (result = .ok () ↔ ConflictFree records ∧ totalBytes records ≤ maxSafeInteger) ∧
      (result = .ok () → Sealed ledger (componentOrder records)) := by
  obtain ⟨ledger, hfill, hcases⟩ := fill_settles progress options records rfl holding_create
  rw [List.nil_append] at hcases
  rcases hcases with ⟨hopen, hholding⟩ | ⟨hfailed, hfar⟩
  · have hfinish : finish progress options ledger = Ledger.enter { ledger with phase := .finishing }
        (sealing progress options { ledger with phase := .finishing }) := if_neg (by simp [hopen])
    have hfinishing : Holding { ledger with phase := .finishing } records :=
      { hholding with }
    by_cases hfits : totalBytes records ≤ maxSafeInteger
    · obtain ⟨sorted, hperm, hbefore, herror, hok⟩ :=
        sealing_settles progress options hfinishing hfits
      have hconflict := (check_eq_ok hbefore).trans (ConflictFree.perm hperm)
      cases hcheck : check [] sorted with
      | error e =>
        have hfailed := enter_error { ledger with phase := .finishing }
          (herror e hcheck)
        rw [← hfinish] at hfailed
        rw [hcheck] at hconflict
        exact ⟨_, .error e, hfill.bind hfailed, by simpa [hfits] using hconflict, by simp⟩
      | ok u =>
        obtain ⟨ledger', hsealed, hsealing⟩ := hok hcheck
        have hfree := hconflict.1 hcheck
        have hascending := ascending_of_before hbefore
          ((hperm.map _).nodup_iff.2 hfree.distinct)
        have horder := ascending_of_before (componentOrder_before records)
          (((componentOrder_perm records).map _).nodup_iff.2 hfree.distinct)
        have hsame := ascending_unique hascending horder
          (hperm.trans (componentOrder_perm records).symm)
        refine ⟨ledger', .ok (), hfill.bind ?_, by simp [hfree, hfits], fun _ => hsame ▸ hsealed⟩
        rw [hfinish]
        exact enter_ok hsealing
    · obtain ⟨e, he⟩ := sealing_error progress options hfinishing
        (by omega)
      have hfailed := enter_error { ledger with phase := .finishing } he
      rw [← hfinish] at hfailed
      exact ⟨_, .error e, hfill.bind hfailed, by simp [hfits], by simp⟩
  · have hreject : finish progress options ledger =
        ledger.reject (js "Metadata sealing requires an idle open ledger.") :=
      if_pos (by simp [hfailed])
    have hrefused : Settles (finish progress options ledger) (.ok (ledger,
        .error (.state (js "Metadata sealing requires an idle open ledger.")))) := by
      rw [hreject]
      exact Settles.pure _
    refine ⟨ledger, _, hfill.bind hrefused, ?_, by simp⟩
    simp
    omega

/-- Finishing succeeds exactly for records free of conflicts whose bytes have
addresses; the ledger then replays them in component order and finds each by its
path.  The order is a function of the set of records alone. -/
theorem metadata_ledger_set (options : MetadataLedgerOptions) (progress : Progress)
    (records : List MetadataRecord) :
    ∃ ledger result, Settles (fillAndFinish progress options records) (.ok (ledger, result)) ∧
      (result = .ok () ↔ ConflictFree records ∧ totalBytes records ≤ maxSafeInteger) ∧
      (result = .ok () → ComponentOrder (componentOrder records) records ∧
        Answers progress ledger (componentOrder records) ∧
        ∀ records', records'.Perm records → componentOrder records' = componentOrder records) := by
  obtain ⟨ledger, result, hsettles, hiff, hsealed⟩ :=
    fillAndFinish_settles options progress records
  refine ⟨ledger, result, hsettles, hiff, fun hok => ?_⟩
  have hfree := (hiff.1 hok).1
  have hascending : ∀ r : List MetadataRecord, r.Perm records → Ascending (componentOrder r) :=
    fun r hr => ascending_of_before (componentOrder_before r)
      ((((componentOrder_perm r).trans hr).map _).nodup_iff.2 hfree.distinct)
  have horder := hascending records (List.Perm.refl _)
  refine ⟨⟨componentOrder_perm records, horder, fun r hr => subtree_contiguous horder hr⟩,
    (hsealed hok).answers horder, ?_⟩
  intro records' hperm
  exact ascending_unique (hascending records' hperm) horder
    ((componentOrder_perm records').trans (hperm.trans (componentOrder_perm records).symm))

/-! ### Records without addresses -/

theorem relativePathSchema_natDecimal {n : Nat} (h : n < 10 ^ 255) :
    relativePathSchema (natDecimal n) = true := by
  have hdigits : ∀ u ∈ natDecimal n, 48 ≤ u.toNat ∧ u.toNat ≤ 57 := by
    intro u hu
    simpa [isDigit] using isDigit_of_mem_natDecimal hu
  have hsize := ascii_size (natDecimal n) fun u hu => by
    have hrange := hdigits u hu
    omega
  have hlength := length_natDecimal_le (by decide) h
  have hpos : 0 < (natDecimal n).length := List.length_pos_iff.2 (natDecimal_ne_nil n)
  have hsplit : (natDecimal n).splitOn slash = [natDecimal n] := by
    refine List.splitOn_eq_singleton fun hslash => ?_
    have hrange := hdigits slash hslash
    exact absurd hrange.1 (by decide)
  have hsafe : ∀ u ∈ natDecimal n, isUnsafe u = false := by
    intro u hu
    have hrange := hdigits u hu
    have hbackslash : u ≠ 0x5C := by
      rintro rfl
      exact absurd hrange.2 (by decide)
    simp [isUnsafe, hbackslash]
    omega
  have hdot : ∀ dots : JsString, 46 ∈ dots → natDecimal n ≠ dots := by
    rintro dots hmem rfl
    exact absurd (hdigits 46 hmem).1 (by decide)
  simp only [relativePathSchema, safePath, safeSegments, hsplit, utf8Within, hsize.1, hsize.2,
    Bool.true_and, Bool.and_eq_true, decide_eq_true_eq, List.length_singleton, List.all_cons,
    List.all_nil, Bool.and_true, safeSegment, bne_iff_ne, Bool.not_eq_true', List.any_eq_false,
    Limits.maxPathBytes, Limits.maxPathSegmentBytes, Limits.maxPathSegments]
  exact ⟨⟨⟨hpos, by omega⟩, fun u hu => by simp [hsafe u hu]⟩, by decide,
    ⟨⟨hpos, hdot _ (by decide)⟩, hdot _ (by decide)⟩, hlength⟩

/-- The path that spells a number of fewer than 256 digits. -/
def numberedPath (n : Nat) (h : n < 10 ^ 255) : SandboxRelativePath where
  text := natDecimal n
  valid := relativePathSchema_natDecimal h

theorem numberedPath_segments {n : Nat} (h : n < 10 ^ 255) :
    (numberedPath n h).segments = [natDecimal n] := by
  refine List.splitOn_eq_singleton fun hslash => ?_
  have hdigit : isDigit slash = true := isDigit_of_mem_natDecimal hslash
  exact absurd hdigit (by decide)

/-- Files named by the numbers below `n`. -/
def numberedFiles (n : Nat) (h : n ≤ 10 ^ 255) : List MetadataRecord :=
  (List.finRange n).map fun i : Fin n =>
    .file (numberedPath i.1 (Nat.lt_of_lt_of_le i.isLt h))

theorem numberedFiles_conflictFree {n : Nat} (h : n ≤ 10 ^ 255) :
    ConflictFree (numberedFiles n h) := by
  constructor
  · rw [numberedFiles, List.map_map]
    refine (List.nodup_finRange n).map ?_
    intro i j hij
    have htext := congrArg SandboxRelativePath.text hij
    exact Fin.ext (natDecimal_inj htext)
  · intro a ha r hr _ hcontains
    obtain ⟨i, _, rfl⟩ := List.mem_map.1 ha
    obtain ⟨j, _, rfl⟩ := List.mem_map.1 hr
    obtain ⟨hinit, hne⟩ := hcontains
    refine hne (SandboxRelativePath.segments_inj ?_)
    refine hinit.eq_of_length ?_
    show (numberedPath i.1 (Nat.lt_of_lt_of_le i.isLt h)).segments.length =
      (numberedPath j.1 (Nat.lt_of_lt_of_le j.isLt h)).segments.length
    rw [numberedPath_segments, numberedPath_segments]
    rfl

theorem numberedFiles_bytes {n : Nat} (h : n ≤ 10 ^ 255) : 9 * n ≤ totalBytes (numberedFiles n h) := by
  have hnine := nine_le_runBytes ((numberedFiles n h).map encodeRecord)
  have hlength : (numberedFiles n h).length = n := by simp [numberedFiles]
  rwa [List.length_map, hlength] at hnine

/-- The least batch and fan-in that a ledger admits. -/
def smallestOptions : MetadataLedgerOptions where
  batchBytes := maxRecordBytes
  fanIn := 2
  batchBytes_ge := Nat.le_refl _
  batchBytes_le := by decide
  fanIn_ge := Nat.le_refl _
  fanIn_le := by decide

/-- Spill files that move everything at each call. -/
def wholeProgress : Progress where
  amount := fun _ count => count
  pos := fun _ _ h => h
  le := fun _ count => Nat.le_refl count

/-- Files without any conflict are refused when their bytes have no addresses. -/
theorem addresses_run_out : ConflictFree (numberedFiles (2 ^ 53) (by decide)) ∧
    ∃ ledger e, Settles
      (fillAndFinish wholeProgress smallestOptions (numberedFiles (2 ^ 53) (by decide)))
      (.ok (ledger, .error e)) := by
  have hfree := numberedFiles_conflictFree (n := 2 ^ 53) (by decide)
  have hbytes := numberedFiles_bytes (n := 2 ^ 53) (by decide)
  obtain ⟨ledger, result, hsettles, hiff, _⟩ :=
    fillAndFinish_settles smallestOptions wholeProgress (numberedFiles (2 ^ 53) (by decide))
  refine ⟨hfree, ledger, ?_⟩
  cases result with
  | error e => exact ⟨e, hsettles⟩
  | ok u =>
    have hfits := (hiff.1 rfl).2
    unfold maxSafeInteger at hfits
    omega

end Ledger

end AgentSdk.Sandbox
