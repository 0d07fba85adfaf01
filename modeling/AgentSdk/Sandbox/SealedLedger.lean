import AgentSdk.Sandbox.MetadataLedger

/-!
# Sealing and reading a ledger

Sealing merges the runs into one, checks it and indexes it; reading a sealed
ledger gives its records in component order, and looking a path up searches the
index.

## Main results

* `sealing_settles` — the check of the sorted records decides how sealing ends.
* `records_settles`, `get_settles` — what a sealed ledger answers.
-/

namespace AgentSdk.Sandbox

open AgentSdk.Text AgentSdk.Paced

namespace Ledger

variable {progress : Progress} {options : MetadataLedgerOptions}

/-! ### Merging every run -/

variable (progress options) in
/-- Passes over the runs leave at most one run of the same records. -/
theorem mergeAll_settles (rounds : Nat) :
    ∀ {files : SpillFiles} {state : SortState} {runs : List (List EncodedRecord)},
      Spilled files.data.1 files.descriptors.1 state runs → Mergeable runs →
      files.data.1.length ≤ maxSafeInteger → files.descriptors.1.length ≤ maxSafeInteger →
      runs.length ≤ rounds →
      ∃ files' state' merged, Spilled files'.data.1 files'.descriptors.1 state' merged ∧
        Mergeable merged ∧ merged.flatten.Perm runs.flatten ∧ merged.length ≤ 1 ∧
        Settles (mergeAll progress options rounds files state) (.ok (files', state')) := by
  induction rounds with
  | zero =>
    intro files state runs hspilled hmergeable _ _ hrounds
    refine ⟨files, state, runs, hspilled, hmergeable, List.Perm.refl _, by omega, ?_⟩
    rw [mergeAll, if_neg (by rw [hspilled.runs_eq]; omega)]
    exact Settles.pure _
  | succ rounds ih =>
    intro files state runs hspilled hmergeable hdata hrows hrounds
    rw [mergeAll]
    split
    · rename_i hmany
      rw [hspilled.runs_eq] at hmany
      obtain ⟨files', state', merged, hspilled', hmergeable', hperm, hshorter, hpass⟩ :=
        mergePass_spill progress options hmergeable hspilled hdata hrows
      have hsize : files'.data.1.length = files.data.1.length := by
        rw [hspilled'.data_eq, hspilled.data_eq, length_runBytes_perm hperm]
      have hrows' : files'.descriptors.1.length ≤ files.descriptors.1.length := by
        rw [hspilled'.descriptors_eq, hspilled.descriptors_eq, length_descriptorsFrom,
          length_descriptorsFrom]
        exact Nat.mul_le_mul_right _ (by omega)
      obtain ⟨files'', state'', one, hspilled'', hmergeable'', hperm', hone, hall⟩ :=
        ih hspilled' hmergeable' (by omega) (by omega) (by omega)
      exact ⟨files'', state'', one, hspilled'', hmergeable'', hperm'.trans hperm, hone,
        hpass.bind hall⟩
    · rename_i hfew
      rw [hspilled.runs_eq] at hfew
      exact ⟨files, state, runs, hspilled, hmergeable, List.Perm.refl _, by omega,
        Settles.pure _⟩

/-- A rearranged image is the image of a rearrangement. -/
theorem exists_map_of_perm {α β : Type} {f : α → β} {l m : List β} (h : l.Perm m) :
    ∀ {r : List α}, m = r.map f → ∃ s : List α, l = s.map f ∧ s.Perm r := by
  induction h with
  | nil =>
    intro r hr
    exact ⟨[], rfl, by simp [List.map_eq_nil_iff.1 hr.symm]⟩
  | cons x _ ih =>
    intro r hr
    obtain ⟨a, r, rfl, rfl, hrest⟩ := List.map_eq_cons_iff.1 hr.symm
    obtain ⟨s, hs, hperm⟩ := ih hrest.symm
    exact ⟨a :: s, by simp [hs], hperm.cons a⟩
  | swap x y t =>
    intro r hr
    obtain ⟨a, r, rfl, rfl, hrest⟩ := List.map_eq_cons_iff.1 hr.symm
    obtain ⟨b, r, rfl, rfl, rfl⟩ := List.map_eq_cons_iff.1 hrest
    exact ⟨b :: a :: r, rfl, List.Perm.swap a b r⟩
  | trans _ _ ih₁ ih₂ =>
    intro r hr
    obtain ⟨s, hs, hperm⟩ := ih₂ hr
    obtain ⟨t, ht, hperm'⟩ := ih₁ hs
    exact ⟨t, ht, hperm'.trans hperm⟩

/-- The one run that is left, as records in order. -/
theorem sorted_of_merged {merged : List (List EncodedRecord)} {records : List MetadataRecord}
    (hmergeable : Mergeable merged) (hone : merged.length ≤ 1)
    (hperm : merged.flatten.Perm (records.map encodeRecord)) :
    ∃ sorted : List MetadataRecord, merged.flatten = sorted.map encodeRecord ∧
      sorted.Perm records ∧ sorted.Pairwise Before := by
  obtain ⟨sorted, hsorted, hsortedPerm⟩ := exists_map_of_perm hperm rfl
  refine ⟨sorted, hsorted, hsortedPerm, ?_⟩
  have hrun : SortedRun merged.flatten := by
    match merged, hone with
    | [], _ => exact List.Pairwise.nil
    | [run], _ => simpa using hmergeable.sorted run (by simp)
  rw [hsorted, SortedRun, List.pairwise_map] at hrun
  exact hrun.imp before_iff.1

/-! ### The index -/

/-- The offsets of records that lie one after the other. -/
def offsetsFrom : Nat → List EncodedRecord → Bytes
  | _, [] => []
  | start, record :: records => toBe 8 start ++ offsetsFrom (start + record.size) records

@[simp] theorem length_offsetsFrom (start : Nat) (records : List EncodedRecord) :
    (offsetsFrom start records).length = records.length * 8 := by
  induction records generalizing start with
  | nil => simp [offsetsFrom]
  | cons record records ih =>
    simp [offsetsFrom, ih]
    omega

theorem offsetsFrom_append (start : Nat) (r s : List EncodedRecord) :
    offsetsFrom start (r ++ s) =
      offsetsFrom start r ++ offsetsFrom (start + (runBytes r).length) s := by
  induction r generalizing start with
  | nil => simp [offsetsFrom]
  | cons record records ih => simp [offsetsFrom, ih, Nat.add_assoc]

variable (progress) in
theorem indexLoop_settles {data : Bytes} {all : List EncodedRecord} (hdata : data = runBytes all)
    (hvalid : ∀ r ∈ all, r.Valid) (hsafe : data.length ≤ maxSafeInteger)
    (hroom : all.length * 8 ≤ maxSafeInteger) :
    ∀ (rest : List EncodedRecord) (done : List EncodedRecord) (rounds : Nat), all = done ++ rest →
      rest.length < rounds →
      Settles (indexLoop progress data rounds ⟨(runBytes done).length, data.length⟩ done.length
        (offsetsFrom 0 done)) (.ok (offsetsFrom 0 all, all.length)) := by
  intro rest
  induction rest with
  | nil =>
    intro done rounds hall hrounds
    obtain ⟨rounds, rfl⟩ : ∃ k, rounds = k + 1 := ⟨rounds - 1, by simp at hrounds; omega⟩
    have hend : (runBytes done).length = data.length := by simp [hdata, hall]
    rw [hend, hall, List.append_nil]
    exact (readRecord_end progress data data.length).bind (Settles.pure _)
  | cons record rest ih =>
    intro done rounds hall hrounds
    obtain ⟨rounds, rfl⟩ : ∃ k, rounds = k + 1 := ⟨rounds - 1, by simp at hrounds; omega⟩
    have hsplit : data = runBytes done ++ record.bytes ++ runBytes rest := by
      simp [hdata, hall]
    have hlength := congrArg List.length hsplit
    simp only [List.length_append, length_bytes] at hlength
    have hread := readRecord_mid progress (runBytes done) (runBytes rest)
      data.length (hvalid record (by simp [hall])) (by omega) hsafe
    rw [← hsplit] at hread
    have hcount : all.length = done.length + 1 + rest.length := by
      rw [hall]
      simp
      omega
    have hwrite := writeOffset_end progress (offsetsFrom 0 done) done.length
      (runBytes done).length (by simp) (by omega) (by omega)
    have hnext := ih (done ++ [record]) rounds (by simp [hall]) (by simp at hrounds; omega)
    rw [offsetsFrom_append] at hnext
    simp only [runBytes_append, runBytes_cons, runBytes_nil, List.append_nil, List.length_append,
      length_bytes, List.length_singleton, Nat.zero_add, offsetsFrom] at hnext
    exact hread.bind (hwrite.bind ((address_ok (by omega)).bind hnext))

/-! ### Sealing -/

/-- A sealed ledger holds these records in order, and the index of them. -/
structure Sealed (ledger : Ledger) (sorted : List MetadataRecord) : Prop where
  phase : ledger.phase = .sealed
  data : ledger.files.data.1 = runBytes (sorted.map encodeRecord)
  offsets : ledger.files.data.2 = offsetsFrom 0 (sorted.map encodeRecord)
  stop : ledger.state.stop = ledger.files.data.1.length
  count : ledger.recordCount = sorted.length
  fits : ledger.files.data.1.length ≤ maxSafeInteger

variable (progress options) in
/-- The check of the sorted records decides how sealing ends. -/
theorem sealing_settles {ledger : Ledger} {records : List MetadataRecord}
    (h : Holding ledger records) (hfits : totalBytes records ≤ maxSafeInteger) :
    ∃ sorted : List MetadataRecord, sorted.Perm records ∧ sorted.Pairwise Before ∧
      (∀ e, check [] sorted = .error e → Settles (sealing progress options ledger) (.error e)) ∧
      (check [] sorted = .ok () → ∃ ledger', Sealed ledger' sorted ∧
        Settles (sealing progress options ledger) (.ok (ledger', ()))) := by
  obtain ⟨flushed, hflush, hflushed, -, hstop, -⟩ := flush_settles progress h hfits
  obtain ⟨runs, hspilled, hmergeable, hperm⟩ := hflushed.runs
  have hroom := hflushed.room
  have hflushedFits := hflushed.fits
  have hdataLength := hspilled.stop_eq
  have hrunsLength := hspilled.runs_eq
  have hrows : flushed.files.descriptors.1.length ≤ maxSafeInteger := by
    rw [hspilled.descriptors_eq, length_descriptorsFrom, descriptorBytes]
    unfold maxSafeInteger at *
    omega
  obtain ⟨files, state, merged, hspilled', hmergeable', hperm', hone, hmerge⟩ :=
    mergeAll_settles progress options flushed.state.runs hspilled hmergeable (by omega) hrows
      (by omega)
  obtain ⟨sorted, hsorted, hsortedPerm, hbefore⟩ :=
    sorted_of_merged hmergeable' hone (hperm'.trans hperm)
  have hdata : files.data.1 = runBytes (sorted.map encodeRecord) := by
    rw [hspilled'.data_eq, hsorted]
  have hsize : files.data.1.length = flushed.files.data.1.length := by
    rw [hspilled'.data_eq, hspilled.data_eq, length_runBytes_perm hperm']
  have hnine := nine_le_runBytes (sorted.map encodeRecord)
  rw [← hdata, List.length_map] at hnine
  have hvalid : ∀ r ∈ sorted.map encodeRecord, r.Valid := valid_of_perm (hsortedPerm.map _)
  have hat : At files.data.1 ⟨0, state.stop⟩ (sorted.map encodeRecord) :=
    ⟨[], [], by simp [hdata], rfl, by rw [hspilled'.stop_eq, hdata]; simp⟩
  have hcheck : Settles (validateRun progress files.data.1 state.stop) (check [] sorted) :=
    validateLoop_check progress (by omega) sorted [] _ _ hat (by omega)
  refine ⟨sorted, hsortedPerm, hbefore, ?_, ?_⟩
  · intro e he
    rw [he] at hcheck
    exact hflush.bind (hmerge.bind hcheck.bind_error)
  · intro hok
    rw [hok] at hcheck
    have hindex := indexLoop_settles progress hdata hvalid (by omega)
      (by rw [List.length_map]; omega) (sorted.map encodeRecord) [] (files.data.1.length + 1) rfl
      (by rw [List.length_map]; omega)
    have hstart : RunCursor.mk (runBytes []).length files.data.1.length = ⟨0, state.stop⟩ := by
      rw [hspilled'.stop_eq]
      rfl
    rw [hstart] at hindex
    have hindexed : Settles (index progress { flushed with files := files, state := state })
        (.ok { flushed with
          files := { files with data := (files.data.1, offsetsFrom 0 (sorted.map encodeRecord)) }
          state := state
          recordCount := (sorted.map encodeRecord).length }) := hindex.bind (Settles.pure _)
    refine ⟨_, ?_, hflush.bind (hmerge.bind (hcheck.bind (hindexed.bind (Settles.pure _))))⟩
    exact ⟨rfl, hdata, rfl, hspilled'.stop_eq, by simp, by dsimp only; omega⟩

variable (progress options) in
theorem sealing_error {ledger : Ledger} {records : List MetadataRecord}
    (h : Holding ledger records) (hfits : maxSafeInteger < totalBytes records) :
    ∃ e, Settles (sealing progress options ledger) (.error e) := by
  obtain ⟨e, he⟩ := flush_error progress h hfits
  exact ⟨e, he.bind_error⟩

/-! ### Reading a sealed ledger -/

variable (progress) in
theorem recordsLoop_settles {file : Bytes} (hsafe : file.length ≤ maxSafeInteger)
    (records : List MetadataRecord) :
    ∀ (cursor : RunCursor) (rounds : Nat), At file cursor (records.map encodeRecord) →
      records.length < rounds →
      Settles (recordsLoop progress file rounds cursor) (.ok records) := by
  induction records with
  | nil =>
    intro cursor rounds hat hrounds
    obtain ⟨rounds, rfl⟩ : ∃ k, rounds = k + 1 := ⟨rounds - 1, by simp at hrounds; omega⟩
    obtain ⟨cursor', _, hread⟩ := readRecord_at progress hat (by simp) hsafe
    exact hread.bind (Settles.pure _)
  | cons record records ih =>
    intro cursor rounds hat hrounds
    obtain ⟨rounds, rfl⟩ : ∃ k, rounds = k + 1 := ⟨rounds - 1, by simp at hrounds; omega⟩
    obtain ⟨cursor', hat', hread⟩ := readRecord_at progress hat
      (valid_of_perm (List.Perm.refl _)) hsafe
    have hdecode : Settles (Paced.lift (decodeRecord (encodeRecord record))) (.ok record) := by
      rw [decodeRecord_encodeRecord]
      exact Settles.lift _
    exact hread.bind (hdecode.bind
      ((ih cursor' rounds hat' (by simp at hrounds; omega)).bind (Settles.pure _)))

theorem Sealed.at_start {ledger : Ledger} {sorted : List MetadataRecord} (h : Sealed ledger sorted) :
    At ledger.files.data.1 ⟨0, ledger.state.stop⟩ (sorted.map encodeRecord) :=
  ⟨[], [], by simp [h.data], rfl, by rw [h.stop, h.data]; simp⟩

theorem Sealed.count_le {ledger : Ledger} {sorted : List MetadataRecord} (h : Sealed ledger sorted) :
    9 * sorted.length ≤ ledger.files.data.1.length := by
  have hnine := nine_le_runBytes (sorted.map encodeRecord)
  rwa [← h.data, List.length_map] at hnine

variable (progress) in
/-- Reading a sealed ledger gives its records in order. -/
theorem records_settles {ledger : Ledger} {sorted : List MetadataRecord} (h : Sealed ledger sorted) :
    Settles (records progress ledger) (.ok (ledger, .ok sorted)) := by
  have hcount := h.count_le
  have hloop := recordsLoop_settles progress h.fits sorted _ (ledger.files.data.1.length + 1)
    h.at_start (by omega)
  rw [records, if_neg (by simp [h.phase])]
  exact enter_ok (hloop.bind (Settles.pure _))

/-! ### The search -/

variable (progress) in
/-- The record at an ordinal of the index. -/
theorem read_ordinal {ledger : Ledger} {done later : List MetadataRecord} {record : MetadataRecord}
    (h : Sealed ledger (done ++ record :: later)) :
    Settles (readOffset progress ledger.files.data.2 done.length)
        (.ok (runBytes (done.map encodeRecord)).length) ∧
      Settles (readRecord progress ledger.files.data.1
          ⟨(runBytes (done.map encodeRecord)).length, ledger.state.stop⟩)
        (.ok (some (encodeRecord record),
          ⟨(runBytes (done.map encodeRecord)).length + (encodeRecord record).size,
            ledger.state.stop⟩)) := by
  have hcount := h.count_le
  have hfits := h.fits
  have hdata := h.data
  have hoffsets := h.offsets
  rw [List.length_append, List.length_cons] at hcount
  simp only [List.map_append, List.map_cons, runBytes_append, runBytes_cons,
    ← List.append_assoc] at hdata
  rw [List.map_append, List.map_cons, offsetsFrom_append, offsetsFrom, Nat.zero_add,
    ← List.append_assoc] at hoffsets
  have hlength := congrArg List.length hdata
  simp only [List.length_append, length_bytes] at hlength
  constructor
  · rw [hoffsets]
    exact readOffset_mid progress (by simp) (by omega) (by omega)
  · rw [hdata, h.stop]
    exact readRecord_mid progress _ _ _ (encodeRecord_valid record) (by omega) h.fits

theorem mem_of_position {α : Type} {done later : List α} {a b : α} {i : Nat}
    (h : (done ++ a :: later)[i]? = some b) :
    (i < done.length ∧ b ∈ done) ∨ (i = done.length ∧ b = a) ∨ (done.length < i ∧ b ∈ later) := by
  rcases Nat.lt_trichotomy i done.length with hi | hi | hi
  · rw [List.getElem?_append_left hi] at h
    exact Or.inl ⟨hi, List.mem_of_getElem? h⟩
  · subst hi
    exact Or.inr (Or.inl ⟨rfl, by simpa using h.symm⟩)
  · rw [List.getElem?_append_right (by omega), show i - done.length = i - done.length - 1 + 1 by omega,
      List.getElem?_cons_succ] at h
    exact Or.inr (Or.inr ⟨hi, List.mem_of_getElem? h⟩)

/-- The records in strict order of their paths. -/
def Ascending (sorted : List MetadataRecord) : Prop :=
  sorted.Pairwise fun r s => components r.path < components s.path

variable (progress) in
/-- The search between two ordinals finds the record of a path when no other
ordinal can hold it. -/
theorem lookupLoop_settles {ledger : Ledger} {sorted : List MetadataRecord}
    (h : Sealed ledger sorted) (hsorted : Ascending sorted) (path : SandboxRelativePath) :
    ∀ (remaining : Nat) (low high : Int), (high - low + 1).toNat = remaining → 0 ≤ low →
      high < sorted.length →
      (∀ (i : Nat) (record : MetadataRecord), sorted[i]? = some record → record.path = path →
        low ≤ i ∧ i ≤ high) →
      Settles (lookupLoop progress ledger (encodeRecord (.directory path)).key low high)
        (.ok (sorted.find? fun record => record.path = path)) := by
  intro remaining
  induction remaining using Nat.strong_induction_on with
  | _ remaining ih =>
    intro low high hremaining hlow hhigh hwhere
    rw [lookupLoop]
    split
    · rename_i hmore
      generalize hmiddle : low + (high - low) / 2 = middle
      have hmiddleLow : low ≤ middle := by omega
      have hmiddleHigh : middle ≤ high := by omega
      obtain ⟨k, rfl⟩ := Int.eq_ofNat_of_zero_le (by omega : 0 ≤ middle)
      have hk : k < sorted.length := by omega
      obtain ⟨done, record, later, hsplit, hdone⟩ : ∃ done record later,
          sorted = done ++ record :: later ∧ done.length = k :=
        ⟨sorted.take k, sorted[k], sorted.drop (k + 1), by simp, by simp; omega⟩
      subst hsplit hdone
      obtain ⟨hoffset, hread⟩ := read_ordinal progress h
      refine hoffset.bind (hread.bind ?_)
      dsimp only
      obtain ⟨_, hlater, hcross⟩ := List.pairwise_append.1 hsorted
      have hdoneLess : ∀ d ∈ done, components d.path < components record.path :=
        fun d hd => hcross d hd record (by simp)
      have hlaterLess : ∀ l ∈ later, components record.path < components l.path :=
        (List.pairwise_cons.1 hlater).1
      split
      · rename_i heq
        have hpath : record.path = path := key_inj.1 (bufferCompare_eq_eq.1 heq)
        have hfind : (done ++ record :: later).find? (fun record => record.path = path) =
            some record := by
          rw [List.find?_append, List.find?_cons_of_pos (by simpa using hpath)]
          have hnone : done.find? (fun record => record.path = path) = none := by
            rw [List.find?_eq_none]
            intro d hd hd'
            have hless := hdoneLess d hd
            rw [hpath, show d.path = path by simpa using hd'] at hless
            exact lt_irrefl _ hless
          rw [hnone, Option.none_or]
        rw [hfind, decodeRecord_encodeRecord]
        exact (Settles.lift _).bind (Settles.pure _)
      · rename_i hlt
        have hless : components record.path < components path :=
          key_lt.1 (bufferCompare_eq_lt.1 hlt)
        refine ih _ (by omega) (done.length + 1) high rfl (by omega) hhigh ?_
        intro i other hi hpath
        obtain ⟨_, hiHigh⟩ := hwhere i other hi hpath
        refine ⟨?_, hiHigh⟩
        rcases mem_of_position hi with ⟨_, hmem⟩ | ⟨_, rfl⟩ | ⟨hafter, _⟩
        · have hmore := lt_trans (hdoneLess other hmem) hless
          rw [hpath] at hmore
          exact absurd hmore (lt_irrefl _)
        · rw [hpath] at hless
          exact absurd hless (lt_irrefl _)
        · omega
      · rename_i hgt
        have hless : components path < components record.path :=
          key_lt.1 (bufferCompare_eq_gt.1 hgt)
        refine ih _ (by omega) low (done.length - 1) rfl hlow (by omega) ?_
        intro i other hi hpath
        obtain ⟨hiLow, _⟩ := hwhere i other hi hpath
        refine ⟨hiLow, ?_⟩
        rcases mem_of_position hi with ⟨hbefore, _⟩ | ⟨_, rfl⟩ | ⟨_, hmem⟩
        · omega
        · rw [hpath] at hless
          exact absurd hless (lt_irrefl _)
        · have hmore := lt_trans hless (hlaterLess other hmem)
          rw [hpath] at hmore
          exact absurd hmore (lt_irrefl _)
    · rename_i hdone
      have hnone : sorted.find? (fun record => record.path = path) = none := by
        rw [List.find?_eq_none]
        intro record hrecord hpath
        obtain ⟨i, hi⟩ := List.mem_iff_getElem?.1 hrecord
        have hrange := hwhere i record hi (by simpa using hpath)
        omega
      rw [hnone]
      exact Settles.pure _

variable (progress) in
/-- Looking a path up finds the record of the path. -/
theorem lookup_settles {ledger : Ledger} {sorted : List MetadataRecord} (h : Sealed ledger sorted)
    (hsorted : Ascending sorted) (path : SandboxRelativePath) :
    Settles (lookup progress ledger path)
      (.ok (sorted.find? fun record => record.path = path)) := by
  have hcount := h.count
  refine lookupLoop_settles progress h hsorted path _ 0 (ledger.recordCount - 1) rfl
    (Int.le_refl 0) (by omega) ?_
  intro i record hi _
  have hrange := (List.getElem?_eq_some_iff.1 hi).1
  omega

variable (progress) in
theorem get_settles {ledger : Ledger} {sorted : List MetadataRecord} (h : Sealed ledger sorted)
    (hsorted : Ascending sorted) (path : SandboxRelativePath) :
    Settles (get progress ledger path)
      (.ok (ledger, .ok (sorted.find? fun record => record.path = path))) := by
  rw [get, if_neg (by simp [h.phase])]
  exact enter_ok ((lookup_settles progress h hsorted path).bind (Settles.pure _))

end Ledger

end AgentSdk.Sandbox
