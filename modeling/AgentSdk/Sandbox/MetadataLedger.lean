import AgentSdk.Sandbox.Conflicts

/-!
# The metadata ledger

Records are appended in batches, each spilled as a sorted run; sealing merges
the runs, checks the result for conflicts and indexes it.

## Main results

* `flush_settles` — a flush writes the batch as one more sorted run.
* `Filling.append_settles` — an appended record joins those of the ledger.
-/

namespace AgentSdk.Sandbox

open AgentSdk.Text AgentSdk.Paced

inductive LedgerPhase where
  | «open»
  | finishing
  | sealed
  | failed
  deriving DecidableEq, Repr

structure Ledger where
  phase : LedgerPhase
  files : SpillFiles
  batch : List EncodedRecord
  batchSize : Nat
  state : SortState
  recordCount : Nat

def createMetadataLedger : Ledger :=
  { phase := .open
    files := { data := ([], []), descriptors := ([], []) }
    batch := []
    batchSize := 0
    state := { runs := 0, stop := 0, descriptorEnd := 0 }
    recordCount := 0 }

/-- The outcome of a call on a ledger, and the ledger after it. -/
abbrev LedgerCall (α : Type) := Ledger × Except SandboxError α

namespace Ledger

variable (progress : Progress) (options : MetadataLedgerOptions)

/-- Run a call; an error leaves the ledger failed.  A failed ledger refuses
every later call, so what its files hold no longer matters. -/
def enter {α : Type} (ledger : Ledger) (perform : SpillM (Ledger × α)) :
    SpillM (LedgerCall α) := fun n =>
  match perform n with
  | .ok ((ledger, a), n') => .ok ((ledger, .ok a), n')
  | .error e => .ok (({ ledger with phase := .failed }, .error e), n)

def reject {α : Type} (ledger : Ledger) (message : JsString) : SpillM (LedgerCall α) :=
  pure (ledger, .error (.state message))

def writeRecords (file : Bytes) (stop : Nat) : List EncodedRecord → SpillM (Bytes × Nat)
  | [] => pure (file, stop)
  | record :: records => do
      let (file, stop) ← writeRecord progress file record stop
      writeRecords file stop records

def sortBatch (batch : List EncodedRecord) : List EncodedRecord :=
  batch.mergeSort fun left right => compareRecords left right != .gt

def flush (ledger : Ledger) : SpillM Ledger :=
  if ledger.batch = [] then pure ledger
  else do
    let (data, stop) ← writeRecords progress ledger.files.data.1 ledger.state.stop
      (sortBatch ledger.batch)
    let (descriptors, descriptorEnd) ← writeDescriptor progress ledger.files.descriptors.1
      ledger.state.descriptorEnd ledger.state.stop stop
    address (ledger.state.runs + 1)
    pure { ledger with
      files := { data := (data, ledger.files.data.2)
                 descriptors := (descriptors, ledger.files.descriptors.2) }
      state := { runs := ledger.state.runs + 1, stop := stop, descriptorEnd := descriptorEnd }
      batch := []
      batchSize := 0 }

/-- Flush a batch that has no room for a record of this size. -/
def makeRoom (ledger : Ledger) (size : Nat) : SpillM Ledger :=
  if options.batchBytes < ledger.batchSize + size then flush progress ledger else pure ledger

def append (ledger : Ledger) (record : MetadataRecord) : SpillM (LedgerCall Unit) :=
  if ledger.phase ≠ .open then
    ledger.reject (js "Metadata append requires an idle open ledger.")
  else
    let captured := encodeRecord record
    ledger.enter do
      let size := recordHeaderBytes + captured.key.length + captured.target.length
      let ledger ← makeRoom progress options ledger size
      pure ({ ledger with batch := ledger.batch ++ [captured], batchSize := ledger.batchSize + size },
        ())

def mergeAll : Nat → SpillFiles → SortState → SpillM (SpillFiles × SortState)
  | 0, files, state => if 1 < state.runs then throw .exhausted else pure (files, state)
  | rounds + 1, files, state =>
    if 1 < state.runs then do
      let (files, state) ← mergePass progress options files state
      mergeAll rounds files state
    else pure (files, state)

def indexLoop (data : Bytes) : Nat → RunCursor → Nat → Bytes → SpillM (Bytes × Nat)
  | 0, _, _, _ => throw .exhausted
  | rounds + 1, cursor, ordinal, offsets => do
      let position := cursor.position
      let (record, cursor) ← readRecord progress data cursor
      match record with
      | none => pure (offsets, ordinal)
      | some _ => do
          let offsets ← writeOffset progress offsets ordinal position
          address (ordinal + 1)
          indexLoop data rounds cursor (ordinal + 1) offsets

/-- Index the records in the second data file, truncated first. -/
def index (ledger : Ledger) : SpillM Ledger := do
  let data := ledger.files.data.1
  let (offsets, count) ← indexLoop progress data (data.length + 1) ⟨0, ledger.state.stop⟩ 0 []
  pure { ledger with
    files := { ledger.files with data := (data, offsets) }
    recordCount := count }

/-- What finishing performs: the last flush, the merge, the check, the index. -/
def sealing (ledger : Ledger) : SpillM (Ledger × Unit) := do
  let ledger ← flush progress ledger
  let (files, state) ← mergeAll progress options ledger.state.runs ledger.files ledger.state
  let ledger := { ledger with files := files, state := state }
  validateRun progress ledger.files.data.1 ledger.state.stop
  let ledger ← index progress ledger
  pure ({ ledger with phase := .sealed }, ())

def finish (ledger : Ledger) : SpillM (LedgerCall Unit) :=
  if ledger.phase ≠ .open then
    ledger.reject (js "Metadata sealing requires an idle open ledger.")
  else
    let ledger := { ledger with phase := .finishing }
    ledger.enter (sealing progress options ledger)

def recordsLoop (data : Bytes) : Nat → RunCursor → SpillM (List MetadataRecord)
  | 0, _ => throw .exhausted
  | rounds + 1, cursor => do
      let (record, cursor) ← readRecord progress data cursor
      match record with
      | none => pure []
      | some record => do
          let record ← Paced.lift (decodeRecord record)
          let later ← recordsLoop data rounds cursor
          pure (record :: later)

/-- Every record an exclusive reader receives before it is done. -/
def records (ledger : Ledger) : SpillM (LedgerCall (List MetadataRecord)) :=
  if ledger.phase ≠ .sealed then
    ledger.reject (js "Metadata records require a sealed ledger and one exclusive reader.")
  else
    ledger.enter do
      let all ← recordsLoop progress ledger.files.data.1 (ledger.files.data.1.length + 1)
        ⟨0, ledger.state.stop⟩
      pure (ledger, all)

def lookupLoop (ledger : Ledger) (key : Bytes) (low high : Int) :
    SpillM (Option MetadataRecord) :=
  if low ≤ high then do
    let ordinal := low + (high - low) / 2
    let position ← readOffset progress ledger.files.data.2 ordinal.toNat
    let (record, _) ← readRecord progress ledger.files.data.1 ⟨position, ledger.state.stop⟩
    match record with
    | none => throw (.spill (js "Metadata index did not point at a record."))
    | some record =>
      match bufferCompare record.key key with
      | .eq => do
          let record ← Paced.lift (decodeRecord record)
          pure (some record)
      | .lt => lookupLoop ledger key (low + (high - low) / 2 + 1) high
      | .gt => lookupLoop ledger key low (low + (high - low) / 2 - 1)
  else pure none
  termination_by (high - low + 1).toNat
  decreasing_by all_goals omega

def lookup (ledger : Ledger) (path : SandboxRelativePath) : SpillM (Option MetadataRecord) :=
  lookupLoop progress ledger (encodeRecord (.directory path)).key 0 (ledger.recordCount - 1)

def get (ledger : Ledger) (path : SandboxRelativePath) :
    SpillM (LedgerCall (Option MetadataRecord)) :=
  if ledger.phase ≠ .sealed then
    ledger.reject (js "Metadata lookup requires an idle sealed ledger.")
  else
    ledger.enter do
      let record ← lookup progress ledger path
      pure (ledger, record)

/-- Append records in turn. -/
def fill (ledger : Ledger) : List MetadataRecord → SpillM Ledger
  | [] => pure ledger
  | record :: records => do
      let (ledger, _) ← append progress options ledger record
      fill ledger records

/-- Append records to a new ledger and finish it. -/
def fillAndFinish (records : List MetadataRecord) : SpillM (LedgerCall Unit) := do
  let ledger ← fill progress options createMetadataLedger records
  finish progress options ledger

/-! ### Calls -/

variable {progress options}

variable {ledger : Ledger} {records : List MetadataRecord}

theorem enter_ok {α : Type} {ledger' : Ledger} {perform : SpillM (Ledger × α)} {a : α}
    (h : Settles perform (.ok (ledger', a))) :
    Settles (ledger.enter perform) (.ok (ledger', .ok a)) := by
  intro n
  obtain ⟨n', hn'⟩ := h n
  refine ⟨n', ?_⟩
  simp [enter, hn', Except.map]

theorem enter_error {α : Type} (ledger : Ledger) {perform : SpillM (Ledger × α)} {e : SandboxError}
    (h : Settles perform (.error e)) :
    Settles (ledger.enter perform) (.ok ({ ledger with phase := .failed }, .error e)) := by
  intro n
  obtain ⟨n', hn'⟩ := h n
  refine ⟨n, ?_⟩
  simp [enter, hn', Except.map]

/-! ### Writing a batch -/

variable (progress) in
theorem writeRecords_ok (records : List EncodedRecord) (file : Bytes)
    (h : file.length + (runBytes records).length ≤ maxSafeInteger) :
    Settles (writeRecords progress file file.length records)
      (.ok (file ++ runBytes records, (file ++ runBytes records).length)) := by
  induction records generalizing file with
  | nil => simpa [writeRecords] using Settles.pure (ε := SandboxError) (file, file.length)
  | cons record records ih =>
    rw [runBytes_cons, List.length_append, length_bytes] at h
    have hnext := ih (file ++ record.bytes) (by rw [List.length_append, length_bytes]; omega)
    rw [show (file ++ record.bytes).length = file.length + record.size by simp] at hnext
    rw [runBytes_cons, ← List.append_assoc]
    exact (writeRecord_end progress file record (by omega)).bind hnext

variable (progress) in
theorem writeRecords_error (records : List EncodedRecord) (file : Bytes)
    (hfile : file.length ≤ maxSafeInteger)
    (h : maxSafeInteger < file.length + (runBytes records).length) :
    ∃ e, Settles (writeRecords progress file file.length records) (.error e) := by
  induction records generalizing file with
  | nil => simp at h; omega
  | cons record records ih =>
    rw [runBytes_cons, List.length_append, length_bytes] at h
    by_cases hfit : file.length + record.size ≤ maxSafeInteger
    · obtain ⟨e, he⟩ := ih (file ++ record.bytes) (by simpa using hfit)
        (by rw [List.length_append, length_bytes]; omega)
      rw [show (file ++ record.bytes).length = file.length + record.size by simp] at he
      exact ⟨e, (writeRecord_end progress file record hfit).bind he⟩
    · obtain ⟨e, he⟩ := writeRecord_too_far progress file record (by omega)
      exact ⟨e, he.bind_error⟩

theorem sortBatch_perm (batch : List EncodedRecord) : (sortBatch batch).Perm batch :=
  List.mergeSort_perm batch _

theorem sortBatch_sorted (batch : List EncodedRecord) : SortedRun (sortBatch batch) := by
  have hle : ∀ a b : EncodedRecord, (compareRecords a b != .gt) = true ↔ a.key ≤ b.key := by
    intro a b
    rw [bne_iff_ne, ← not_lt, ← bufferCompare_eq_gt]
    rfl
  have hpairwise := @List.pairwise_mergeSort _ (fun a b => compareRecords a b != .gt)
    (fun a b c hab hbc => (hle a c).2 (le_trans ((hle a b).1 hab) ((hle b c).1 hbc)))
    (fun a b => by
      rw [Bool.or_eq_true, hle, hle]
      exact le_total _ _) batch
  exact hpairwise.imp fun h => (hle _ _).1 h

/-! ### Filling a ledger -/

/-- The bytes that records take in a spill file. -/
def totalBytes (records : List MetadataRecord) : Nat :=
  (runBytes (records.map encodeRecord)).length

/-- What the files and the batch of a ledger hold before it is finished: the
records appended so far, in sorted runs and an unsorted batch.  A run costs 16
bytes of descriptors; `room` and `next` bound the number of runs by the bytes of
the records, since two batches in a row exceed the largest record. -/
structure Holding (ledger : Ledger) (records : List MetadataRecord) : Prop where
  runs : ∃ runs, Spilled ledger.files.data.1 ledger.files.descriptors.1 ledger.state runs ∧
    Mergeable runs ∧ (runs.flatten ++ ledger.batch).Perm (records.map encodeRecord)
  size : ledger.batchSize = (runBytes ledger.batch).length
  first : ledger.batch = [] → ledger.state.runs = 0
  room : 64 * ledger.state.runs ≤ ledger.state.stop + 55
  next : ledger.batch ≠ [] → 64 * (ledger.state.runs + 1) ≤
    ledger.state.stop + ledger.batchSize + 55
  fits : ledger.state.stop ≤ maxSafeInteger

/-- The same when the batch has been written. -/
structure Flushed (ledger : Ledger) (records : List MetadataRecord) : Prop where
  runs : ∃ runs, Spilled ledger.files.data.1 ledger.files.descriptors.1 ledger.state runs ∧
    Mergeable runs ∧ runs.flatten.Perm (records.map encodeRecord)
  batch : ledger.batch = []
  size : ledger.batchSize = 0
  room : 64 * ledger.state.runs ≤ ledger.state.stop + 55
  fits : ledger.state.stop ≤ maxSafeInteger

theorem Holding.total (h : Holding ledger records) :
    ledger.state.stop + ledger.batchSize = totalBytes records := by
  obtain ⟨runs, hspilled, _, hperm⟩ := h.runs
  rw [totalBytes, ← length_runBytes_perm hperm, hspilled.stop_eq, hspilled.data_eq, h.size]
  simp

theorem valid_of_perm {r : List EncodedRecord} (h : r.Perm (records.map encodeRecord)) :
    ∀ e ∈ r, e.Valid := by
  intro e he
  obtain ⟨record, _, rfl⟩ := List.mem_map.1 (h.mem_iff.1 he)
  exact encodeRecord_valid record

variable (progress) in
/-- A flush writes the batch as one more sorted run. -/
theorem flush_settles (h : Holding ledger records) (hfits : totalBytes records ≤ maxSafeInteger) :
    ∃ ledger', Settles (flush progress ledger) (.ok ledger') ∧ Flushed ledger' records ∧
      ledger'.phase = ledger.phase ∧
      ledger'.state.stop = ledger.state.stop + ledger.batchSize ∧
      ledger'.state.runs ≤ ledger.state.runs + 1 := by
  have htotal := h.total
  obtain ⟨runs, hspilled, hmergeable, hperm⟩ := h.runs
  unfold flush
  split
  · rename_i hempty
    have hsize : ledger.batchSize = 0 := by rw [h.size, hempty]; rfl
    rw [hempty, List.append_nil] at hperm
    exact ⟨ledger, Settles.pure _, ⟨⟨runs, hspilled, hmergeable, hperm⟩, hempty, hsize, h.room,
      h.fits⟩, rfl, by omega, Nat.le_succ _⟩
  · rename_i hbatch
    have hsortPerm := sortBatch_perm ledger.batch
    have hbytes := length_runBytes_perm hsortPerm
    have hstop := hspilled.stop_eq
    have hend := hspilled.descriptorEnd_eq
    have hcount := hspilled.runs_eq
    have hrows : ledger.files.descriptors.1.length = runs.length * 16 := by
      rw [hspilled.descriptors_eq, length_descriptorsFrom, descriptorBytes]
    have hnext := h.next hbatch
    have hsize := h.size
    have hwrite := writeRecords_ok progress (sortBatch ledger.batch) ledger.files.data.1 (by omega)
    have hlength : (ledger.files.data.1 ++ runBytes (sortBatch ledger.batch)).length =
        ledger.state.stop + ledger.batchSize := by
      rw [List.length_append]
      omega
    have hrow := writeDescriptor_end progress ledger.files.descriptors.1
      ledger.state.stop
      (ledger.files.data.1 ++ runBytes (sortBatch ledger.batch)).length h.fits (by omega)
      (by
        unfold descriptorBytes maxSafeInteger at *
        omega)
    rw [← hstop] at hwrite
    rw [← hend] at hrow
    have haddress : ledger.state.runs + 1 ≤ maxSafeInteger := by
      unfold maxSafeInteger at *
      omega
    refine ⟨_, hwrite.bind (hrow.bind ((address_ok haddress).bind (Settles.pure _))), ?_, rfl,
      hlength, Nat.le_refl _⟩
    refine ⟨⟨runs ++ [sortBatch ledger.batch], ?_, ?_, ?_⟩, rfl, rfl, ?_, ?_⟩
    · refine ⟨?_, ?_, rfl, ?_, ?_⟩
      · simp [hspilled.data_eq]
      · rw [descriptorsFrom_append, ← hspilled.descriptors_eq, hstop, hspilled.data_eq]
        simp [descriptorsFrom]
      · simp [hend]
      · simp [hcount]
    · refine hmergeable.append ⟨?_, ?_, ?_⟩
      · intro run hrun hnil
        rw [List.mem_singleton.1 hrun] at hnil
        rw [hnil] at hsortPerm
        exact hbatch hsortPerm.nil_eq.symm
      · intro run hrun e he
        rw [List.mem_singleton.1 hrun] at he
        exact valid_of_perm hperm e (List.mem_append_right _ (hsortPerm.mem_iff.1 he))
      · intro run hrun
        rw [List.mem_singleton.1 hrun]
        exact sortBatch_sorted ledger.batch
    · simpa using (hsortPerm.append_left runs.flatten).trans hperm
    · dsimp only
      omega
    · dsimp only
      omega

variable (progress) in
theorem flush_error (h : Holding ledger records) (hfits : maxSafeInteger < totalBytes records) :
    ∃ e, Settles (flush progress ledger) (.error e) := by
  have htotal := h.total
  have hfirst := h.fits
  obtain ⟨runs, hspilled, _, _⟩ := h.runs
  have hbytes := length_runBytes_perm (sortBatch_perm ledger.batch)
  have hstop := hspilled.stop_eq
  have hsize := h.size
  unfold flush
  split
  · rename_i hempty
    rw [hempty] at hsize
    simp only [runBytes_nil, List.length_nil] at hsize
    omega
  · obtain ⟨e, he⟩ := writeRecords_error progress (sortBatch ledger.batch) ledger.files.data.1
      (by omega) (by omega)
    rw [← hstop] at he
    exact ⟨e, he.bind_error⟩

/-- The ledger after a record has joined the batch. -/
def push (ledger : Ledger) (record : MetadataRecord) : Ledger :=
  { ledger with
    batch := ledger.batch ++ [encodeRecord record]
    batchSize := ledger.batchSize + (encodeRecord record).size }

/-- A record joins the batch of a ledger that keeps its runs. -/
theorem Holding.push (h : Holding ledger records) (record : MetadataRecord) :
    Holding (ledger.push record) (records ++ [record]) := by
  obtain ⟨runs, hspilled, hmergeable, hperm⟩ := h.runs
  have hsize := size_pos (encodeRecord record)
  refine ⟨⟨runs, hspilled, hmergeable, ?_⟩, ?_, ?_, h.room, ?_, h.fits⟩
  · rw [List.map_append, List.map_singleton]
    simpa [Ledger.push] using hperm.append_right [encodeRecord record]
  · simp [Ledger.push, h.size]
  · intro hempty
    simp [Ledger.push] at hempty
  · intro _
    show 64 * (ledger.state.runs + 1) ≤
      ledger.state.stop + (ledger.batchSize + (encodeRecord record).size) + 55
    by_cases hbatch : ledger.batch = []
    · have hfirst := h.first hbatch
      omega
    · have hnext := h.next hbatch
      omega

/-- A record starts the next batch of a ledger just flushed because the last
batch had no room for it. -/
theorem Flushed.push {ledger' : Ledger} {record : MetadataRecord} (h : Flushed ledger' records)
    (hold : Holding ledger records)
    (hstop : ledger'.state.stop = ledger.state.stop + ledger.batchSize)
    (hruns : ledger'.state.runs ≤ ledger.state.runs + 1)
    (hfull : options.batchBytes < ledger.batchSize + (encodeRecord record).size) :
    Holding (ledger'.push record) (records ++ [record]) := by
  have hbatchBytes := options.batchBytes_ge
  obtain ⟨runs, hspilled, hmergeable, hperm⟩ := h.runs
  refine ⟨⟨runs, hspilled, hmergeable, ?_⟩, ?_, ?_, h.room, ?_, h.fits⟩
  · rw [List.map_append, List.map_singleton]
    simpa [Ledger.push, h.batch] using hperm.append_right [encodeRecord record]
  · simp [Ledger.push, h.batch, h.size]
  · intro hempty
    simp [Ledger.push] at hempty
  · intro _
    show 64 * (ledger'.state.runs + 1) ≤
      ledger'.state.stop + (ledger'.batchSize + (encodeRecord record).size) + 55
    have hroom := hold.room
    have hsize := h.size
    unfold maxRecordBytes Limits.minMetadataBatchBytes Limits.maxPathBytes
      Limits.maxSymlinkTargetBytes at hbatchBytes
    omega

variable (progress options) in
/-- An appended record joins those of the ledger, or the bytes before it have
no addresses. -/
theorem append_settles (record : MetadataRecord) (hopen : ledger.phase = .open)
    (h : Holding ledger records) :
    (∃ ledger', Settles (append progress options ledger record) (.ok (ledger', .ok ())) ∧
      ledger'.phase = .open ∧ Holding ledger' (records ++ [record])) ∨
    (maxSafeInteger < totalBytes records ∧ ∃ e, Settles (append progress options ledger record)
      (.ok ({ ledger with phase := .failed }, .error e))) := by
  have happend : append progress options ledger record = ledger.enter (do
      let ledger ← makeRoom progress options ledger (encodeRecord record).size
      pure (ledger.push record, ())) := if_neg (by simp [hopen])
  rw [happend]
  by_cases hfull : options.batchBytes < ledger.batchSize + (encodeRecord record).size
  · have hroom : makeRoom progress options ledger (encodeRecord record).size =
        flush progress ledger := if_pos hfull
    rw [hroom]
    by_cases hfits : totalBytes records ≤ maxSafeInteger
    · obtain ⟨ledger', hflush, hflushed, hphase, hstop, hruns⟩ := flush_settles progress h hfits
      exact Or.inl ⟨ledger'.push record, enter_ok (hflush.bind (Settles.pure _)),
        hphase.trans hopen, hflushed.push h hstop hruns hfull⟩
    · obtain ⟨e, he⟩ := flush_error progress h (by omega)
      exact Or.inr ⟨by omega, e, enter_error _ he.bind_error⟩
  · have hroom : makeRoom progress options ledger (encodeRecord record).size = pure ledger :=
      if_neg hfull
    rw [hroom]
    exact Or.inl ⟨ledger.push record, enter_ok ((Settles.pure _).bind (Settles.pure _)), hopen,
      h.push record⟩

variable (progress options) in
theorem fill_failed (h : ledger.phase = .failed) (records : List MetadataRecord) :
    Settles (fill progress options ledger records) (.ok ledger) := by
  induction records with
  | nil => exact Settles.pure _
  | cons record records ih =>
    have hreject : append progress options ledger record =
        ledger.reject (js "Metadata append requires an idle open ledger.") :=
      if_pos (by simp [h])
    rw [fill, hreject]
    exact (Settles.pure _).bind ih

variable (progress options) in
/-- A ledger holds the records appended to it, or has failed because their
bytes have no addresses. -/
theorem fill_settles (more : List MetadataRecord) :
    ∀ {ledger : Ledger} {records : List MetadataRecord}, ledger.phase = .open →
      Holding ledger records →
      ∃ ledger', Settles (fill progress options ledger more) (.ok ledger') ∧
        ((ledger'.phase = .open ∧ Holding ledger' (records ++ more)) ∨
          (ledger'.phase = .failed ∧ maxSafeInteger < totalBytes (records ++ more))) := by
  induction more with
  | nil =>
    intro ledger records hopen h
    exact ⟨ledger, Settles.pure _, Or.inl ⟨hopen, by simpa using h⟩⟩
  | cons record more ih =>
    intro ledger records hopen h
    rcases append_settles progress options record hopen h with hjoined | hfailed
    · obtain ⟨ledger', happend, hopen', h'⟩ := hjoined
      obtain ⟨ledger'', hfill, hresult⟩ := ih hopen' h'
      refine ⟨ledger'', happend.bind hfill, ?_⟩
      simpa using hresult
    · obtain ⟨hfar, e, happend⟩ := hfailed
      refine ⟨_, happend.bind (fill_failed progress options rfl more), Or.inr ⟨rfl, ?_⟩⟩
      simp only [totalBytes, List.map_append, runBytes_append, List.length_append] at hfar ⊢
      omega

theorem holding_create : Holding createMetadataLedger [] := by
  refine ⟨⟨[], ⟨rfl, rfl, rfl, rfl, rfl⟩, ⟨by simp, by simp, by simp⟩, List.Perm.refl _⟩, rfl,
    fun _ => rfl, by simp [createMetadataLedger], ?_, by simp [createMetadataLedger]⟩
  intro h
  exact absurd rfl h

end Ledger

end AgentSdk.Sandbox
