import AgentSdk.Lib.Merge
import AgentSdk.Sandbox.Storage

/-!
# External merging

Merge passes over the runs of a spill file, and the loop that checks the final
run with a stack of ancestors.

## Main results

* `mergeLoop_merge` — the loop over heads writes the merged run.
* `mergePass_spill` — a pass keeps the records and shortens the list of runs.
-/

namespace AgentSdk.Sandbox

open AgentSdk.Text AgentSdk.Paced

/-- The bounds a ledger is created with. -/
structure MetadataLedgerOptions where
  batchBytes : Nat
  fanIn : Nat
  batchBytes_ge : maxRecordBytes ≤ batchBytes
  batchBytes_le : batchBytes ≤ Limits.maxMetadataBatchBytes
  fanIn_ge : 2 ≤ fanIn
  fanIn_le : fanIn ≤ Limits.maxMetadataMergeFanIn

/-- The contents of the four spill files; the files of a pair change places
after each pass. -/
structure SpillFiles where
  data : Bytes × Bytes
  descriptors : Bytes × Bytes

structure SortState where
  runs : Nat
  stop : Nat
  descriptorEnd : Nat
  deriving DecidableEq, Repr

structure MergeHead where
  cursor : RunCursor
  record : Option EncodedRecord

/-- What a merge pass has written. -/
structure MergeOutput where
  data : Bytes
  stop : Nat
  descriptors : Bytes
  descriptorEnd : Nat
  runs : Nat

def recordLess (left right : EncodedRecord) : Bool := compareRecords left right == .lt

variable (progress : Progress)

/-! ### Merge passes -/

def readHeads (source descriptors : Bytes) : Nat → Nat → SpillM (List MergeHead)
  | 0, _ => pure []
  | count + 1, index => do
      address (index * descriptorBytes)
      let cursor ← readDescriptor progress descriptors (index * descriptorBytes)
      let (record, cursor) ← readRecord progress source cursor
      let heads ← readHeads source descriptors count (index + 1)
      pure ({ cursor := cursor, record := record } :: heads)

def mergeLoop (source : Bytes) : Nat → List MergeHead → Bytes → Nat → SpillM (Bytes × Nat)
  | 0, _, _, _ => throw .exhausted
  | rounds + 1, heads, target, stop =>
    match Merge.least recordLess MergeHead.record heads with
    | none => pure (target, stop)
    | some (index, head, record) => do
        let (target, stop) ← writeRecord progress target record stop
        let (next, cursor) ← readRecord progress source head.cursor
        mergeLoop source rounds (heads.set index { cursor := cursor, record := next }) target stop

def passLoop (options : MetadataLedgerOptions) (source descriptors : Bytes) (runs index : Nat)
    (out : MergeOutput) : SpillM MergeOutput :=
  if _h : index < runs then do
    let count := min options.fanIn (runs - index)
    let heads ← readHeads progress source descriptors count index
    let (data, stop) ← mergeLoop progress source (source.length + 1) heads out.data out.stop
    let (written, descriptorEnd) ←
      writeDescriptor progress out.descriptors out.descriptorEnd out.stop stop
    address (out.runs + 1)
    passLoop options source descriptors runs (index + min options.fanIn (runs - index))
      { data := data, stop := stop, descriptors := written, descriptorEnd := descriptorEnd,
        runs := out.runs + 1 }
  else pure out
  termination_by runs - index
  decreasing_by
    have hfan := options.fanIn_ge
    omega

def mergePass (options : MetadataLedgerOptions) (files : SpillFiles) (input : SortState) :
    SpillM (SpillFiles × SortState) := do
  -- The second file of each pair is truncated and written, then becomes the first.
  let out ← passLoop progress options files.data.1 files.descriptors.1 input.runs 0
    { data := [], stop := 0, descriptors := [], descriptorEnd := 0, runs := 0 }
  pure ({ data := (out.data, files.data.1), descriptors := (out.descriptors, files.descriptors.1) },
    { runs := out.runs, stop := out.stop, descriptorEnd := out.descriptorEnd })

/-! ### Conflicts -/

/-- The ancestors that stay on the stack, the nearest first. -/
def keepAncestors (record : EncodedRecord) (ancestors : List EncodedRecord) :
    List EncodedRecord :=
  ancestors.dropWhile fun ancestor => !isDescendant record ancestor

def validateLoop (file : Bytes) : Nat → RunCursor → List EncodedRecord → SpillM Unit
  | 0, _, _ => throw .exhausted
  | rounds + 1, cursor, ancestors => do
      let (record, cursor) ← readRecord progress file cursor
      match record with
      | none => pure ()
      | some record => do
          let decoded ← Paced.lift (decodeRecord record)
          Paced.failIf (ancestors.head?.any fun previous => compareRecords previous record == .eq)
            (.conflict .duplicate_path decoded.path.text)
          let ancestors := keepAncestors record ancestors
          Paced.failIf (ancestors.head?.any fun ancestor => ancestor.kind == .file)
            (.conflict .file_ancestor decoded.path.text)
          Paced.failIf (ancestors.head?.any fun ancestor => ancestor.kind == .symlink)
            (.conflict .symlink_ancestor decoded.path.text)
          validateLoop file rounds cursor (record :: ancestors)

def validateRun (file : Bytes) (stop : Nat) : SpillM Unit :=
  validateLoop progress file (file.length + 1) ⟨0, stop⟩ []

/-! ### Runs in a file -/

/-- The bytes of a list of records. -/
def runBytes (records : List EncodedRecord) : Bytes := records.flatMap EncodedRecord.bytes

@[simp] theorem runBytes_nil : runBytes [] = [] := rfl

@[simp] theorem runBytes_cons (record : EncodedRecord) (records : List EncodedRecord) :
    runBytes (record :: records) = record.bytes ++ runBytes records := rfl

@[simp] theorem runBytes_append (r s : List EncodedRecord) :
    runBytes (r ++ s) = runBytes r ++ runBytes s := List.flatMap_append

/-- The cursor stands before the given records of a file. -/
def At (file : Bytes) (cursor : RunCursor) (records : List EncodedRecord) : Prop :=
  ∃ before after, file = before ++ runBytes records ++ after ∧ cursor.position = before.length ∧
    cursor.stop = before.length + (runBytes records).length

theorem At.stop_le {file : Bytes} {cursor : RunCursor} {records : List EncodedRecord}
    (h : At file cursor records) : cursor.stop ≤ file.length := by
  obtain ⟨before, after, rfl, _, hstop⟩ := h
  simp [hstop]

/-- Reading at a cursor gives the next record and moves the cursor over it. -/
theorem readRecord_at {file : Bytes} {cursor : RunCursor} {records : List EncodedRecord}
    (h : At file cursor records) (hvalid : ∀ r ∈ records, r.Valid)
    (hsafe : file.length ≤ maxSafeInteger) :
    ∃ cursor', At file cursor' records.tail ∧
      Settles (readRecord progress file cursor) (.ok (records.head?, cursor')) := by
  have hstopLe := h.stop_le
  obtain ⟨before, after, hfile, hposition, hstop⟩ := h
  obtain ⟨position, stop⟩ := cursor
  dsimp only at hposition hstop hstopLe
  subst hposition hstop
  cases records with
  | nil => exact ⟨_, ⟨before, after, hfile, rfl, rfl⟩, readRecord_end progress file before.length⟩
  | cons record records =>
    have hfile' : file = before ++ record.bytes ++ (runBytes records ++ after) := by
      rw [hfile]
      simp
    refine ⟨⟨before.length + record.size, before.length + (runBytes (record :: records)).length⟩,
      ⟨before ++ record.bytes, after, ?_, ?_, ?_⟩, ?_⟩
    · rw [hfile]
      simp
    · simp
    · simp [Nat.add_assoc]
    · rw [hfile']
      exact readRecord_mid progress _ _ _ (hvalid record (by simp)) (by simp) (by omega)

/-! ### The loop over heads -/

theorem recordLess_iff (a b : EncodedRecord) : recordLess a b = true ↔ a.key < b.key := by
  simp only [recordLess, compareRecords, beq_iff_eq, bufferCompare_eq_lt]

/-- A head and the records of its run that are still to be merged. -/
def HeadHolds (source : Bytes) (pair : MergeHead × List EncodedRecord) : Prop :=
  pair.1.record = pair.2.head? ∧ At source pair.1.cursor pair.2.tail

theorem length_runBytes_perm {r s : List EncodedRecord} (h : r.Perm s) :
    (runBytes r).length = (runBytes s).length := (h.flatMap_right _).length_eq

/-- The choice among heads, and the choice among the runs behind them. -/
theorem least_heads {source : Bytes} {pairs : List (MergeHead × List EncodedRecord)}
    (hheads : ∀ p ∈ pairs, HeadHolds source p) :
    Merge.least recordLess MergeHead.record (pairs.map Prod.fst) =
      (Merge.least recordLess (fun p => p.2.head?) pairs).map fun c => (c.1, c.2.1.1, c.2.2) :=
  Merge.least_map Prod.fst fun p hp => (hheads p hp).1

theorem least_runs (pairs : List (MergeHead × List EncodedRecord)) :
    Merge.least recordLess List.head? (pairs.map Prod.snd) =
      (Merge.least recordLess (fun p => p.2.head?) pairs).map fun c => (c.1, c.2.1.2, c.2.2) :=
  Merge.least_map Prod.snd fun _ _ => rfl

/-- The loop over heads writes the merged run. -/
theorem mergeLoop_merge {source : Bytes} (hsource : source.length ≤ maxSafeInteger)
    (rounds : Nat) :
    ∀ (n : Nat) (pairs : List (MergeHead × List EncodedRecord)) (target : Bytes),
      (∀ p ∈ pairs, HeadHolds source p) → (∀ p ∈ pairs, ∀ r ∈ p.2, r.Valid) →
      (pairs.map Prod.snd).flatten.length = n → n < rounds →
      target.length + (runBytes (pairs.map Prod.snd).flatten).length ≤ maxSafeInteger →
      Settles (mergeLoop progress source rounds (pairs.map Prod.fst) target target.length)
        (.ok (target ++ runBytes (Merge.mergeSteps recordLess n (pairs.map Prod.snd)),
          (target ++ runBytes (Merge.mergeSteps recordLess n (pairs.map Prod.snd))).length)) := by
  induction rounds with
  | zero => intro n pairs target _ _ _ hrounds; omega
  | succ rounds ih =>
    intro n pairs target hheads hvalid hn hrounds hfit
    have hhead := least_heads hheads
    have hrun := least_runs pairs
    unfold mergeLoop
    cases hleast : Merge.least recordLess (fun p => p.2.head?) pairs with
    | none =>
      rw [hleast] at hhead hrun
      rw [hhead]
      have hempty : Merge.mergeSteps recordLess n (pairs.map Prod.snd) = [] := by
        cases n with
        | zero => rfl
        | succ n => simp only [Merge.mergeSteps, hrun, Option.map_none]
      rw [hempty, runBytes_nil, List.append_nil]
      exact Settles.pure _
    | some choice =>
      obtain ⟨index, ⟨head, run⟩, record⟩ := choice
      rw [hleast] at hhead hrun
      rw [hhead]
      dsimp only [Option.map_some] at hrun ⊢
      obtain ⟨hget, hcurrent, _⟩ := Merge.choice_of_least recordLess_iff hleast
      dsimp only at hget hcurrent
      obtain ⟨rest, rfl⟩ := List.head?_eq_some_iff.1 hcurrent
      have hmem : (head, record :: rest) ∈ pairs := List.mem_of_getElem? hget
      have hat : At source head.cursor rest := (hheads _ hmem).2
      have hvalidRun : ∀ r ∈ record :: rest, r.Valid := hvalid _ hmem
      obtain ⟨cursor, hcursor, hread⟩ := readRecord_at progress hat
        (fun r hr => hvalidRun r (by simp [hr])) hsource
      -- The elements that are left, and the room for them.
      have hgetRun : (pairs.map Prod.snd)[index]? = some (record :: rest) := by
        rw [List.getElem?_map, hget]
        rfl
      have hperm := Merge.flatten_set_tail hgetRun hcurrent
      have hroom := length_runBytes_perm hperm
      have hlength := hperm.length_eq
      rw [runBytes_cons, List.length_append, length_bytes] at hroom
      rw [List.length_cons, hn] at hlength
      have hset : (pairs.map Prod.snd).set index rest =
          (pairs.set index (⟨cursor, rest.head?⟩, rest)).map Prod.snd := by
        rw [List.map_set]
      have hheadsSet : (pairs.map Prod.fst).set index ⟨cursor, rest.head?⟩ =
          (pairs.set index (⟨cursor, rest.head?⟩, rest)).map Prod.fst := by
        rw [List.map_set]
      rw [List.tail_cons, hset] at hlength hroom
      obtain ⟨m, rfl⟩ : ∃ m, n = m + 1 := ⟨_, hlength⟩
      have hwrite := writeRecord_end progress target record (by omega)
      have hnext := ih m (pairs.set index (⟨cursor, rest.head?⟩, rest))
        (target ++ record.bytes) ?_ ?_ (by omega) (by omega)
        (by rw [List.length_append, length_bytes]; omega)
      · have hposition : (target ++ record.bytes).length = target.length + record.size := by
          simp
        rw [← hheadsSet, hposition] at hnext
        simp only [Merge.mergeSteps, hrun, List.tail_cons, hset, runBytes_cons]
        rw [← List.append_assoc]
        exact hwrite.bind (hread.bind hnext)
      · intro p hp
        rcases List.mem_or_eq_of_mem_set hp with hold | rfl
        · exact hheads p hold
        · exact ⟨rfl, hcursor⟩
      · intro p hp
        rcases List.mem_or_eq_of_mem_set hp with hold | rfl
        · exact hvalid p hold
        · exact fun r hr => hvalidRun r (by simp [hr])

/-! ### Runs and their descriptors -/

/-- The descriptors of runs that lie one after the other. -/
def descriptorsFrom : Nat → List (List EncodedRecord) → Bytes
  | _, [] => []
  | start, run :: runs =>
    descriptor start (start + (runBytes run).length) ++
      descriptorsFrom (start + (runBytes run).length) runs

@[simp] theorem length_descriptorsFrom (start : Nat) (runs : List (List EncodedRecord)) :
    (descriptorsFrom start runs).length = runs.length * descriptorBytes := by
  induction runs generalizing start with
  | nil => simp [descriptorsFrom]
  | cons run runs ih =>
    simp only [descriptorsFrom, List.length_append, length_descriptor, ih, List.length_cons,
      Nat.add_mul, Nat.one_mul]
    omega

theorem descriptorsFrom_append (start : Nat) (r s : List (List EncodedRecord)) :
    descriptorsFrom start (r ++ s) =
      descriptorsFrom start r ++ descriptorsFrom (start + (runBytes r.flatten).length) s := by
  induction r generalizing start with
  | nil => simp [descriptorsFrom]
  | cons run runs ih => simp [descriptorsFrom, ih, Nat.add_assoc]

/-- The order in which the records of a run stand. -/
def SortedRun (run : List EncodedRecord) : Prop := run.Pairwise fun a b => a.key ≤ b.key

/-- Runs a merge can read: no run is empty, every record fits its header and
every run is sorted. -/
structure Mergeable (runs : List (List EncodedRecord)) : Prop where
  nonempty : ∀ run ∈ runs, run ≠ []
  valid : ∀ run ∈ runs, ∀ r ∈ run, r.Valid
  sorted : ∀ run ∈ runs, SortedRun run

/-- A data file and a descriptor file hold these runs. -/
structure Spilled (data descriptors : Bytes) (state : SortState)
    (runs : List (List EncodedRecord)) : Prop where
  data_eq : data = runBytes runs.flatten
  descriptors_eq : descriptors = descriptorsFrom 0 runs
  stop_eq : state.stop = data.length
  descriptorEnd_eq : state.descriptorEnd = descriptors.length
  runs_eq : state.runs = runs.length

theorem runBytes_pos {run : List EncodedRecord} (h : run ≠ []) : 9 ≤ (runBytes run).length := by
  cases run with
  | nil => exact absurd rfl h
  | cons r run =>
    have hr := size_pos r
    simp
    omega

theorem nine_le_runBytes (records : List EncodedRecord) :
    9 * records.length ≤ (runBytes records).length := by
  induction records with
  | nil => simp
  | cons r records ih =>
    have hr := size_pos r
    simp
    omega

theorem length_le_runBytes (records : List EncodedRecord) :
    records.length ≤ (runBytes records).length := by
  have hnine := nine_le_runBytes records
  omega

/-- A run behind others has its first record read into a head. -/
theorem readHeads_group {source descriptors : Bytes} (hsource : source.length ≤ maxSafeInteger)
    (hdescriptors : descriptors.length ≤ maxSafeInteger)
    {group later : List (List EncodedRecord)} (done : List (List EncodedRecord))
    (hgroup : Mergeable group)
    (hdata : source = runBytes (done ++ group ++ later).flatten)
    (hrows : descriptors = descriptorsFrom 0 (done ++ group ++ later)) :
    ∃ pairs : List (MergeHead × List EncodedRecord), pairs.map Prod.snd = group ∧ (∀ p ∈ pairs, HeadHolds source p) ∧
      Settles (readHeads progress source descriptors group.length done.length)
        (.ok (pairs.map Prod.fst)) := by
  induction group generalizing done with
  | nil => exact ⟨[], rfl, by simp, Settles.pure _⟩
  | cons run group ih =>
    have hrun := runBytes_pos (hgroup.nonempty run (by simp))
    obtain ⟨pairs, hpairs, hheads, hrest⟩ := ih (done ++ [run])
      ⟨fun r hr => hgroup.nonempty r (by simp [hr]), fun r hr => hgroup.valid r (by simp [hr]),
        fun r hr => hgroup.sorted r (by simp [hr])⟩
      (by simpa using hdata) (by simpa using hrows)
    have hbefore : (descriptorsFrom 0 done).length = done.length * descriptorBytes := by simp
    have hstart : (runBytes done.flatten).length + (runBytes run).length ≤ source.length := by
      rw [hdata]
      simp
    have hrows' : descriptors = descriptorsFrom 0 done ++
        descriptor (runBytes done.flatten).length
          ((runBytes done.flatten).length + (runBytes run).length) ++
        descriptorsFrom ((runBytes done.flatten).length + (runBytes run).length)
          (group ++ later) := by
      rw [hrows, List.append_assoc, descriptorsFrom_append]
      simp [descriptorsFrom]
    have hlength : done.length * descriptorBytes + descriptorBytes ≤ descriptors.length := by
      rw [hrows, length_descriptorsFrom]
      simp [descriptorBytes]
      omega
    have hcursor := readDescriptor_mid progress (descriptorsFrom 0 done)
      (descriptorsFrom ((runBytes done.flatten).length + (runBytes run).length) (group ++ later))
      (show (runBytes done.flatten).length < (runBytes done.flatten).length + (runBytes run).length
        by omega) (by omega)
      (by rw [hbefore]; omega)
    rw [← hrows', hbefore] at hcursor
    have hat : At source ⟨(runBytes done.flatten).length,
        (runBytes done.flatten).length + (runBytes run).length⟩ run :=
      ⟨runBytes done.flatten, runBytes (group ++ later).flatten, by rw [hdata]; simp, rfl, rfl⟩
    obtain ⟨cursor, hnext, hread⟩ := readRecord_at progress hat (hgroup.valid run (by simp)) hsource
    refine ⟨(⟨cursor, run.head?⟩, run) :: pairs, by simp [hpairs], ?_, ?_⟩
    · intro p hp
      rcases List.mem_cons.1 hp with rfl | hp
      · exact ⟨rfl, hnext⟩
      · exact hheads p hp
    · rw [List.length_append, List.length_singleton] at hrest
      exact (address_ok (by omega)).bind (hcursor.bind (hread.bind (hrest.bind (Settles.pure _))))

/-! ### A whole pass -/

/-- The state that describes what a pass has written. -/
def MergeOutput.state (out : MergeOutput) : SortState :=
  { runs := out.runs, stop := out.stop, descriptorEnd := out.descriptorEnd }

theorem merge_run {group : List (List EncodedRecord)} (hgroup : Mergeable group)
    (hne : group ≠ []) :
    Mergeable [Merge.merge recordLess group] ∧
      (Merge.merge recordLess group).Perm group.flatten := by
  have hperm := Merge.merge_perm recordLess_iff group
  refine ⟨⟨?_, ?_, ?_⟩, hperm⟩
  · intro run hrun hempty
    rw [List.mem_singleton.1 hrun] at hempty
    rw [hempty] at hperm
    have hflat := List.flatten_eq_nil_iff.1 hperm.nil_eq.symm
    cases group with
    | nil => exact hne rfl
    | cons run group => exact hgroup.nonempty run (by simp) (hflat run (by simp))
  · intro run hrun r hr
    rw [List.mem_singleton.1 hrun] at hr
    obtain ⟨run', hrun', hr'⟩ := List.mem_flatten.1 (hperm.mem_iff.1 hr)
    exact hgroup.valid run' hrun' r hr'
  · intro run hrun
    rw [List.mem_singleton.1 hrun]
    exact Merge.merge_sorted recordLess_iff hgroup.sorted

theorem Mergeable.append {r s : List (List EncodedRecord)} (hr : Mergeable r)
    (hs : Mergeable s) : Mergeable (r ++ s) := by
  refine ⟨fun run h => ?_, fun run h => ?_, fun run h => ?_⟩
  · exact (List.mem_append.1 h).elim (hr.nonempty run) (hs.nonempty run)
  · exact (List.mem_append.1 h).elim (hr.valid run) (hs.valid run)
  · exact (List.mem_append.1 h).elim (hr.sorted run) (hs.sorted run)

theorem Mergeable.sub {r s : List (List EncodedRecord)} (hs : Mergeable s) (h : r ⊆ s) :
    Mergeable r :=
  ⟨fun run hr => hs.nonempty run (h hr), fun run hr => hs.valid run (h hr),
    fun run hr => hs.sorted run (h hr)⟩

/-- A merged group written behind the runs of a pass. -/
theorem Spilled.snoc {out : MergeOutput} {written : List (List EncodedRecord)}
    (hout : Spilled out.data out.descriptors out.state written) (run : List EncodedRecord) :
    Spilled (out.data ++ runBytes run)
      (out.descriptors ++ descriptor out.stop (out.data ++ runBytes run).length)
      { runs := out.runs + 1, stop := (out.data ++ runBytes run).length,
        descriptorEnd := out.descriptors.length + descriptorBytes } (written ++ [run]) := by
  have hstop : out.stop = out.data.length := hout.stop_eq
  have hruns : out.runs = written.length := hout.runs_eq
  refine ⟨?_, ?_, rfl, by simp, by simp [hruns]⟩
  · rw [hout.data_eq]
    simp
  · rw [descriptorsFrom_append, ← hout.descriptors_eq, hstop, hout.data_eq]
    simp [descriptorsFrom]

/-- What a pass does from a group on: every run behind it is merged into the
output, and at least every second run disappears. -/
theorem passLoop_spill (options : MetadataLedgerOptions) {source descriptors : Bytes}
    (hsource : source.length ≤ maxSafeInteger) (hdescriptors : descriptors.length ≤ maxSafeInteger) :
    ∀ (remaining : Nat) (later done written : List (List EncodedRecord)) (out : MergeOutput),
      later.length = remaining → Mergeable later → Mergeable written →
      source = runBytes (done ++ later).flatten → descriptors = descriptorsFrom 0 (done ++ later) →
      Spilled out.data out.descriptors out.state written →
      written.flatten.Perm done.flatten → written.length ≤ done.length →
      ∃ out' merged, Spilled out'.data out'.descriptors out'.state merged ∧ Mergeable merged ∧
        merged.flatten.Perm (done ++ later).flatten ∧
        2 * merged.length ≤ 2 * written.length + later.length + 1 ∧
        Settles (passLoop progress options source descriptors (done ++ later).length done.length out)
          (.ok out') := by
  intro remaining
  induction remaining using Nat.strong_induction_on with
  | _ remaining ih =>
    intro later done written out hremaining hlater hwritten hdata hrows hout hperm hcount
    have hfan := options.fanIn_ge
    rw [passLoop]
    split
    · rename_i hmore
      rw [List.length_append] at hmore
      generalize hcountDef : min options.fanIn ((done ++ later).length - done.length) = count
      rw [List.length_append] at hcountDef
      obtain ⟨group, rest, rfl, hgroup⟩ : ∃ group rest, later = group ++ rest ∧
          group.length = count :=
        ⟨later.take count, later.drop count, (List.take_append_drop count later).symm, by
          rw [List.length_take]; omega⟩
      rw [List.length_append] at hmore hcountDef hremaining
      rw [← List.append_assoc] at hdata hrows ⊢
      have hgroupMergeable : Mergeable group := hlater.sub (List.subset_append_left _ _)
      have hne : group ≠ [] := by
        rintro rfl
        simp at hgroup
        omega
      obtain ⟨hmerged, hmergedPerm⟩ := merge_run hgroupMergeable hne
      obtain ⟨pairs, hpairs, hheads, hread⟩ := readHeads_group progress hsource hdescriptors done
        hgroupMergeable hdata hrows
      -- The output has room: what it holds was read from the source.
      have hroom : out.data.length + (runBytes group.flatten).length ≤ source.length := by
        rw [hout.data_eq, length_runBytes_perm hperm, hdata]
        simp
      have hrounds : group.flatten.length < source.length + 1 := by
        have hbytes := length_le_runBytes group.flatten
        omega
      have hmerge := mergeLoop_merge progress hsource (source.length + 1) _ pairs out.data hheads
        (by
          intro p hp
          exact hgroupMergeable.valid p.2 (hpairs ▸ List.mem_map_of_mem hp))
        rfl (by rw [hpairs]; exact hrounds) (by rw [hpairs]; omega)
      rw [hpairs] at hmerge
      have hwrittenRoom : out.descriptors.length + descriptorBytes ≤ descriptors.length := by
        rw [hout.descriptors_eq, hrows]
        simp [descriptorBytes]
        omega
      have hrow := writeDescriptor_end progress out.descriptors out.stop
        (out.data ++ runBytes (Merge.merge recordLess group)).length
        (by rw [show out.stop = out.data.length from hout.stop_eq]; omega)
        (by
          rw [List.length_append, length_runBytes_perm hmergedPerm]
          omega)
        (by omega)
      have hstop : out.stop = out.data.length := hout.stop_eq
      have hend : out.descriptorEnd = out.descriptors.length := hout.descriptorEnd_eq
      have hruns : out.runs = written.length := hout.runs_eq
      obtain ⟨out', merged, hspilled, hmergeable, hpermOut, hshorter, hloop⟩ := ih rest.length
        (by omega) rest (done ++ group) (written ++ [Merge.merge recordLess group])
        ⟨_, _, _, _, _⟩ rfl
        (hlater.sub (List.subset_append_right _ _)) (hwritten.append hmerged) hdata hrows
        (hout.snoc (Merge.merge recordLess group))
        (by simpa using hperm.append hmergedPerm)
        (by simp; omega)
      refine ⟨out', merged, hspilled, hmergeable, hpermOut, ?_, ?_⟩
      · simp only [List.length_append, List.length_singleton] at hshorter ⊢
        omega
      · rw [hgroup] at hread
        have hnext : (done ++ group).length = done.length + count := by simp [hgroup]
        rw [hnext] at hloop
        rw [hstop] at hrow hloop
        rw [hstop, hend]
        refine hread.bind (hmerge.bind (hrow.bind ((address_ok ?_).bind hloop)))
        simp only [descriptorBytes] at hwrittenRoom
        rw [hout.descriptors_eq, length_descriptorsFrom, descriptorBytes, ← hruns] at hwrittenRoom
        omega
    · rename_i hdone
      have hempty : later = [] := by
        rw [List.length_append] at hdone
        exact List.length_eq_zero_iff.1 (by omega)
      subst hempty
      exact ⟨out, written, hout, hwritten, by simpa using hperm, by simp, Settles.pure _⟩

/-- A pass keeps the records and at least halves the number of runs. -/
theorem mergePass_spill (options : MetadataLedgerOptions) {files : SpillFiles} {state : SortState}
    {runs : List (List EncodedRecord)} (hruns : Mergeable runs)
    (hspilled : Spilled files.data.1 files.descriptors.1 state runs)
    (hsource : files.data.1.length ≤ maxSafeInteger)
    (hdescriptors : files.descriptors.1.length ≤ maxSafeInteger) :
    ∃ files' state' merged, Spilled files'.data.1 files'.descriptors.1 state' merged ∧
      Mergeable merged ∧ merged.flatten.Perm runs.flatten ∧ 2 * merged.length ≤ runs.length + 1 ∧
      Settles (mergePass progress options files state) (.ok (files', state')) := by
  have hempty : Spilled [] [] { runs := 0, stop := 0, descriptorEnd := 0 } [] :=
    ⟨rfl, rfl, rfl, rfl, rfl⟩
  obtain ⟨out, merged, hout, hmerged, hperm, hshorter, hloop⟩ := passLoop_spill progress options
    hsource hdescriptors runs.length runs [] [] ⟨[], 0, [], 0, 0⟩ rfl hruns ⟨by simp, by simp, by simp⟩ hspilled.data_eq
    hspilled.descriptors_eq hempty (List.Perm.refl _) (Nat.le_refl _)
  refine ⟨⟨(out.data, files.data.1), (out.descriptors, files.descriptors.1)⟩, out.state, merged,
    hout, hmerged, hperm, by simpa using hshorter, ?_⟩
  have hcount : ([] ++ runs).length = state.runs := hspilled.runs_eq.symm
  rw [hcount] at hloop
  exact hloop.bind (Settles.pure _)

end AgentSdk.Sandbox
