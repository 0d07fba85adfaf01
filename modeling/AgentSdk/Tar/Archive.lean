import AgentSdk.Tar.Decode

/-!
# What an archive is

The bytes of a whole archive and the entries in it, stated without the reader,
and the two directions between this and a successful run.

## Main results

* `readLoop_archive` — what a successful run read is an archive.
* `Archive.readLoop` — an archive is read by a callback that drains it.
-/

namespace AgentSdk.Tar

open AgentSdk.Text AgentSdk.Sandbox

variable {σ : Type} (options : TarOptions) (consume : σ → TarOutputEntry → Callback σ)

/-! ### Whole archives -/

/-- An entry with the whole of its body. -/
structure Delivered where
  entry : TarOutputEntry
  body : Bytes
  deriving DecidableEq

def Delivery.whole (delivery : Delivery) : Delivered := ⟨delivery.entry, delivery.pieces.flatten⟩

/-- A header opens an entry: its name and target are those of the records in
front of it, where these have one. -/
structure Opens (pending : Option PaxMetadata) (header : TarHeader) (entry : TarOutputEntry) :
    Prop where
  path : archiveName ((pending.bind PaxMetadata.path).getD header.path)
    (header.kind == .directory) = .ok entry.path
  size : entry.size = header.size
  mode : entry.mode = header.mode
  linkpath : header.kind ≠ .symlink → pending.bind PaxMetadata.linkpath = none
  content :
    match header.kind with
    | .file => entry.content = .file
    | .directory => entry.content = .directory
    | .symlink => options.preserveInternal = true ∧ ∃ target,
        symlinkTarget ((pending.bind PaxMetadata.linkpath).getD header.target) = .ok target ∧
          entry.content = .symlink target
    | .pax => False

/-- The bytes of an archive, from a header block on, and the entries in it.
`pending` are the records that belong to the next entry.  No byte is left
unaccounted for. -/
inductive Archive : Option PaxMetadata → Bytes → List Delivered → Prop
  /-- Two zero blocks and at most 10 KiB of zeros in all. -/
  | trailer {blocks : Nat} (htwo : 2 ≤ blocks) (hbound : blocks * blockBytes ≤ maxTrailerBytes) :
      Archive none (List.replicate (blocks * blockBytes) 0) []
  /-- Records for the next entry. -/
  | pax {block data rest : Bytes} {header : TarHeader} {metadata : PaxMetadata}
      {entries : List Delivered} (hblock : block.length = blockBytes)
      (hheader : parseHeader block = .ok header) (hkind : header.kind = .pax)
      (hpos : header.size ≠ 0) (hbound : header.size ≤ maxPaxBytes)
      (hdata : data.length = header.size) (hpax : parsePax data = .ok metadata)
      (hrest : Archive (some metadata) rest entries) :
      Archive none (block ++ (data ++ (List.replicate (padding header.size) 0 ++ rest))) entries
  /-- An entry with its payload. -/
  | entry {pending : Option PaxMetadata} {block payload rest : Bytes} {header : TarHeader}
      {entry : TarOutputEntry} {entries : List Delivered} (hblock : block.length = blockBytes)
      (hheader : parseHeader block = .ok header) (hopens : Opens options pending header entry)
      (hpayload : payload.length = header.size) (hrest : Archive none rest entries) :
      Archive pending (block ++ (payload ++ (List.replicate (padding header.size) 0 ++ rest)))
        (⟨entry, payload⟩ :: entries)

def Delivered.isKind (kind : EntryKind) (delivered : Delivered) : Bool :=
  match delivered.entry.content, kind with
  | .file, .file => true
  | .directory, .directory => true
  | .symlink _, .symlink => true
  | _, _ => false

/-- The summary of a run that counts further entries. -/
def Session.total (s : Session σ) (entries : List Delivered) (bytes : Nat) : TarSummary where
  files := s.files + entries.countP (Delivered.isKind .file)
  directories := s.directories + entries.countP (Delivered.isKind .directory)
  symlinks := s.symlinks + entries.countP (Delivered.isKind .symlink)
  payloadBytes := s.payloadBytes + (entries.map fun delivered => delivered.body.length).sum
  archiveBytes := bytes

/-! ### What a successful run read -/

variable {options consume}

variable {β : Type} {s s' : Session σ} {reader : TarReader} {n : Nat} {rest : Bytes}
  {header : TarHeader} {entry : TarOutputEntry}

theorem onReader_ok {α : Type} {m : ReaderM α} {f : α → TarM σ β} {s'' : Session σ} {b : β}
    (h : (onReader m >>= f) s = (.ok b, s'')) :
    ∃ a reader, m s.reader = (.ok a, reader) ∧ f a { s with reader } = (.ok b, s'') := by
  obtain ⟨a, s', hm, hf⟩ := Stateful.ok_of_bind h
  cases hran : m s.reader with
  | mk result reader =>
    have hzoom : (result, { s with reader }) = ((.ok a : Except TarError α), s') := by
      rw [← hm]
      show _ = ((m s.reader).1, { s with reader := (m s.reader).2 })
      rw [hran]
    cases hzoom
    exact ⟨a, reader, rfl, hf⟩

theorem onReader_bind {α : Type} {m : ReaderM α} {f : α → TarM σ β} {a : α}
    (h : m s.reader = (.ok a, reader)) : (onReader m >>= f) s = f a { s with reader } := by
  refine Stateful.bind_ok ?_
  show ((m s.reader).1, { s with reader := (m s.reader).2 }) = _
  rw [h]

theorem required_inv {size : Nat} {block : Bytes} {reader' : TarReader}
    (hat : At options reader rest n) (h : required options size reader = (.ok block, reader')) :
    block.length = size ∧ ∃ later, rest = block ++ later ∧ At options reader' later (n + size) := by
  by_cases hsize : size ≤ rest.length
  · have hlength : (rest.take size).length = size := by
      rw [List.length_take, Nat.min_eq_left hsize]
    rw [← List.take_append_drop size rest] at hat
    obtain ⟨reader'', hrun, hat'⟩ := required_ok hat hlength
    rw [hrun] at h
    cases h
    exact ⟨hlength, rest.drop size, (List.take_append_drop size rest).symm, hat'⟩
  · obtain ⟨_, hrun⟩ := required_short hat (by omega : rest.length < size)
    rw [hrun] at h
    cases h

theorem zeroes_inv {size : Nat} {reader' : TarReader} (hat : At options reader rest n)
    (h : zeroes options size reader = (.ok (), reader')) :
    ∃ later, rest = List.replicate size 0 ++ later ∧ At options reader' later (n + size) := by
  obtain ⟨reader'', hrun, hnext⟩ := zeroes_run size hat
  rw [hrun] at h
  obtain ⟨hresult, rfl⟩ := Prod.mk.inj h
  refine ⟨rest.drop size, ?_, hnext hresult⟩
  unfold zeroesResult at hresult
  split at hresult
  · cases hresult
  · rename_i hzero
    split at hresult
    · rename_i hsize
      have hzeros : rest.take size = List.replicate size 0 := by
        rw [List.eq_replicate_iff]
        refine ⟨by rw [List.length_take, Nat.min_eq_left hsize], ?_⟩
        simpa using hzero
      rw [← hzeros, List.take_append_drop]
    · cases hresult

theorem trailerLoop_inv (rounds : Nat) :
    ∀ {trailerBytes n : Nat} {rest : Bytes} {reader reader' : TarReader},
      At options reader rest n → trailerBytes ≤ maxTrailerBytes →
      trailerLoop options rounds trailerBytes reader = (.ok (), reader') →
      ∃ blocks, rest = List.replicate (blocks * blockBytes) 0 ∧
        trailerBytes + blocks * blockBytes ≤ maxTrailerBytes ∧
        At options reader' [] (n + blocks * blockBytes) := by
  induction rounds with
  | zero =>
    intro trailerBytes n rest reader reader' _ _ h
    cases h
  | succ rounds ih =>
    intro trailerBytes n rest reader reader' hat hbytes h
    rw [trailerLoop] at h
    obtain ⟨block, reader₁, hblock, h⟩ := Stateful.ok_of_bind h
    obtain ⟨reader₂, hrun, hnext⟩ := exact_run blockBytes true hat
    rw [hrun] at hblock
    obtain ⟨hresult, rfl⟩ := Prod.mk.inj hblock
    have hat' := hnext block hresult
    unfold exactResult at hresult
    split at hresult
    · rename_i hsize
      cases hresult
      obtain ⟨hzero, h⟩ := Stateful.ok_of_refuseIf h
      obtain ⟨hbound, h⟩ := Stateful.ok_of_refuseIf h
      obtain ⟨blocks, hrest, hle, hdone⟩ := ih hat' (by omega) h
      have hzeros : rest.take blockBytes = List.replicate blockBytes 0 := by
        rw [List.eq_replicate_iff]
        refine ⟨by rw [List.length_take, Nat.min_eq_left hsize], ?_⟩
        simpa using hzero
      refine ⟨blocks + 1, ?_, ?_, ?_⟩
      · rw [Nat.succ_mul, Nat.add_comm, List.replicate_add, ← hrest, ← hzeros,
          List.take_append_drop]
      · rw [Nat.succ_mul]
        omega
      · rw [hzeros, List.length_replicate] at hdone
        rw [Nat.succ_mul, Nat.add_comm (blocks * blockBytes), ← Nat.add_assoc]
        exact hdone
    · split at hresult
      · rename_i hend
        cases hresult
        cases h
        have hempty : rest = [] := by simpa using hend
        subst hempty
        exact ⟨0, by simp, by omega, by simpa using hat'⟩
      · cases hresult

theorem session_bind {f : Session σ → TarM σ β} : (session >>= f) s = f s s := Stateful.bind_ok rfl

theorem update_bind {change : Session σ → Session σ} {f : Unit → TarM σ β} :
    (update change >>= f) s = f () (change s) := Stateful.bind_ok rfl

theorem readPax_inv (hat : At options s.reader rest n)
    (h : readPax options header s = (.ok (), s')) :
    s.pendingPax = none ∧ header.size ≠ 0 ∧ header.size ≤ maxPaxBytes ∧
      ∃ data metadata later reader, data.length = header.size ∧
        rest = data ++ (List.replicate (padding header.size) 0 ++ later) ∧
        parsePax data = .ok metadata ∧
        s' = { s with reader, pendingPax := some metadata } ∧
        At options reader later (n + header.size + padding header.size) := by
  rw [readPax, session_bind] at h
  obtain ⟨hsequence, h⟩ := Stateful.ok_of_refuseIf h
  obtain ⟨data, reader, hdata, h⟩ := onReader_ok h
  obtain ⟨metadata, hpax, h⟩ := Stateful.ok_of_lift h
  rw [update_bind] at h
  obtain ⟨hlength, behind, rfl, hat'⟩ := required_inv hat hdata
  have hrun : onReader (zeroes options (padding header.size))
      { s with reader, pendingPax := some metadata } = (.ok (), s') := h
  obtain ⟨hzero, rfl⟩ := Prod.mk.inj hrun
  obtain ⟨later, rfl, hat''⟩ := zeroes_inv hat' (Prod.ext hzero rfl)
  simp only [not_or, not_not, Nat.not_lt] at hsequence
  exact ⟨hsequence.1, hsequence.2.1, hsequence.2.2, data, metadata, later, _, hlength, rfl, hpax,
    rfl, hat''⟩

/-- What handing over an entry leaves. -/
theorem deliverBody_inv (hat : At options s.reader rest n)
    (h : deliverBody options consume entry s = (.ok (), s')) :
    ∃ pieces later reader state, pieces.flatten.length = entry.size ∧
      rest = pieces.flatten ++ later ∧
      s' = { s with reader, state, log := s.log ++ [⟨entry, pieces⟩] } ∧
      At options reader later (n + entry.size) := by
  unfold deliverBody at h
  dsimp only at h
  split at h
  · cases h
  · rename_i state hresult
    cases h
    obtain ⟨later, hrest, hlength, hat'⟩ := consumeTarEntry_drained hat hresult
    exact ⟨_, later, _, state, hlength, hrest, rfl, hat'⟩

theorem deliverLink_inv (h : deliverLink options consume entry s = (.ok (), s')) :
    ∃ state, s' = { s with state, log := s.log ++ [⟨entry, []⟩] } := by
  unfold deliverLink at h
  dsimp only at h
  split at h
  · cases h
  · rename_i state _
    cases h
    exact ⟨state, rfl⟩

/-- What reading an entry leaves. -/
theorem readEntry_inv (hat : At options s.reader rest n) (hkind : header.kind ≠ .pax)
    (hlink : header.kind = .symlink → header.size = 0)
    (h : readEntry options consume header s = (.ok (), s')) :
    ∃ entry pieces later reader state, Opens options s.pendingPax header entry ∧
      pieces.flatten.length = header.size ∧
      rest = pieces.flatten ++ (List.replicate (padding header.size) 0 ++ later) ∧
      s' = Session.count { s with
        reader
        state
        payloadBytes := s.payloadBytes + header.size
        pendingPax := none
        log := s.log ++ [⟨entry, pieces⟩] } header.kind ∧
      At options reader later (n + header.size + padding header.size) := by
  rw [readEntry, session_bind] at h
  obtain ⟨path, hpath, h⟩ := Stateful.ok_of_lift h
  obtain ⟨hlinkpath, h⟩ := Stateful.ok_of_refuseIf h
  rw [update_bind] at h
  have hnone : header.kind ≠ .symlink → s.pendingPax.bind PaxMetadata.linkpath = none := by
    intro hne
    by_contra hsome
    exact hlinkpath ⟨hne, hsome⟩
  -- Both ways of handing over leave the reader behind the payload.
  have hdelivered : ∃ entry pieces behind reader state, Opens options s.pendingPax header entry ∧
      pieces.flatten.length = header.size ∧ rest = pieces.flatten ++ behind ∧
      At options reader behind (n + header.size) ∧
      (do
        update fun s => { s with payloadBytes := s.payloadBytes + header.size }
        onReader (zeroes options (padding header.size))
        update fun s => s.count header.kind : TarM σ Unit)
        { s with reader, state, pendingPax := none, log := s.log ++ [⟨entry, pieces⟩] } =
        (.ok (), s') := by
    split at h
    · rename_i hsymlink
      obtain ⟨hpreserve, h⟩ := Stateful.ok_of_refuseIf h
      obtain ⟨target, htarget, h⟩ := Stateful.ok_of_lift h
      obtain ⟨⟨⟩, t, hhand, h⟩ := Stateful.ok_of_bind h
      obtain ⟨state, rfl⟩ := deliverLink_inv hhand
      refine ⟨_, [], rest, s.reader, state, ⟨hpath, (hlink hsymlink).symm, rfl, hnone, ?_⟩,
        (hlink hsymlink).symm, rfl, by rw [hlink hsymlink]; exact hat, h⟩
      rw [hsymlink]
      exact ⟨by simpa using hpreserve, target, htarget, rfl⟩
    · rename_i hbody
      obtain ⟨⟨⟩, t, hhand, h⟩ := Stateful.ok_of_bind h
      obtain ⟨pieces, behind, reader, state, hlength, hrest, rfl, hat'⟩ :=
        deliverBody_inv (s := { s with pendingPax := none }) hat hhand
      refine ⟨_, pieces, behind, reader, state, ⟨hpath, rfl, rfl, hnone, ?_⟩, hlength, hrest,
        hat', h⟩
      cases hcase : header.kind with
      | file | directory => simp
      | symlink => exact absurd hcase hbody
      | pax => exact absurd hcase hkind
  obtain ⟨entry, pieces, behind, reader, state, hopens, hlength, hrest, hat', h⟩ := hdelivered
  rw [update_bind] at h
  obtain ⟨⟨⟩, reader', hzeroes, h⟩ := onReader_ok h
  obtain ⟨later, rfl, hat''⟩ := zeroes_inv hat' hzeroes
  cases h
  exact ⟨entry, pieces, later, reader', state, hopens, hlength, hrest, rfl, hat''⟩

/-- An accepted header block is not a block of zeros. -/
theorem parseHeader_not_zero {block : Bytes} (h : parseHeader block = .ok header) :
    block.all (· == 0) = false := by
  obtain ⟨bytes, k, hslice, hzero, hdecode⟩ := (parseHeader_ustar h).magic
  by_contra hall
  have hzeros : ∀ b ∈ block, b = 0 := by simpa using hall
  have hempty : bytes = [] := by
    cases bytes with
    | nil => rfl
    | cons b rest =>
      have hmem : b ∈ slice block 257 6 := by simp [hslice]
      have hb := hzeros b (List.mem_of_mem_drop (List.mem_of_mem_take hmem))
      exact absurd (by simp [hb]) hzero
  rw [hempty] at hdecode
  exact absurd hdecode (by decide)

/-- The summary counts one entry more. -/
theorem total_count {payload : Bytes} {state : σ} {log : List Delivery}
    (hopens : Opens options s.pendingPax header entry) (hlength : payload.length = header.size)
    (entries : List Delivered) (bytes : Nat) :
    (Session.count { s with
      reader
      state
      payloadBytes := s.payloadBytes + header.size
      pendingPax := none
      log } header.kind).total entries bytes = s.total (⟨entry, payload⟩ :: entries) bytes := by
  have hcontent := hopens.content
  cases hkind : header.kind with
  | file =>
    rw [hkind] at hcontent
    simp [Session.total, Session.count, Delivered.isKind, show entry.content = .file from hcontent, hlength]
    omega
  | directory =>
    rw [hkind] at hcontent
    simp [Session.total, Session.count, Delivered.isKind, show entry.content = .directory from hcontent, hlength]
    omega
  | symlink =>
    rw [hkind] at hcontent
    obtain ⟨_, target, _, hlink⟩ := hcontent
    simp [Session.total, Session.count, Delivered.isKind, hlink, hlength]
    omega
  | pax =>
    rw [hkind] at hcontent
    exact absurd hcontent id

/-- What a successful loop read is an archive, and the summary counts it. -/
theorem readLoop_archive (rounds : Nat) :
    ∀ {s s' : Session σ} {rest : Bytes} {n : Nat} {summary : TarSummary},
      At options s.reader rest n → readLoop options consume rounds s = (.ok summary, s') →
      ∃ deliveries : List Delivery, s'.log = s.log ++ deliveries ∧
        Archive options s.pendingPax rest (deliveries.map Delivery.whole) ∧
        summary = s.total (deliveries.map Delivery.whole) (n + rest.length) := by
  induction rounds with
  | zero =>
    intro s s' rest n summary _ h
    cases h
  | succ rounds ih =>
    intro s s' rest n summary hat h
    rw [readLoop] at h
    obtain ⟨block, reader, hblock, h⟩ := onReader_ok h
    obtain ⟨hlength, behind, rfl, hat'⟩ := required_inv hat hblock
    split at h
    · rename_i hzero
      have hzeros : block = List.replicate blockBytes 0 := by
        rw [List.eq_replicate_iff]
        exact ⟨hlength, by simpa using hzero⟩
      rw [readTrailer, session_bind] at h
      obtain ⟨hpending, h⟩ := Stateful.ok_of_refuseIf h
      obtain ⟨⟨⟩, reader₂, hsecond, h⟩ := onReader_ok h
      obtain ⟨later, rfl, hat₂⟩ := zeroes_inv hat' hsecond
      obtain ⟨⟨⟩, reader₃, htrailer, h⟩ := onReader_ok h
      obtain ⟨blocks, rfl, hbound, hat₃⟩ := trailerLoop_inv _ hat₂ (by decide) htrailer
      rw [session_bind] at h
      cases h
      have hnone : s.pendingPax = none := by simpa using hpending
      have hall : block ++ (List.replicate blockBytes 0 ++
          List.replicate (blocks * blockBytes) 0) =
          List.replicate ((blocks + 2) * blockBytes) 0 := by
        rw [hzeros, ← List.replicate_add, ← List.replicate_add]
        congr 1
        rw [Nat.add_mul]
        omega
      refine ⟨[], by simp, ?_, ?_⟩
      · rw [hnone, hall]
        exact .trailer (by omega) (by rw [Nat.add_mul]; omega)
      · have hbytes := hat₃.bytes_eq
        simp only [Session.total, hlength, List.map_nil, List.countP_nil, List.sum_nil,
          Nat.add_zero, List.length_append, List.length_replicate]
        rw [hbytes]
        congr 1
        omega
    · obtain ⟨header, hheader, h⟩ := Stateful.ok_of_lift h
      have hustar := parseHeader_ustar hheader
      split at h
      · rename_i hkind
        obtain ⟨⟨⟩, t, hpaxRun, h⟩ := Stateful.ok_of_bind h
        obtain ⟨hnone, hpos, hbound, data, metadata, later, reader', hdata, rfl, hpax, rfl, hat₂⟩ :=
          readPax_inv hat' hpaxRun
        obtain ⟨deliveries, hlog, harchive, hsummary⟩ := ih hat₂ h
        refine ⟨deliveries, hlog, ?_, ?_⟩
        · rw [show s.pendingPax = none from hnone]
          exact .pax hlength hheader hkind hpos hbound hdata hpax harchive
        · rw [hsummary]
          simp only [Session.total, List.length_append, List.length_replicate, hlength, hdata]
          congr 1
          omega
      · rename_i hkind
        obtain ⟨⟨⟩, t, hentryRun, h⟩ := Stateful.ok_of_bind h
        obtain ⟨entry, pieces, later, reader', state, hopens, hsize, rfl, rfl, hat₂⟩ :=
          readEntry_inv hat' hkind (fun hlink => hustar.no_payload (Or.inr hlink)) hentryRun
        obtain ⟨deliveries, hlog, harchive, hsummary⟩ := ih (by cases header.kind <;> exact hat₂) h
        have hpending : (Session.count { s with
            reader := reader'
            state
            payloadBytes := s.payloadBytes + header.size
            pendingPax := none
            log := s.log ++ [⟨entry, pieces⟩] } header.kind).pendingPax = none := by
          cases header.kind <;> rfl
        have hlogged : (Session.count { s with
            reader := reader'
            state
            payloadBytes := s.payloadBytes + header.size
            pendingPax := none
            log := s.log ++ [⟨entry, pieces⟩] } header.kind).log = s.log ++ [⟨entry, pieces⟩] := by
          cases header.kind <;> rfl
        refine ⟨⟨entry, pieces⟩ :: deliveries, ?_, ?_, ?_⟩
        · rw [hlog]
          rw [hlogged]
          simp
        · rw [hpending] at harchive
          exact .entry hlength hheader hopens hsize harchive
        · rw [hsummary]
          rw [total_count (s := s) hopens hsize]
          simp only [List.length_append, List.length_replicate, hlength, hsize]
          congr 1
          omega

/-! ### A whole archive is read -/

theorem trailerLoop_run (blocks : Nat) :
    ∀ {rounds trailerBytes n : Nat} {reader : TarReader},
      At options reader (List.replicate (blocks * blockBytes) 0) n →
      trailerBytes + blocks * blockBytes ≤ maxTrailerBytes → blocks < rounds →
      ∃ reader', trailerLoop options rounds trailerBytes reader = (.ok (), reader') ∧
        At options reader' [] (n + blocks * blockBytes) := by
  induction blocks with
  | zero =>
    intro rounds trailerBytes n reader hat _ hrounds
    obtain ⟨k, rfl⟩ : ∃ k, rounds = k + 1 := ⟨rounds - 1, by omega⟩
    rw [Nat.zero_mul, List.replicate_zero] at hat
    obtain ⟨reader', hrun, hnext⟩ := exact_run blockBytes true hat
    have hresult : exactResult blockBytes true [] = .ok none := rfl
    rw [hresult] at hrun
    rw [trailerLoop, Stateful.bind_ok hrun]
    exact ⟨reader', rfl, by simpa using hnext none hresult⟩
  | succ blocks ih =>
    intro rounds trailerBytes n reader hat hbound hrounds
    obtain ⟨k, rfl⟩ : ∃ k, rounds = k + 1 := ⟨rounds - 1, by omega⟩
    rw [Nat.succ_mul, Nat.add_comm, List.replicate_add] at hat
    rw [Nat.succ_mul] at hbound
    obtain ⟨reader', hrun, hnext⟩ := exact_run blockBytes true hat
    have hresult : exactResult blockBytes true (List.replicate blockBytes 0 ++
        List.replicate (blocks * blockBytes) 0) = .ok (some (List.replicate blockBytes 0)) := by
      rw [exactResult, if_pos (by simp), List.take_left' (List.length_replicate ..)]
    have hat' := hnext _ hresult
    rw [List.drop_left' (List.length_replicate ..), List.take_left' (List.length_replicate ..),
      List.length_replicate] at hat'
    rw [hresult] at hrun
    obtain ⟨reader'', hloop, hat''⟩ := @ih k (trailerBytes + blockBytes) _ _ hat' (by omega)
      (by omega)
    refine ⟨reader'', ?_, ?_⟩
    · rw [trailerLoop, Stateful.bind_ok hrun]
      dsimp only
      rw [Stateful.refuseIf_bind (by simp), Stateful.refuseIf_bind (by omega), hloop]
    · rw [Nat.succ_mul, Nat.add_comm (blocks * blockBytes), ← Nat.add_assoc]
      exact hat''

theorem readPax_run {metadata : PaxMetadata} {data later : Bytes} (hpending : s.pendingPax = none)
    (hpos : header.size ≠ 0) (hbound : header.size ≤ maxPaxBytes)
    (hdata : data.length = header.size) (hpax : parsePax data = .ok metadata)
    (hat : At options s.reader (data ++ (List.replicate (padding header.size) 0 ++ later)) n) :
    ∃ reader, readPax options header s =
        (.ok (), { s with reader, pendingPax := some metadata }) ∧
      At options reader later (n + header.size + padding header.size) := by
  obtain ⟨reader, hread, hat'⟩ := required_ok hat hdata
  obtain ⟨reader', hzero, hat''⟩ := zeroes_ok hat'
  refine ⟨reader', ?_, hat''⟩
  rw [readPax, session_bind, Stateful.refuseIf_bind (by
      simp only [hpending, not_or, not_not, Nat.not_lt]
      exact ⟨trivial, hpos, hbound⟩), onReader_bind hread, Stateful.lift_bind hpax, update_bind]
  show ((zeroes options (padding header.size) reader).1, _) = _
  rw [hzero]

/-- A callback that drains and never fails. -/
def recording (remember : σ → TarOutputEntry → Bytes → σ) : σ → TarOutputEntry → Callback σ :=
  draining fun state entry bytes => .ok (remember state entry bytes)

theorem deliverLink_run (remember : σ → TarOutputEntry → Bytes → σ)
    {target : SandboxSymlinkTarget} (hentry : entry.content = .symlink target) :
    deliverLink options (recording remember) entry s = (.ok (), { s with
      state := remember s.state entry []
      log := s.log ++ [⟨entry, []⟩] }) := by
  unfold deliverLink recording draining
  rw [hentry]
  rfl

theorem deliverBody_run (remember : σ → TarOutputEntry → Bytes → σ) {state : σ}
    {pieces : List Bytes}
    (h : consumeTarEntry options (recording remember s.state entry) entry.size s.reader =
      ⟨.ok state, reader, pieces⟩) :
    deliverBody options (recording remember) entry s =
      (.ok (), { s with reader, state, log := s.log ++ [⟨entry, pieces⟩] }) := by
  unfold deliverBody
  rw [h]

theorem readEntry_run (remember : σ → TarOutputEntry → Bytes → σ)
    (hbuffer : 0 < options.chunkBytes) {payload later : Bytes}
    (hopens : Opens options s.pendingPax header entry) (hlength : payload.length = header.size)
    (hlink : header.kind = .symlink → header.size = 0)
    (hat : At options s.reader (payload ++ (List.replicate (padding header.size) 0 ++ later)) n) :
    ∃ pieces reader state, pieces.flatten = payload ∧
      readEntry options (recording remember) header s =
        (.ok (), Session.count { s with
          reader
          state
          payloadBytes := s.payloadBytes + header.size
          pendingPax := none
          log := s.log ++ [⟨entry, pieces⟩] } header.kind) ∧
      At options reader later (n + header.size + padding header.size) := by
  have hpath := hopens.path
  have hcontent := hopens.content
  -- Handing over leaves the reader behind the payload.
  have hdelivered : ∃ pieces reader state, pieces.flatten = payload ∧
      At options reader (List.replicate (padding header.size) 0 ++ later) (n + header.size) ∧
      readEntry options (recording remember) header s =
        (do
          update fun s => { s with payloadBytes := s.payloadBytes + header.size }
          onReader (zeroes options (padding header.size))
          update fun s => s.count header.kind : TarM σ Unit)
          { s with reader, state, pendingPax := none, log := s.log ++ [⟨entry, pieces⟩] } := by
    by_cases hsymlink : header.kind = .symlink
    · rw [hsymlink] at hcontent
      obtain ⟨hpreserve, target, htarget, hentry⟩ := hcontent
      have hzero := hlink hsymlink
      have hpayload : payload = [] := List.length_eq_zero_iff.1 (by omega)
      have hfull : entry = ⟨entry.path, 0, header.mode, .symlink target⟩ := by
        rw [← hentry, ← hopens.mode, ← hzero, ← hopens.size]
      refine ⟨[], s.reader, remember s.state entry [], hpayload.symm, ?_, ?_⟩
      · rw [hpayload] at hat
        rw [hzero]
        simpa [hzero] using hat
      · rw [readEntry, session_bind, Stateful.lift_bind hpath,
          Stateful.refuseIf_bind (by simp [hsymlink]), update_bind, if_pos hsymlink,
          Stateful.refuseIf_bind (by simp [hpreserve]), Stateful.lift_bind htarget, ← hfull]
        exact Stateful.bind_ok (deliverLink_run remember hentry)
    · have hnotLink : ∀ target, entry.content ≠ .symlink target := by
        intro target heq
        cases hkind : header.kind with
        | file =>
          rw [hkind] at hcontent
          rw [show entry.content = .file from hcontent] at heq
          cases heq
        | directory =>
          rw [hkind] at hcontent
          rw [show entry.content = .directory from hcontent] at heq
          cases heq
        | symlink => exact hsymlink hkind
        | pax =>
          rw [hkind] at hcontent
          exact hcontent
      have hfull : (⟨entry.path, header.size, header.mode,
          if header.kind = .directory then .directory else .file⟩ : TarOutputEntry) = entry := by
        have hkindContent : (if header.kind = .directory then TarContent.directory else .file) =
            entry.content := by
          cases hkind : header.kind with
          | file =>
            rw [hkind] at hcontent
            exact (show entry.content = .file from hcontent).symm
          | directory =>
            rw [hkind] at hcontent
            exact (show entry.content = .directory from hcontent).symm
          | symlink => exact absurd hkind hsymlink
          | pax =>
            rw [hkind] at hcontent
            exact absurd hcontent id
        rw [hkindContent, ← hopens.size, ← hopens.mode]
      obtain ⟨reader, pieces, hconsumed, hpieces, hat'⟩ :=
        draining_full (fun state entry bytes => .ok (remember state entry bytes)) s.state hbuffer
          hnotLink hat (hlength.trans hopens.size.symm)
      refine ⟨pieces, reader, remember s.state entry payload, hpieces,
        hopens.size ▸ hat', ?_⟩
      rw [readEntry, session_bind, Stateful.lift_bind hpath,
        Stateful.refuseIf_bind (by
          intro hboth
          exact hboth.2 (hopens.linkpath hboth.1)), update_bind, if_neg hsymlink, hfull]
      exact Stateful.bind_ok (deliverBody_run remember hconsumed)
  obtain ⟨pieces, reader, state, hpieces, hat', hrun⟩ := hdelivered
  obtain ⟨reader', hzero, hat''⟩ := zeroes_ok hat'
  refine ⟨pieces, reader', state, hpieces, ?_, hat''⟩
  rw [hrun, update_bind, onReader_bind hzero]
  rfl

/-- A whole archive is read by a callback that drains it. -/
theorem Archive.readLoop {pending : Option PaxMetadata} {entries : List Delivered}
    (h : Archive options pending rest entries) (remember : σ → TarOutputEntry → Bytes → σ)
    (hbuffer : 0 < options.chunkBytes) :
    ∀ {s : Session σ} {n rounds : Nat}, At options s.reader rest n → s.pendingPax = pending →
      rest.length < rounds → ∃ s' deliveries,
        readLoop options (recording remember) rounds s =
          (.ok (s.total entries (n + rest.length)), s') ∧
        s'.log = s.log ++ deliveries ∧ deliveries.map Delivery.whole = entries := by
  induction h with
  | @trailer blocks htwo hbound =>
    intro s n rounds hat hpending hrounds
    obtain ⟨k, rfl⟩ : ∃ k, rounds = k + 1 := ⟨rounds - 1, by omega⟩
    obtain ⟨later, rfl⟩ : ∃ later, blocks = later + 1 + 1 := ⟨blocks - 2, by omega⟩
    have hsplit : List.replicate ((later + 1 + 1) * blockBytes) (0 : UInt8) =
        List.replicate blockBytes 0 ++ (List.replicate blockBytes 0 ++
          List.replicate (later * blockBytes) 0) := by
      rw [← List.replicate_add, ← List.replicate_add]
      congr 1
      rw [Nat.add_mul, Nat.add_mul]
      omega
    rw [Nat.add_mul, Nat.add_mul, Nat.one_mul] at hbound
    rw [hsplit] at hat
    obtain ⟨reader₁, hfirst, hat₁⟩ := required_ok hat (List.length_replicate ..)
    obtain ⟨reader₂, hsecond, hat₂⟩ := zeroes_ok hat₁
    obtain ⟨reader₃, hthird, hat₃⟩ := @trailerLoop_run options later
      (maxTrailerBytes / blockBytes) (blockBytes * 2) _ _ hat₂ (by omega) (by
        simp only [maxTrailerBytes, blockBytes] at *
        omega)
    refine ⟨{ s with reader := reader₃ }, [], ?_, by simp, rfl⟩
    rw [Tar.readLoop, onReader_bind hfirst, if_pos (by simp), readTrailer, session_bind,
      Stateful.refuseIf_bind (by simp [hpending]), onReader_bind hsecond, onReader_bind hthird,
      session_bind]
    have hbytes := hat₃.bytes_eq
    simp only [Session.total, List.countP_nil, List.map_nil, List.sum_nil, Nat.add_zero,
      Stateful.pure_run, List.length_replicate]
    rw [hbytes, Nat.add_mul, Nat.add_mul, Nat.one_mul,
      show n + blockBytes + blockBytes + later * blockBytes =
        n + (later * blockBytes + blockBytes + blockBytes) by omega]
  | @pax block data rest header metadata entries hblock hheader hkind hpos hbound hdata hpax _ ih =>
    intro s n rounds hat hpending hrounds
    obtain ⟨k, rfl⟩ : ∃ k, rounds = k + 1 := ⟨rounds - 1, by omega⟩
    obtain ⟨reader, hread, hat'⟩ := required_ok hat hblock
    obtain ⟨reader', hpaxRun, hat''⟩ := readPax_run (s := { s with reader }) hpending hpos hbound
      hdata hpax hat'
    simp only [List.length_append, List.length_replicate, hblock, hdata] at hrounds ⊢
    have hblockPos : 0 < blockBytes := by decide
    obtain ⟨s', deliveries, hrun, hlog, hwhole⟩ :=
      @ih { s with reader := reader', pendingPax := some metadata } _ k hat'' rfl (by omega)
    refine ⟨s', deliveries, ?_, hlog, hwhole⟩
    rw [Tar.readLoop, onReader_bind hread, if_neg (by simp [parseHeader_not_zero hheader]),
      Stateful.lift_bind hheader, if_pos hkind, Stateful.bind_ok hpaxRun, hrun]
    simp only [Session.total, Nat.add_assoc]
  | @entry pending block payload rest header entry entries hblock hheader hopens hpayload _ ih =>
    intro s n rounds hat hpending hrounds
    obtain ⟨k, rfl⟩ : ∃ k, rounds = k + 1 := ⟨rounds - 1, by omega⟩
    obtain ⟨reader, hread, hat'⟩ := required_ok hat hblock
    have hkind : header.kind ≠ .pax := by
      intro heq
      have hcontent := hopens.content
      rw [heq] at hcontent
      exact hcontent
    obtain ⟨pieces, reader', state, hpieces, hentryRun, hat''⟩ :=
      readEntry_run remember hbuffer (s := { s with reader }) (hpending ▸ hopens) hpayload
        (fun hlink => (parseHeader_ustar hheader).no_payload (Or.inr hlink)) hat'
    simp only [List.length_append, List.length_replicate, hblock, hpayload] at hrounds ⊢
    have hcounted : ∀ t : Session σ, (t.count header.kind).reader = t.reader ∧
        (t.count header.kind).pendingPax = t.pendingPax ∧
        (t.count header.kind).log = t.log := by
      intro t
      cases header.kind <;> exact ⟨rfl, rfl, rfl⟩
    have hblockPos : 0 < blockBytes := by decide
    obtain ⟨s', deliveries, hrun, hlog, hwhole⟩ := @ih (Session.count { s with
        reader := reader'
        state
        payloadBytes := s.payloadBytes + header.size
        pendingPax := none
        log := s.log ++ [⟨entry, pieces⟩] } header.kind) _ k
      (by rw [(hcounted _).1]; exact hat'') (hcounted _).2.1 (by omega)
    refine ⟨s', ⟨entry, pieces⟩ :: deliveries, ?_, ?_, ?_⟩
    · rw [Tar.readLoop, onReader_bind hread, if_neg (by simp [parseHeader_not_zero hheader]),
        Stateful.lift_bind hheader, if_neg hkind, Stateful.bind_ok hentryRun, hrun,
        total_count (s := s) (hpending ▸ hopens) hpayload]
      simp only [Nat.add_assoc]
    · rw [hlog, (hcounted _).2.2]
      simp
    · simp [hwhole, Delivery.whole, hpieces]

end AgentSdk.Tar
