import AgentSdk.Tar.Entry
import AgentSdk.Tar.Pax

/-!
# Reading an archive

`readTar` hands the entries of an archive to a callback, one after the other,
and accounts for every byte up to the end of the source.
-/

namespace AgentSdk.Tar

open AgentSdk.Text AgentSdk.Sandbox

structure TarSummary where
  files : Nat
  directories : Nat
  symlinks : Nat
  payloadBytes : Nat
  archiveBytes : Nat
  deriving DecidableEq, Repr

/-- An entry that the callback received, and the chunks of its body that were
handed over. -/
structure Delivery where
  entry : TarOutputEntry
  pieces : List Bytes

/-- The state of a run.  `state` is what the callback remembers from entry to
entry; `log` lists what it received. -/
structure Session (σ : Type) where
  reader : TarReader
  state : σ
  files : Nat
  directories : Nat
  symlinks : Nat
  payloadBytes : Nat
  pendingPax : Option PaxMetadata
  log : List Delivery

def Session.start {σ : Type} (state : σ) (source : List Bytes) : Session σ :=
  ⟨TarReader.start source, state, 0, 0, 0, 0, none, []⟩

abbrev TarM (σ : Type) := Stateful TarError (Session σ)

variable {σ : Type}

def session : TarM σ (Session σ) := fun s => (.ok s, s)

def update (change : Session σ → Session σ) : TarM σ Unit := fun s => (.ok (), change s)

def onReader {α : Type} (m : ReaderM α) : TarM σ α :=
  Stateful.zoom Session.reader (fun s reader => { s with reader }) m

/-- The zero bytes behind `size` bytes up to the next block. -/
def padding (size : Nat) : Nat := (blockBytes - size % blockBytes) % blockBytes

variable (options : TarOptions) (consume : σ → TarOutputEntry → Callback σ)

/-- Hand over an entry without a body.  Nothing is left of its body to pull. -/
def deliverLink (entry : TarOutputEntry) : TarM σ Unit := fun s =>
  let retired := { EntryBody.start (TarReader.start []) 0 with active := false }
  let delivered := { s with log := s.log ++ [⟨entry, []⟩] }
  match ((consume s.state entry).run options retired).1 with
  | .error error => (.error error, delivered)
  | .ok state => (.ok (), { delivered with state })

/-- Hand over an entry with its body. -/
def deliverBody (entry : TarOutputEntry) : TarM σ Unit := fun s =>
  let consumed := consumeTarEntry options (consume s.state entry) entry.size s.reader
  let delivered := { s with
    reader := consumed.reader
    log := s.log ++ [⟨entry, consumed.pieces⟩] }
  match consumed.result with
  | .error error => (.error error, delivered)
  | .ok state => (.ok (), { delivered with state })

/-- Count an entry whose payload and padding were read. -/
def Session.count (s : Session σ) (kind : EntryKind) : Session σ :=
  match kind with
  | .file => { s with files := s.files + 1 }
  | .directory => { s with directories := s.directories + 1 }
  | .symlink => { s with symlinks := s.symlinks + 1 }
  | .pax => s

def readEntry (header : TarHeader) : TarM σ Unit := do
  let pending := (← session).pendingPax
  let path ← Stateful.lift (archiveName ((pending.bind PaxMetadata.path).getD header.path)
    (header.kind == .directory))
  let linkpath := pending.bind PaxMetadata.linkpath
  refuseIf (header.kind ≠ .symlink ∧ linkpath ≠ none)
    (archiveError "PAX linkpath requires a symbolic-link entry.")
  update fun s => { s with pendingPax := none }
  if header.kind = .symlink then do
    refuseIf (options.preserveInternal = false)
      (archiveError "symbolic links require explicit preservation.")
    let target ← Stateful.lift (symlinkTarget (linkpath.getD header.target))
    deliverLink options consume ⟨path, 0, header.mode, .symlink target⟩
  else
    deliverBody options consume ⟨path, header.size, header.mode,
      if header.kind = .directory then .directory else .file⟩
  update fun s => { s with payloadBytes := s.payloadBytes + header.size }
  onReader (zeroes options (padding header.size))
  update fun s => s.count header.kind

/-- Take in the records that belong to the next entry. -/
def readPax (header : TarHeader) : TarM σ Unit := do
  let pending := (← session).pendingPax
  refuseIf (pending ≠ none ∨ header.size = 0 ∨ maxPaxBytes < header.size)
    (archiveError "invalid bounded local PAX sequence.")
  let data ← onReader (required options header.size)
  let metadata ← Stateful.lift (parsePax data)
  update fun s => { s with pendingPax := some metadata }
  onReader (zeroes options (padding header.size))

def trailerLoop : Nat → Nat → ReaderM Unit
  | 0, _ => throw .exhausted
  | rounds + 1, trailerBytes => do
      match ← exact options blockBytes true with
      | none => return ()
      | some trailing => do
          refuseIf (trailing.any (· != 0) = true) (archiveError "nonzero padding or trailer.")
          refuseIf (maxTrailerBytes < trailerBytes + blockBytes)
            (archiveError "trailing padding exceeds the framing bound.")
          trailerLoop rounds (trailerBytes + blockBytes)

/-- Read the rest of the source behind a first zero block. -/
def readTrailer : TarM σ TarSummary := do
  let pending := (← session).pendingPax
  refuseIf (pending ≠ none) (archiveError "PAX metadata lacks its following entry.")
  onReader (zeroes options blockBytes)
  onReader (trailerLoop options (maxTrailerBytes / blockBytes) (blockBytes * 2))
  let s ← session
  return ⟨s.files, s.directories, s.symlinks, s.payloadBytes, s.reader.bytes⟩

def readLoop : Nat → TarM σ TarSummary
  | 0 => throw .exhausted
  | rounds + 1 => do
      let block ← onReader (required options blockBytes)
      if block.all (· == 0) then readTrailer options
      else do
        let header ← Stateful.lift (parseHeader block)
        if header.kind = .pax then do
          readPax options header
          readLoop rounds
        else do
          readEntry options consume header
          readLoop rounds

/-- Read an archive: what the callback received, and how the run ended.  Every
round of the loop reads a block. -/
def readTar (state : σ) (source : List Bytes) : List Delivery × Except TarError TarSummary :=
  let ended := readLoop options consume (source.flatten.length + 1) (Session.start state source)
  (ended.2.log, ended.1)

end AgentSdk.Tar
