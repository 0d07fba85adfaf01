import AgentSdk.Tar.HeaderBlock
import AgentSdk.Tar.Decode

/-!
# Writing an archive

`writeTar` writes a header block for every entry, in front of it the records
for a name or a link target that the header cannot hold, behind it the body up
to a whole block, and two zero blocks at the end.

## Main results

* `writeEntry_ok` — what an accepted entry is and which bytes are written for it.
* `writeTar_ok` — which bytes are written in all.
-/

namespace AgentSdk.Tar

open AgentSdk.Text AgentSdk.Sandbox

inductive TarInputContent where
  | file
  | directory
  | symlink (target : JsString)
  deriving DecidableEq

def TarInputContent.kind : TarInputContent → EntryKind
  | .file => .file
  | .directory => .directory
  | .symlink _ => .symlink

/-- An entry to write.  `body` are the chunks that the producer of a file hands
over; the numbers are integers of any size. -/
structure TarInputEntry where
  path : JsString
  size : Int
  mode : Int
  uid : Int
  gid : Int
  content : TarInputContent
  body : Option (List Bytes)

/-- What was written: the chunks handed on and the bytes counted. -/
structure Written where
  chunks : List Bytes
  bytes : Nat

abbrev WriterM := Stateful TarError Written

variable (options : TarOptions)

/-- Hand on a chunk, within the quota. -/
def emit (chunk : Bytes) : WriterM Unit := fun written =>
  let bytes := written.bytes + chunk.length
  if options.exceeded bytes then
    (.error (.operation options.limitCode
      "Workspace archive exceeds the caller-selected wire byte quota."), { written with bytes })
  else (.ok (), ⟨written.chunks ++ [chunk], bytes⟩)

/-- Hand on the chunks of a body of `size` bytes, of which `written` were handed on. -/
def payloadLoop (size : Int) : List Bytes → Nat → WriterM Nat
  | [], written => return written
  | chunk :: body, written => do
      refuseIf (options.chunkBytes < chunk.length)
        (.operation .input_limit "Input file chunks exceed the selected byte buffer.")
      refuseIf (size - written < chunk.length)
        (.operation .input_limit "Input file body exceeds its declared size.")
      emit options chunk
      payloadLoop size body (written + chunk.length)

def payloadBody (entry : TarInputEntry) : WriterM Nat :=
  match entry.body with
  | none => pure 0
  | some body => payloadLoop options entry.size body 0

def payload (entry : TarInputEntry) : WriterM Unit := do
  let written ← payloadBody options entry
  refuseIf ((written : Int) ≠ entry.size)
    (.operation .input_limit "Input file body ended before its declared size.")
  if written % blockBytes ≠ 0 then
    emit options (List.replicate (blockBytes - written % blockBytes) 0)

/-- The parts of `bytes` that start at the multiples of `size`. -/
def parts (size : Nat) : Nat → Bytes → List Bytes
  | 0, _ => []
  | rounds + 1, bytes =>
    if bytes = [] then [] else bytes.take size :: parts size rounds (bytes.drop size)

/-- Write the records that give the next entry its name or its link target. -/
def writePax (entry : TarInputEntry) (overrides : PaxMetadata) : WriterM Unit := do
  let pax := encodePax overrides
  refuseIf (maxPaxBytes < pax.length)
    (.unsupported "Docker path metadata exceeds the selected bounded PAX representation.")
  let header ← Stateful.lift (makeHeader
    ⟨js "PaxHeader", .pax, pax.length, entry.mode, entry.uid, entry.gid, none⟩)
  emit options header
  (parts options.chunkBytes pax.length pax).forM (emit options)
  if pax.length % blockBytes ≠ 0 then
    emit options (List.replicate (blockBytes - pax.length % blockBytes) 0)

/-- The name of an entry in the archive: a directory's ends in a slash. -/
def TarInputEntry.name (entry : TarInputEntry) : JsString :=
  if entry.content.kind = .directory then entry.path ++ [slash] else entry.path

def TarInputEntry.longName (entry : TarInputEntry) : Bool := decide (100 < utf8Length entry.name)

/-- The link target, checked. -/
def inputTarget (entry : TarInputEntry) : Except TarError (Option JsString) :=
  match entry.content with
  | .symlink target => do
      let checked ← symlinkTarget target
      return some checked.text
  | _ => .ok none

def longTarget (target : Option JsString) : Bool :=
  target.any fun target => decide (100 < utf8Length target)

/-- Write the records for what the header cannot hold. -/
def writeOverrides (entry : TarInputEntry) (target : Option JsString) : WriterM Unit :=
  if entry.longName || longTarget target then
    writePax options entry ⟨if entry.longName then some entry.name else none,
      if longTarget target then target else none⟩
  else pure ()

/-- The header of an entry, without what its records hold. -/
def TarInputEntry.header (entry : TarInputEntry) (target : Option JsString) : HeaderEntry where
  path := if entry.longName then
    (if entry.content.kind = .directory then js "entry/" else js "entry") else entry.name
  kind := entry.content.kind
  size := entry.size
  mode := entry.mode
  uid := entry.uid
  gid := entry.gid
  target := if longTarget target then some [] else target

def writeEntry (entry : TarInputEntry) : WriterM Unit := do
  let _ ← Stateful.lift (archiveName entry.path (entry.content.kind == .directory))
  refuseIf (isSafeInteger entry.size = false ∨ entry.size < 0 ∨ (maxOctalSize : Int) < entry.size)
    (.unsupported ("Docker tar entries require exact unsigned-octal sizes no greater than 8 GiB " ++
      "minus one byte."))
  refuseIf (entry.content.kind ≠ .file ∧ (entry.size ≠ 0 ∨ entry.body.isSome))
    (.unsupported "Directory and symbolic-link tar entries cannot carry payload.")
  refuseIf (entry.content.kind = .symlink ∧ options.preserveInternal = false)
    (.unsupported "Symbolic links require explicit preservation.")
  let target ← Stateful.lift (inputTarget entry)
  writeOverrides options entry target
  let header ← Stateful.lift (makeHeader (entry.header target))
  emit options header
  if entry.content.kind = .file then payload options entry

/-- Write an archive: the chunks handed on, and how the run ended. -/
def writeTar (entries : List TarInputEntry) : List Bytes × Except TarError Unit :=
  let run : WriterM Unit := do
    entries.forM (writeEntry options)
    emit options (List.replicate blockBytes 0)
    emit options (List.replicate blockBytes 0)
  let ended := run ⟨[], 0⟩
  (ended.2.chunks, ended.1)

variable {options}

/-! ### What is written -/

/-- The writer handed on `bytes` between two states. -/
structure Wrote (options : TarOptions) (written written' : Written) (bytes : Bytes) : Prop where
  flatten : written'.chunks.flatten = written.chunks.flatten ++ bytes
  count : written'.bytes = written.bytes + bytes.length
  quota : options.exceeded written.bytes = false → options.exceeded written'.bytes = false

theorem Wrote.refl (written : Written) : Wrote options written written [] :=
  ⟨by simp, by simp, id⟩

theorem Wrote.trans {a b c : Written} {bytes later : Bytes} (h : Wrote options a b bytes)
    (h' : Wrote options b c later) : Wrote options a c (bytes ++ later) :=
  ⟨by rw [h'.flatten, h.flatten, List.append_assoc],
    by rw [h'.count, h.count, List.length_append, Nat.add_assoc], fun hq => h'.quota (h.quota hq)⟩

variable {written written' : Written} {entry : TarInputEntry}

theorem emit_ok {chunk : Bytes} (h : emit options chunk written = (.ok (), written')) :
    Wrote options written written' chunk := by
  unfold emit at h
  dsimp only at h
  split at h
  · cases h
  · rename_i hquota
    cases h
    exact ⟨by simp, rfl, fun _ => by simpa using hquota⟩

/-- A check of the writer that is the last step. -/
theorem padding_ok {size : Nat}
    (h : (if size % blockBytes ≠ 0 then
        emit options (List.replicate (blockBytes - size % blockBytes) 0)
      else pure () : WriterM Unit) written = (.ok (), written')) :
    Wrote options written written' (List.replicate (padding size) 0) := by
  have hpos : 0 < blockBytes := by decide
  have hlt := Nat.mod_lt size hpos
  by_cases hzero : size % blockBytes = 0
  · rw [if_neg (by simpa using hzero)] at h
    cases h
    rw [padding, hzero, Nat.sub_zero, Nat.mod_self]
    exact .refl written
  · rw [if_pos hzero] at h
    rw [padding, Nat.mod_eq_of_lt (by omega)]
    exact emit_ok h

theorem payloadLoop_ok {size : Int} (body : List Bytes) :
    ∀ {count total : Nat} {written written' : Written},
      payloadLoop options size body count written = (.ok total, written') →
      total = count + body.flatten.length ∧ Wrote options written written' body.flatten := by
  induction body with
  | nil =>
    intro count total written written' h
    cases h
    exact ⟨by simp, .refl written⟩
  | cons chunk body ih =>
    intro count total written written' h
    rw [payloadLoop] at h
    obtain ⟨_, h⟩ := Stateful.ok_of_refuseIf h
    obtain ⟨_, h⟩ := Stateful.ok_of_refuseIf h
    obtain ⟨⟨⟩, next, hemit, h⟩ := Stateful.ok_of_bind h
    obtain ⟨htotal, hwrote⟩ := ih h
    refine ⟨?_, (emit_ok hemit).trans hwrote⟩
    rw [htotal, List.flatten_cons, List.length_append, Nat.add_assoc]

/-- The body of an entry as bytes. -/
def TarInputEntry.bytes (entry : TarInputEntry) : Bytes := (entry.body.getD []).flatten

theorem payload_ok (h : payload options entry written = (.ok (), written')) :
    entry.size = entry.bytes.length ∧ Wrote options written written'
      (entry.bytes ++ List.replicate (padding entry.bytes.length) 0) := by
  unfold payload at h
  obtain ⟨total, next, hbody, h⟩ := Stateful.ok_of_bind h
  obtain ⟨hsize, h⟩ := Stateful.ok_of_refuseIf h
  have hwrote : total = entry.bytes.length ∧ Wrote options written next entry.bytes := by
    unfold payloadBody at hbody
    unfold TarInputEntry.bytes
    cases hcase : entry.body with
    | none =>
      rw [hcase] at hbody
      cases hbody
      exact ⟨rfl, .refl written⟩
    | some body =>
      rw [hcase] at hbody
      obtain ⟨htotal, hwrote⟩ := payloadLoop_ok body hbody
      exact ⟨by rw [htotal, Nat.zero_add]; rfl, hwrote⟩
  obtain ⟨rfl, hwrote⟩ := hwrote
  exact ⟨(not_ne_iff.1 hsize).symm, hwrote.trans (padding_ok h)⟩

theorem flatten_parts {size : Nat} (hsize : 0 < size) (rounds : Nat) :
    ∀ {bytes : Bytes}, bytes.length ≤ rounds → (parts size rounds bytes).flatten = bytes := by
  induction rounds with
  | zero =>
    intro bytes h
    rw [List.eq_nil_of_length_eq_zero (Nat.le_zero.1 h)]
    rfl
  | succ rounds ih =>
    intro bytes h
    rw [parts]
    split
    · rename_i hempty
      rw [hempty]
      rfl
    · rename_i hne
      rw [List.flatten_cons, ih (by rw [List.length_drop]; omega), List.take_append_drop]

theorem forM_emit_ok (chunks : List Bytes) :
    ∀ {written written' : Written}, chunks.forM (emit options) written = (.ok (), written') →
      Wrote options written written' chunks.flatten := by
  induction chunks with
  | nil =>
    intro written written' h
    cases h
    exact .refl written
  | cons chunk chunks ih =>
    intro written written' h
    have hcons : (emit options chunk >>= fun _ => chunks.forM (emit options)) written =
        (.ok (), written') := h
    obtain ⟨⟨⟩, next, hemit, hrest⟩ := Stateful.ok_of_bind hcons
    exact (emit_ok hemit).trans (ih hrest)

/-- The header in front of the records of an entry. -/
def TarInputEntry.paxHeader (entry : TarInputEntry) (overrides : PaxMetadata) : HeaderEntry :=
  ⟨js "PaxHeader", .pax, (encodePax overrides).length, entry.mode, entry.uid, entry.gid, none⟩

theorem writePax_ok {overrides : PaxMetadata} (hchunk : 0 < options.chunkBytes)
    (h : writePax options entry overrides written = (.ok (), written')) :
    (encodePax overrides).length ≤ maxPaxBytes ∧ Representable (entry.paxHeader overrides) ∧
      Wrote options written written' (headerBlock (entry.paxHeader overrides) ++
        (encodePax overrides ++
          List.replicate (padding (encodePax overrides).length) 0)) := by
  unfold writePax at h
  obtain ⟨hbound, h⟩ := Stateful.ok_of_refuseIf h
  obtain ⟨block, hheader, h⟩ := Stateful.ok_of_lift h
  obtain ⟨⟨⟩, behind, hemit, h⟩ := Stateful.ok_of_bind h
  obtain ⟨⟨⟩, next, hparts, h⟩ := Stateful.ok_of_bind h
  obtain ⟨hrep, hblock⟩ := makeHeader_eq_ok_iff.1 hheader
  rw [hblock] at hemit
  have hpax := forM_emit_ok _ hparts
  rw [flatten_parts hchunk _ (Nat.le_refl _)] at hpax
  exact ⟨Nat.not_lt.1 hbound, hrep, (emit_ok hemit).trans (hpax.trans (padding_ok h))⟩

/-- What an entry must be to be written, besides its body. -/
structure Writable (options : TarOptions) (entry : TarInputEntry) (target : Option JsString) :
    Prop where
  name : ∃ name, archiveName entry.path (entry.content.kind == .directory) = .ok name
  size : 0 ≤ entry.size ∧ entry.size ≤ maxOctalSize
  no_payload : entry.content.kind ≠ .file → entry.size = 0 ∧ entry.body = none
  preserve : entry.content.kind = .symlink → options.preserveInternal = true
  link : inputTarget entry = .ok target
  header : Representable (entry.header target)

/-- What the records of an entry hold. -/
def TarInputEntry.overrides (entry : TarInputEntry) (target : Option JsString) : PaxMetadata :=
  ⟨if entry.longName then some entry.name else none,
    if longTarget target then target else none⟩

/-- The records that are written in front of a header. -/
inductive Overrides (entry : TarInputEntry) (target : Option JsString) :
    Option PaxMetadata → Bytes → Prop
  | none (hname : entry.longName = false) (htarget : longTarget target = false) :
      Overrides entry target none []
  | some (hlong : entry.longName = true ∨ longTarget target = true)
      (hbound : (encodePax (entry.overrides target)).length ≤ maxPaxBytes)
      (hheader : Representable (entry.paxHeader (entry.overrides target))) :
      Overrides entry target (some (entry.overrides target))
        (headerBlock (entry.paxHeader (entry.overrides target)) ++
          (encodePax (entry.overrides target) ++
            List.replicate (padding (encodePax (entry.overrides target)).length) 0))

theorem writeOverrides_ok {target : Option JsString} (hchunk : 0 < options.chunkBytes)
    (h : writeOverrides options entry target written = (.ok (), written')) :
    ∃ pending bytes, Overrides entry target pending bytes ∧
      Wrote options written written' bytes := by
  unfold writeOverrides at h
  split at h
  · rename_i hlong
    obtain ⟨hbound, hheader, hwrote⟩ := writePax_ok hchunk h
    exact ⟨_, _, .some (by simpa using hlong) hbound hheader, hwrote⟩
  · rename_i hshort
    cases h
    simp only [Bool.or_eq_true, not_or, Bool.not_eq_true] at hshort
    exact ⟨_, _, .none hshort.1 hshort.2, .refl written⟩

/-- What an accepted entry is and which bytes are written for it. -/
theorem writeEntry_ok (hchunk : 0 < options.chunkBytes)
    (h : writeEntry options entry written = (.ok (), written')) :
    ∃ target pending records, Writable options entry target ∧
      Overrides entry target pending records ∧ entry.size = entry.bytes.length ∧
      Wrote options written written' (records ++ (headerBlock (entry.header target) ++
        (entry.bytes ++ List.replicate (padding entry.bytes.length) 0))) := by
  unfold writeEntry at h
  obtain ⟨name, hname, h⟩ := Stateful.ok_of_lift h
  obtain ⟨hsize, h⟩ := Stateful.ok_of_refuseIf h
  obtain ⟨hpayload, h⟩ := Stateful.ok_of_refuseIf h
  obtain ⟨hpreserve, h⟩ := Stateful.ok_of_refuseIf h
  obtain ⟨target, htarget, h⟩ := Stateful.ok_of_lift h
  obtain ⟨⟨⟩, middle, hoverrides, h⟩ := Stateful.ok_of_bind h
  obtain ⟨block, hheader, h⟩ := Stateful.ok_of_lift h
  obtain ⟨⟨⟩, behind, hemit, h⟩ := Stateful.ok_of_bind h
  obtain ⟨hrep, hblock⟩ := makeHeader_eq_ok_iff.1 hheader
  rw [hblock] at hemit
  obtain ⟨pending, records, hrecords, hwrote⟩ := writeOverrides_ok hchunk hoverrides
  have hno : entry.content.kind ≠ .file → entry.size = 0 ∧ entry.body = none := by
    intro hkind
    by_contra hfilled
    refine hpayload ⟨hkind, ?_⟩
    by_cases hzero : entry.size = 0
    · refine Or.inr ?_
      cases hbody : entry.body with
      | none => exact absurd ⟨hzero, hbody⟩ hfilled
      | some body => rfl
    · exact Or.inl hzero
  have hwritable : Writable options entry target := {
    name := ⟨name, hname⟩
    size := by omega
    no_payload := hno
    preserve := by
      intro hkind
      by_contra hreject
      exact hpreserve ⟨hkind, by simpa using hreject⟩
    link := htarget
    header := hrep }
  refine ⟨target, pending, records, hwritable, hrecords, ?_⟩
  have hhead := hwrote.trans (emit_ok hemit)
  split at h
  · obtain ⟨hlength, hbody⟩ := payload_ok h
    refine ⟨hlength, ?_⟩
    rw [← List.append_assoc]
    exact hhead.trans hbody
  · rename_i hkind
    cases h
    obtain ⟨hzero, hnone⟩ := hno hkind
    have hempty : entry.bytes = [] := by
      rw [TarInputEntry.bytes, hnone]
      rfl
    rw [hempty]
    refine ⟨hzero, ?_⟩
    rw [← List.append_assoc]
    exact hhead.trans (.refl written')

/-- The bytes of a list of entries. -/
inductive Entries (options : TarOptions) : List TarInputEntry → Bytes → Prop
  | nil : Entries options [] []
  | cons {entry : TarInputEntry} {entries : List TarInputEntry} {target : Option JsString}
      {pending : Option PaxMetadata} {records rest : Bytes}
      (hwritable : Writable options entry target) (hrecords : Overrides entry target pending records)
      (hlength : entry.size = entry.bytes.length) (hrest : Entries options entries rest) :
      Entries options (entry :: entries) (records ++ (headerBlock (entry.header target) ++
        (entry.bytes ++ (List.replicate (padding entry.bytes.length) 0 ++ rest))))

theorem writeEntries_ok (hchunk : 0 < options.chunkBytes) (entries : List TarInputEntry) :
    ∀ {written written' : Written},
      entries.forM (writeEntry options) written = (.ok (), written') →
      ∃ bytes, Entries options entries bytes ∧ Wrote options written written' bytes := by
  induction entries with
  | nil =>
    intro written written' h
    cases h
    exact ⟨[], .nil, .refl written⟩
  | cons entry entries ih =>
    intro written written' h
    have hcons : (writeEntry options entry >>= fun _ => entries.forM (writeEntry options)) written =
        (.ok (), written') := h
    obtain ⟨⟨⟩, next, hentry, hrest⟩ := Stateful.ok_of_bind hcons
    obtain ⟨target, pending, records, hwritable, hrecords, hlength, hwrote⟩ :=
      writeEntry_ok hchunk hentry
    obtain ⟨rest, hentries, hrest⟩ := ih hrest
    have hall := hwrote.trans hrest
    simp only [List.append_assoc] at hall
    exact ⟨_, .cons hwritable hrecords hlength hentries, hall⟩

/-- Which bytes are written in all. -/
theorem writeTar_ok {entries : List TarInputEntry} (hchunk : 0 < options.chunkBytes)
    (h : (writeTar options entries).2 = .ok ()) :
    ∃ bytes, Entries options entries bytes ∧
      (writeTar options entries).1.flatten =
        bytes ++ List.replicate (2 * blockBytes) 0 ∧
      options.exceeded (writeTar options entries).1.flatten.length = false := by
  unfold writeTar at h ⊢
  dsimp only at h ⊢
  generalize hran : (do
    entries.forM (writeEntry options)
    emit options (List.replicate blockBytes 0)
    emit options (List.replicate blockBytes 0) : WriterM Unit) ⟨[], 0⟩ = ran at h ⊢
  obtain ⟨result, last⟩ := ran
  dsimp only at h ⊢
  rw [h] at hran
  obtain ⟨⟨⟩, middle, hentries, hran⟩ := Stateful.ok_of_bind hran
  obtain ⟨⟨⟩, later, hfirst, hsecond⟩ := Stateful.ok_of_bind hran
  obtain ⟨bytes, hall, hwrote⟩ := writeEntries_ok hchunk entries hentries
  have htotal := (hwrote.trans (emit_ok hfirst)).trans (emit_ok hsecond)
  have hflatten := htotal.flatten
  rw [List.append_assoc, ← List.replicate_add] at hflatten
  have hstart : options.exceeded 0 = false := by
    unfold TarOptions.exceeded
    cases options.maxArchiveBytes <;> simp
  have hquota := htotal.quota hstart
  have hcount := htotal.count
  rw [hcount] at hquota
  refine ⟨bytes, hall, hflatten, ?_⟩
  rw [htotal.flatten]
  simpa using hquota

end AgentSdk.Tar
