import AgentSdk.Tar.Archive
import AgentSdk.Tar.Encode
import Mathlib.Data.List.Forall2

/-!
# What is written is read back

The bytes of a written archive form an `Archive`, so a reader that drains every
entry finds what was written.  The one exception are directories whose path ends
in a slash: the check of a path drops that slash, the written name keeps it and
gets another, and the reader refuses it.

## Main results

* `Entries.archive` — the bytes of accepted entries are an archive of them.
* `written_is_read_back` — for which accepted entries the archive is read back.
-/

namespace AgentSdk.Tar

open AgentSdk.Text AgentSdk.Sandbox

variable {σ : Type} {options : TarOptions} {entry : TarInputEntry} {entries : List TarInputEntry}
  {target : Option JsString} {pending : Option PaxMetadata} {records rest : Bytes}

/-- A directory whose path ends in a slash. -/
def TarInputEntry.slashed (entry : TarInputEntry) : Bool :=
  entry.content.kind == .directory && endsWithSlash entry.path

def TarContent.written : TarContent → TarInputContent
  | .file => .file
  | .directory => .directory
  | .symlink target => .symlink target.text

/-- What a callback received is what was written. -/
structure ReadBack (entry : TarInputEntry) (delivered : Delivered) : Prop where
  path : delivered.entry.path.text = entry.path
  size : (delivered.entry.size : Int) = entry.size
  mode : (delivered.entry.mode : Int) = entry.mode
  content : delivered.entry.content.written = entry.content
  body : delivered.body = entry.bytes

/-- The summary of an archive of `bytes` bytes. -/
def summaryOf (entries : List TarInputEntry) (bytes : Nat) : TarSummary where
  files := entries.countP fun entry => entry.content.kind == .file
  directories := entries.countP fun entry => entry.content.kind == .directory
  symlinks := entries.countP fun entry => entry.content.kind == .symlink
  payloadBytes := (entries.map fun entry => entry.bytes.length).sum
  archiveBytes := bytes

/-- A reader that remembers every entry delivers the entries in order and counts them. -/
def RoundTrip (options : TarOptions) (entries : List TarInputEntry)
    (remember : σ → TarOutputEntry → Bytes → σ) (state : σ) (source : List Bytes) : Prop :=
  ∃ log, readTar options (recording remember) state source =
      (log, .ok (summaryOf entries source.flatten.length)) ∧
    List.Forall₂ (fun entry delivery => ReadBack entry delivery.whole) entries log

/-! ### One entry -/

/-- What is read of a written header. -/
def TarInputEntry.readHeader (entry : TarInputEntry) (target : Option JsString) : TarHeader where
  path := (entry.header target).path
  kind := entry.content.kind
  size := entry.size.toNat
  mode := entry.mode.toNat
  target := if entry.content.kind = .symlink then (entry.header target).target.getD [] else []

/-- Without a trailing slash an accepted path is the name that the check returns. -/
theorem Writable.name_eq (h : Writable options entry target) (hslash : entry.slashed = false) :
    ∃ name, name.text = entry.path ∧ archiveName entry.name (entry.content.kind == .directory) =
      .ok name := by
  obtain ⟨name, hname⟩ := h.name
  have htext := archiveName_of_not_endsWithSlash hslash hname
  refine ⟨name, htext, ?_⟩
  unfold TarInputEntry.name
  rw [← htext]
  by_cases hkind : entry.content.kind = .directory
  · rw [if_pos hkind, hkind]
    exact name.archiveName_slash
  · rw [if_neg hkind]
    exact name.archiveName_text _

/-- The checked link target: a symbolic link has one, and only it. -/
theorem Writable.target_eq (h : Writable options entry target) :
    (∃ link : SandboxSymlinkTarget, entry.content = .symlink link.text ∧
        target = some link.text) ∨
      (entry.content.kind ≠ .symlink ∧ target = none) := by
  have hlink := h.link
  unfold inputTarget at hlink
  cases hcontent : entry.content with
  | symlink text =>
    rw [hcontent] at hlink
    obtain ⟨link, hcheck, hrest⟩ := ok_of_except_bind hlink
    have htext := symlinkTarget_ok hcheck
    exact Or.inl ⟨link, by rw [htext], (Except.ok.inj hrest).symm⟩
  | file | directory =>
    rw [hcontent] at hlink
    exact Or.inr ⟨by simp [TarInputContent.kind], (Except.ok.inj hlink).symm⟩

/-- Header and records together give the name. -/
theorem Overrides.path_eq (h : Overrides entry target pending records) :
    (pending.bind PaxMetadata.path).getD (entry.readHeader target).path = entry.name := by
  cases h with
  | none hname _ => simp [TarInputEntry.readHeader, TarInputEntry.header, hname]
  | some _ _ _ =>
    by_cases hlong : entry.longName = true
    · simp [TarInputEntry.overrides, hlong]
    · simp [TarInputEntry.overrides, TarInputEntry.readHeader, TarInputEntry.header, hlong]

/-- And the link target. -/
theorem Overrides.link_eq {link : JsString} (h : Overrides entry (.some link) pending records)
    (hkind : entry.content.kind = .symlink) :
    (pending.bind PaxMetadata.linkpath).getD (entry.readHeader (.some link)).target = link := by
  cases h with
  | none _ htarget => simp [TarInputEntry.readHeader, TarInputEntry.header, htarget, hkind]
  | some _ _ _ =>
    by_cases hlong : longTarget (.some link) = true
    · simp [TarInputEntry.overrides, hlong]
    · simp [TarInputEntry.overrides, TarInputEntry.readHeader, TarInputEntry.header, hlong, hkind]

/-- Records for an entry without a link target have none. -/
theorem Overrides.no_link (h : Overrides entry .none pending records) :
    pending.bind PaxMetadata.linkpath = .none := by
  cases h with
  | none _ _ => rfl
  | some _ _ _ => simp [TarInputEntry.overrides, longTarget]

/-- A written header, with its records, opens the entry that was written. -/
theorem Writable.opens (h : Writable options entry target)
    (hrecords : Overrides entry target pending records) (hslash : entry.slashed = false) :
    ∃ out, Opens options pending (entry.readHeader target) out ∧
      ReadBack entry ⟨out, entry.bytes⟩ := by
  obtain ⟨name, htext, hname⟩ := h.name_eq hslash
  have hmode := h.header.mode
  have hmode' : ((entry.mode.toNat : Nat) : Int) = entry.mode := Int.toNat_of_nonneg hmode.1
  have hsize : ((entry.size.toNat : Nat) : Int) = entry.size := Int.toNat_of_nonneg h.size.1
  have hpath := hrecords.path_eq
  rw [← hpath] at hname
  obtain ⟨link, hcontent, rfl⟩ | ⟨hkind, rfl⟩ := h.target_eq
  · have hkind : (entry.readHeader (some link.text)).kind = .symlink := by
      show entry.content.kind = .symlink
      rw [hcontent]
      rfl
    refine ⟨⟨name, entry.size.toNat, entry.mode.toNat, .symlink link⟩, ⟨hname, rfl, rfl, ?_, ?_⟩,
      ⟨htext, hsize, hmode', hcontent.symm, rfl⟩⟩
    · exact fun hne => absurd hkind hne
    · rw [hkind, hrecords.link_eq hkind]
      exact ⟨h.preserve hkind, link, by simp [symlinkTarget], rfl⟩
  · cases hcontent : entry.content with
    | symlink text => exact absurd (by rw [hcontent]; rfl) hkind
    | file =>
      have hfile : (entry.readHeader none).kind = .file := by
        show entry.content.kind = .file
        rw [hcontent]
        rfl
      refine ⟨⟨name, entry.size.toNat, entry.mode.toNat, .file⟩,
        ⟨hname, rfl, rfl, fun _ => hrecords.no_link, ?_⟩,
        ⟨htext, hsize, hmode', hcontent.symm, rfl⟩⟩
      rw [hfile]
    | directory =>
      have hdirectory : (entry.readHeader none).kind = .directory := by
        show entry.content.kind = .directory
        rw [hcontent]
        rfl
      refine ⟨⟨name, entry.size.toNat, entry.mode.toNat, .directory⟩,
        ⟨hname, rfl, rfl, fun _ => hrecords.no_link, ?_⟩,
        ⟨htext, hsize, hmode', hcontent.symm, rfl⟩⟩
      rw [hdirectory]

/-- A checked link target holds no zero unit. -/
theorem zero_not_mem_target (link : SandboxSymlinkTarget) : (0 : UInt16) ∉ link.text := by
  intro hzero
  have hvalid := link.valid
  simp only [symlinkTargetSchema, Bool.and_eq_true, Bool.not_eq_true', List.any_eq_false] at hvalid
  exact hvalid.1.1.2 0 hzero (by decide)

/-- The written header block of an accepted entry is read back. -/
theorem Writable.parseHeader_header (h : Writable options entry target)
    (hformed : wellFormed entry.path = true) (hslash : entry.slashed = false) :
    parseHeader (headerBlock (entry.header target)) = .ok (entry.readHeader target) := by
  obtain ⟨name, htext, -⟩ := h.name_eq hslash
  have hpathZero : (0 : UInt16) ∉ entry.path := by
    intro hzero
    rw [← htext] at hzero
    exact absurd (name.not_unsafe hzero) (by decide)
  have hname : wellFormed entry.name = true ∧ (0 : UInt16) ∉ entry.name := by
    unfold TarInputEntry.name
    split
    · refine ⟨wellFormed_append _ _ hformed (by decide), ?_⟩
      rw [List.mem_append, not_or]
      exact ⟨hpathZero, by decide⟩
    · exact ⟨hformed, hpathZero⟩
  have hpath : wellFormed (entry.header target).path = true ∧
      (0 : UInt16) ∉ (entry.header target).path := by
    unfold TarInputEntry.header
    dsimp only
    split
    · split <;> exact ⟨by decide, by decide⟩
    · exact hname
  have hlink : wellFormed ((entry.header target).target.getD []) = true ∧
      (0 : UInt16) ∉ (entry.header target).target.getD [] := by
    unfold TarInputEntry.header
    dsimp only
    split
    · exact ⟨rfl, by simp⟩
    · obtain ⟨link, -, rfl⟩ | ⟨-, rfl⟩ := h.target_eq
      · exact ⟨link.text_wellFormed, zero_not_mem_target link⟩
      · exact ⟨rfl, by simp⟩
  refine h.header.parseHeader_headerBlock hpath.1 hpath.2 hlink.1 hlink.2 fun hkind => ?_
  refine (h.no_payload fun hfile => ?_).1
  have hkind' : entry.content.kind = .directory ∨ entry.content.kind = .symlink := hkind
  rw [hfile] at hkind'
  simp at hkind'

/-- What the records of an entry hold is well formed. -/
theorem Writable.overrides_wellFormed (h : Writable options entry target)
    (hformed : wellFormed entry.path = true) :
    (∀ path ∈ (entry.overrides target).path, wellFormed path = true) ∧
      ∀ linkpath ∈ (entry.overrides target).linkpath, wellFormed linkpath = true := by
  have hname : wellFormed entry.name = true := by
    unfold TarInputEntry.name
    split
    · exact wellFormed_append _ _ hformed (by decide)
    · exact hformed
  constructor
  · intro path hpath
    simp only [TarInputEntry.overrides, Option.mem_def, Option.ite_none_right_eq_some,
      Option.some.injEq] at hpath
    rw [← hpath.2]
    exact hname
  · intro linkpath hlink
    simp only [TarInputEntry.overrides, Option.mem_def, Option.ite_none_right_eq_some] at hlink
    obtain ⟨link, -, rfl⟩ | ⟨-, rfl⟩ := h.target_eq
    · rw [← Option.some.inj hlink.2]
      exact link.text_wellFormed
    · exact absurd hlink.2 (by simp)

/-- A record takes at least a byte. -/
theorem encodePax_ne_nil {overrides : PaxMetadata}
    (h : overrides.path ≠ none ∨ overrides.linkpath ≠ none) : (encodePax overrides).length ≠ 0 := by
  have hrecord : ∀ key value, (record key value).length ≠ 0 := by
    intro key value
    have hdigits := digitCount_pos (recordSize (utf8Length (recordPayload key value)))
    rw [record, List.length_append]
    unfold digitCount at hdigits
    omega
  have hlength := length_le_utf8Length ((overrides.path.map (record (js "path"))).getD [] ++
    (overrides.linkpath.map (record (js "linkpath"))).getD [])
  rw [List.length_append] at hlength
  rw [encodePax, Utf8.length_encode]
  rcases h with hpath | hlink
  · obtain ⟨path, hpath⟩ := Option.ne_none_iff_exists'.1 hpath
    have hfirst := hrecord (js "path") path
    simp only [hpath, Option.map_some, Option.getD_some] at hlength ⊢
    omega
  · obtain ⟨link, hlink⟩ := Option.ne_none_iff_exists'.1 hlink
    have hsecond := hrecord (js "linkpath") link
    simp only [hlink, Option.map_some, Option.getD_some] at hlength ⊢
    omega

/-! ### A whole archive -/

/-- The records and the block of one entry in front of an archive. -/
theorem Writable.archive (h : Writable options entry target)
    (hrecords : Overrides entry target pending records) (hformed : wellFormed entry.path = true)
    (hslash : entry.slashed = false) (hlength : entry.size = entry.bytes.length)
    {delivered : List Delivered} (hrest : Archive options none rest delivered) :
    ∃ out, ReadBack entry ⟨out, entry.bytes⟩ ∧ Archive options none
      (records ++ (headerBlock (entry.header target) ++ (entry.bytes ++
        (List.replicate (padding entry.bytes.length) 0 ++ rest))))
      (⟨out, entry.bytes⟩ :: delivered) := by
  obtain ⟨out, hopens, hsame⟩ := h.opens hrecords hslash
  refine ⟨out, hsame, ?_⟩
  have hheader := h.parseHeader_header hformed hslash
  have hsize : entry.bytes.length = (entry.readHeader target).size := by
    show entry.bytes.length = entry.size.toNat
    omega
  have hentry := Archive.entry h.header.length_headerBlock hheader hopens hsize hrest
  rw [← hsize] at hentry
  cases hrecords with
  | none _ _ =>
    rw [List.nil_append]
    exact hentry
  | some hlong hbound hpax =>
    obtain ⟨hpath, hlinkpath⟩ := h.overrides_wellFormed hformed
    have hread := hpax.parseHeader_headerBlock (show wellFormed (js "PaxHeader") = true by decide)
      (show (0 : UInt16) ∉ js "PaxHeader" by decide) rfl (show (0 : UInt16) ∉ [] by simp)
      (by rintro (hkind | hkind) <;> cases hkind)
    have hpadding : (entry.paxHeader (entry.overrides target)).size.toNat =
        (encodePax (entry.overrides target)).length := Int.toNat_natCast _
    have hnonempty : (encodePax (entry.overrides target)).length ≠ 0 := by
      refine encodePax_ne_nil ?_
      rcases hlong with hname | htarget
      · exact Or.inl (by simp [TarInputEntry.overrides, hname])
      · refine Or.inr ?_
        cases target with
        | none => cases htarget
        | some link => simp [TarInputEntry.overrides, htarget]
    have harchive := Archive.pax hpax.length_headerBlock hread rfl hnonempty hbound rfl
      (parsePax_encodePax hpath hlinkpath hbound) hentry
    simpa only [List.append_assoc, hpadding] using harchive

/-- The bytes of accepted entries are an archive of them. -/
theorem Entries.archive {bytes : Bytes} (h : Entries options entries bytes)
    (hformed : ∀ entry ∈ entries, wellFormed entry.path = true)
    (hslash : ∀ entry ∈ entries, entry.slashed = false) :
    ∃ delivered, List.Forall₂ ReadBack entries delivered ∧
      Archive options none (bytes ++ List.replicate (2 * blockBytes) 0) delivered := by
  induction h with
  | nil =>
    have htrailer : Archive options none (List.replicate (2 * blockBytes) 0) [] :=
      .trailer (Nat.le_refl 2) (by decide)
    refine ⟨[], .nil, ?_⟩
    rw [List.nil_append]
    exact htrailer
  | cons hwritable hrecords hlength _ ih =>
    rw [List.forall_mem_cons] at hformed hslash
    obtain ⟨delivered, hsame, harchive⟩ := ih hformed.2 hslash.2
    obtain ⟨out, hfirst, hall⟩ :=
      hwritable.archive hrecords hformed.1 hslash.1 hlength harchive
    refine ⟨_, .cons hfirst hsame, ?_⟩
    simpa only [List.append_assoc] using hall

/-- The counts of an archive are those of the entries. -/
theorem total_of_same {delivered : List Delivered} (h : List.Forall₂ ReadBack entries delivered)
    (state : σ) (source : List Bytes) (bytes : Nat) :
    (Session.start state source).total delivered bytes = summaryOf entries bytes := by
  have hkind : ∀ kind, kind ≠ EntryKind.pax → delivered.countP (Delivered.isKind kind) =
      entries.countP fun entry => entry.content.kind == kind := by
    intro kind hkind
    induction h with
    | nil => rfl
    | @cons entry out entries delivered hsame _ ih =>
      rw [List.countP_cons, List.countP_cons, ih]
      congr 2
      have hcontent := hsame.content
      unfold Delivered.isKind
      rw [← hcontent]
      cases out.entry.content <;> cases kind <;> rfl
  have hbodies : (delivered.map fun out => out.body.length).sum =
      (entries.map fun entry => entry.bytes.length).sum := by
    clear hkind
    induction h with
    | nil => rfl
    | cons hsame _ ih =>
      rw [List.map_cons, List.map_cons, List.sum_cons, List.sum_cons, ih, hsame.body]
  unfold Session.total summaryOf
  rw [hkind _ (by decide), hkind _ (by decide), hkind _ (by decide), hbodies]
  simp [Session.start]

/-- A delivered path never ends in a slash. -/
theorem RoundTrip.not_slashed {remember : σ → TarOutputEntry → Bytes → σ} {state : σ}
    {source : List Bytes} (h : RoundTrip options entries remember state source) :
    ∀ entry ∈ entries, entry.slashed = false := by
  obtain ⟨log, -, hsame⟩ := h
  intro entry hentry
  obtain ⟨delivery, -, hpath⟩ : ∃ delivery ∈ log, ReadBack entry delivery.whole := by
    induction hsame with
    | nil => cases hentry
    | cons hfirst _ ih =>
      rcases List.mem_cons.1 hentry with rfl | hlater
      · exact ⟨_, List.mem_cons_self, hfirst⟩
      · obtain ⟨delivery, hmem, hrest⟩ := ih hlater
        exact ⟨delivery, List.mem_cons_of_mem _ hmem, hrest⟩
  unfold TarInputEntry.slashed
  rw [← hpath.path, ArchiveName.not_endsWithSlash, Bool.and_false]

/-- **What is written is read back.**  Of an archive of accepted entries, however its
bytes are cut into chunks, a reader that drains every entry delivers the same entries
in the same order, with a summary that counts them and every byte of the archive: this
is so exactly when no directory's path ends in a slash. -/
theorem written_is_read_back {source : List Bytes} (hchunk : 512 ≤ options.chunkBytes)
    (hwritten : (writeTar options entries).2 = .ok ())
    (hformed : ∀ entry ∈ entries, wellFormed entry.path = true)
    (hbytes : source.flatten = (writeTar options entries).1.flatten)
    (hpieces : ∀ piece ∈ source, piece.length ≤ options.chunkBytes)
    (remember : σ → TarOutputEntry → Bytes → σ) (state : σ) :
    RoundTrip options entries remember state source ↔
      ∀ entry ∈ entries, entry.slashed = false := by
  refine ⟨RoundTrip.not_slashed, fun hslash => ?_⟩
  have hbuffer : 0 < options.chunkBytes := by omega
  obtain ⟨bytes, hentries, hall, hquota⟩ := writeTar_ok hbuffer hwritten
  obtain ⟨delivered, hsame, harchive⟩ := hentries.archive hformed hslash
  rw [← hall, ← hbytes] at harchive
  rw [← hbytes] at hquota
  have hat := At.start hpieces hquota
  obtain ⟨s, log, hrun, hlog, hwhole⟩ := harchive.readLoop remember hbuffer
    (s := Session.start state source) hat rfl (Nat.lt_succ_self _)
  refine ⟨log, ?_, ?_⟩
  · have hstart : s.log = log := hlog
    unfold readTar
    rw [hrun, total_of_same hsame, Nat.zero_add, ← hstart]
  · rw [← hwhole, List.forall₂_map_right_iff] at hsame
    exact hsame

namespace RoundTripSample

def sampleOptions : TarOptions := ⟨512, none, .input_limit, true⟩

def directory (path : JsString) : TarInputEntry := ⟨path, 0, 0o755, 0, 0, .directory, none⟩

def file : TarInputEntry := ⟨js "a/b", 3, 0o644, 0, 0, .file, some [[1], [2, 3]]⟩

/-- Remember what was received. -/
def remember (received : List (JsString × Bytes)) (entry : TarOutputEntry) (body : Bytes) :
    List (JsString × Bytes) := received ++ [(entry.path.text, body)]

end RoundTripSample

open RoundTripSample

/-- A directory and a file in it are read back. -/
theorem sample_is_read_back : RoundTrip sampleOptions [directory (js "a"), file] remember []
    (writeTar sampleOptions [directory (js "a"), file]).1 :=
  (written_is_read_back (by decide) (by decide +kernel) (by decide) rfl (by decide +kernel)
    remember []).2 (by decide)

/-- A directory whose path ends in a slash is written, and what is written is refused. -/
theorem slashed_directory_is_refused :
    (writeTar sampleOptions [directory (js "a/")]).2 = .ok () ∧
      (readTar sampleOptions (recording remember) []
        (writeTar sampleOptions [directory (js "a/")]).1).2 =
          .error (archiveError "entry names must be bounded canonical relative paths.") ∧
      ¬RoundTrip sampleOptions [directory (js "a/")] remember []
        (writeTar sampleOptions [directory (js "a/")]).1 := by
  refine ⟨by decide +kernel, by decide +kernel, fun h => ?_⟩
  have hslashed := h.not_slashed _ List.mem_cons_self
  exact absurd hslashed (by decide)

end AgentSdk.Tar
