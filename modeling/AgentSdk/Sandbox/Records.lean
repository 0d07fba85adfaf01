import AgentSdk.Lib.ByteFile
import AgentSdk.Lib.Outcome
import AgentSdk.Sandbox.Paths

/-!
# Metadata records

Records of files, directories and symbolic links, and their spill encoding:
keys are UTF-8 paths whose separators are NUL bytes, so that keys in byte order
are paths in component order.

## Main results

* `decodeRecord_encodeRecord` — a record is read back from its encoding.
* `key_lt` — keys are ordered as the components of their paths.
* `isDescendant_encodeRecord` — descendants are proper component extensions.
-/

namespace AgentSdk.Sandbox

open AgentSdk.Text

/-! ### Joined text -/

theorem encode_join {z : UInt16} (hz : isSurrogate z = false) {segments : List JsString}
    (hsegments : ∀ s ∈ segments, wellFormed s = true) :
    Utf8.encode ([z].intercalate segments) =
      (Utf8.unitBytes z).intercalate (segments.map Utf8.encode) := by
  induction segments with
  | nil => rfl
  | cons s rest ih =>
    cases rest with
    | nil => simp
    | cons t rest =>
      have htail := ih fun u hu => hsegments u (by simp [hu])
      rw [List.intercalate_cons_cons, List.append_assoc,
        Utf8.encode_append (hsegments s (by simp)), List.singleton_append,
        Utf8.encode_cons_of_not_surrogate hz, htail]
      simp

theorem wellFormed_join {z : UInt16} (hz : isSurrogate z = false) {segments : List JsString}
    (hsegments : ∀ s ∈ segments, wellFormed s = true) :
    wellFormed ([z].intercalate segments) = true := by
  induction segments with
  | nil => rfl
  | cons s rest ih =>
    have hs := hsegments s (by simp)
    cases rest with
    | nil => simpa using hs
    | cons t rest =>
      have htail := ih fun u hu => hsegments u (by simp [hu])
      rw [List.intercalate_cons_cons, List.append_assoc]
      refine wellFormed_append _ _ hs (wellFormed_append _ _ ?_ htail)
      simpa [wellFormed] using hz

/-- Replacing the separator of parts that do not hold it. -/
theorem map_join {α : Type} [DecidableEq α] {z w : α} {parts : List (List α)}
    (hparts : ∀ p ∈ parts, z ∉ p) :
    ([z].intercalate parts).map (fun a => if a = z then w else a) = [w].intercalate parts := by
  have hkeep : ∀ p ∈ parts, p.map (fun a => if a = z then w else a) = p := by
    intro p hp
    refine (List.map_congr_left fun a ha => ?_).trans (List.map_id p)
    refine if_neg ?_
    rintro rfl
    exact hparts p hp ha
  induction parts with
  | nil => rfl
  | cons p rest ih =>
    have hp := hkeep p (by simp)
    cases rest with
    | nil => simpa using hp
    | cons q rest =>
      have htail := ih (fun u hu => hparts u (by simp [hu])) fun u hu => hkeep u (by simp [hu])
      rw [List.intercalate_cons_cons, List.intercalate_cons_cons, List.map_append,
        List.map_append, hp, htail]
      simp

/-! ### Records -/

inductive RecordKind where
  | file
  | directory
  | symlink
  deriving DecidableEq, Repr

inductive MetadataRecord where
  | file (path : SandboxRelativePath)
  | directory (path : SandboxRelativePath)
  | symlink (path : SandboxRelativePath) (target : SandboxSymlinkTarget)
  deriving DecidableEq

namespace MetadataRecord

def path : MetadataRecord → SandboxRelativePath
  | file path => path
  | directory path => path
  | symlink path _ => path

def kind : MetadataRecord → RecordKind
  | file _ => .file
  | directory _ => .directory
  | symlink _ _ => .symlink

end MetadataRecord

def recordHeaderBytes : Nat := 9

def descriptorBytes : Nat := 16

def maxRecordBytes : Nat := Limits.minMetadataBatchBytes

structure EncodedRecord where
  kind : RecordKind
  key : Bytes
  target : Bytes
  deriving DecidableEq

def encodeRecord (record : MetadataRecord) : EncodedRecord :=
  { kind := record.kind
    -- NUL sorts a completed component before every valid byte in the next component.
    key := (Utf8.encode record.path.text).map fun b => if b = 47 then 0 else b
    target :=
      match record with
      | .symlink _ target => Utf8.encode target.text
      | _ => [] }

def decodeRecord (record : EncodedRecord) : Except SandboxError MetadataRecord :=
  match Utf8.decode record.key with
  | none => .error (.spill (js "Spill path encoding is invalid."))
  | some encoded =>
    if record.key.contains 47 ∨ Utf8.encode encoded ≠ record.key then
      .error (.spill (js "Spill path encoding is invalid."))
    else do
      let path ← parseSandboxRelativePath (encoded.map fun u => if u = 0 then slash else u)
      match record.kind with
      | .symlink =>
        match Utf8.decode record.target with
        | none => .error (.spill (js "Spill target encoding is invalid."))
        | some text =>
          if Utf8.encode text ≠ record.target then
            .error (.spill (js "Spill target encoding is invalid."))
          else do
            let target ← parseSandboxSymlinkTarget text
            .ok (.symlink path target)
      | kind =>
        if record.target.length ≠ 0 then
          .error (.spill (js "Non-link spill metadata cannot carry a target."))
        else if kind = .file then .ok (.file path) else .ok (.directory path)

/-- The byte order of two buffers. -/
def bufferCompare : Bytes → Bytes → Ordering
  | [], [] => .eq
  | [], _ :: _ => .lt
  | _ :: _, [] => .gt
  | a :: s, b :: t => if a < b then .lt else if b < a then .gt else bufferCompare s t

def compareRecords (left right : EncodedRecord) : Ordering := bufferCompare left.key right.key

def isDescendant (record ancestor : EncodedRecord) : Bool :=
  decide (ancestor.key.length < record.key.length) &&
    record.key[ancestor.key.length]? == some 0 &&
    record.key.take ancestor.key.length == ancestor.key

def kindByte : RecordKind → UInt8
  | .file => 1
  | .directory => 2
  | .symlink => 3

def recordHeader (record : EncodedRecord) : Bytes :=
  toBe 4 record.key.length ++ toBe 4 record.target.length ++ [kindByte record.kind]

/-! ### Keys -/

/-- The components of a path as bytes. -/
def components (path : SandboxRelativePath) : List Bytes := path.segments.map Utf8.encode

theorem components_ne_nil (path : SandboxRelativePath) : components path ≠ [] := by
  simp [components, path.segments_ne_nil]

/-- A component holds no byte below the space, so neither NUL nor a slash. -/
theorem component_bytes {path : SandboxRelativePath} {c : Bytes} (hc : c ∈ components path)
    {b : UInt8} (hb : b ∈ c) : 0 < b ∧ b ≠ 47 := by
  obtain ⟨segment, hsegment, rfl⟩ := List.mem_map.1 hc
  have hfrom : b.toNat < 0x80 → ∃ u ∈ segment, u.toNat = b.toNat := Utf8.mem_of_mem_encode hb
  constructor
  · rw [UInt8.pos_iff_ne_zero]
    rintro rfl
    obtain ⟨u, hu, hzero⟩ := hfrom (by decide)
    have hsafe := path.not_unsafe (Joined.mem_of_mem_splitOn hsegment hu)
    have hlow : u.toNat < 0x20 := by rw [hzero]; decide
    simp [isUnsafe, hlow] at hsafe
  · rintro rfl
    obtain ⟨u, hu, hslash⟩ := hfrom (by decide)
    refine path.slash_not_mem hsegment ?_
    rwa [show slash = u from UInt16.toNat_inj.1 hslash.symm]

theorem encode_text (path : SandboxRelativePath) :
    Utf8.encode path.text = [47].intercalate (components path) := by
  rw [← path.join_segments, encode_join (by decide) fun _ hs => path.wellFormed_of_mem hs]
  rfl

theorem components_inj {p q : SandboxRelativePath} (h : components p = components q) : p = q := by
  have hbytes : Utf8.encode p.text = Utf8.encode q.text := by
    rw [encode_text, encode_text, h]
  have htext : some p.text = some q.text := by
    rw [← Utf8.decode_encode p.text_wellFormed, ← Utf8.decode_encode q.text_wellFormed, hbytes]
  cases p
  cases q
  simpa using htext

/-- The key of a record joins the components of its path by NUL bytes. -/
theorem key_encodeRecord (record : MetadataRecord) :
    (encodeRecord record).key = [0].intercalate (components record.path) := by
  show (Utf8.encode record.path.text).map _ = _
  rw [encode_text, map_join]
  intro c hc hslash
  exact (component_bytes hc hslash).2 rfl

theorem component_pos {path : SandboxRelativePath} {c : Bytes} (hc : c ∈ components path) :
    ∀ b ∈ c, 0 < b := fun _ hb => (component_bytes hc hb).1

theorem nul_not_mem {path : SandboxRelativePath} {c : Bytes} (hc : c ∈ components path) :
    (0 : UInt8) ∉ c := fun h => absurd (component_pos hc 0 h) (by decide)

/-- Keys are ordered as the components of their paths. -/
theorem key_lt {r s : MetadataRecord} :
    (encodeRecord r).key < (encodeRecord s).key ↔ components r.path < components s.path := by
  rw [key_encodeRecord, key_encodeRecord]
  exact Joined.join_lt (components_ne_nil _) (components_ne_nil _)
    (fun _ hc => component_pos hc) fun _ hc => component_pos hc

theorem key_inj {r s : MetadataRecord} :
    (encodeRecord r).key = (encodeRecord s).key ↔ r.path = s.path := by
  constructor
  · intro h
    rw [key_encodeRecord, key_encodeRecord] at h
    exact components_inj (Joined.join_inj (components_ne_nil _) (components_ne_nil _)
      (fun _ hc => nul_not_mem hc) (fun _ hc => nul_not_mem hc) h)
  · intro h
    rw [key_encodeRecord, key_encodeRecord, h]

/-! ### Order -/

theorem bufferCompare_eq_lt {s t : Bytes} : bufferCompare s t = .lt ↔ s < t := by
  induction s generalizing t with
  | nil => cases t <;> simp [bufferCompare]
  | cons a s ih =>
    cases t with
    | nil => simp [bufferCompare]
    | cons b t =>
      rw [bufferCompare, List.cons_lt_cons_iff]
      split
      · rename_i h
        simp [h]
      · rename_i h
        split
        · rename_i h'
          have hne : a ≠ b := ne_of_gt h'
          simp [h, hne]
        · rename_i h'
          have heq : a = b := le_antisymm (not_lt.1 h') (not_lt.1 h)
          simp [heq, ih]

theorem bufferCompare_eq_eq {s t : Bytes} : bufferCompare s t = .eq ↔ s = t := by
  induction s generalizing t with
  | nil => cases t <;> simp [bufferCompare]
  | cons a s ih =>
    cases t with
    | nil => simp [bufferCompare]
    | cons b t =>
      rw [bufferCompare, List.cons.injEq]
      split
      · rename_i h
        simp [ne_of_lt h]
      · rename_i h
        split
        · rename_i h'
          simp [ne_of_gt h']
        · rename_i h'
          have heq : a = b := le_antisymm (not_lt.1 h') (not_lt.1 h)
          simp [heq, ih]

theorem bufferCompare_eq_gt {s t : Bytes} : bufferCompare s t = .gt ↔ t < s := by
  cases h : bufferCompare s t with
  | lt =>
    have hlt := bufferCompare_eq_lt.1 h
    simpa using le_of_lt hlt
  | eq => simp [bufferCompare_eq_eq.1 h]
  | gt =>
    have hnotLt : ¬s < t := fun hlt => by simp [bufferCompare_eq_lt.2 hlt] at h
    have hne : s ≠ t := fun heq => by simp [bufferCompare_eq_eq.2 heq] at h
    simpa using lt_of_le_of_ne (not_lt.1 hnotLt) (Ne.symm hne)

/-! ### Descendants -/

theorem isDescendant_iff {record ancestor : EncodedRecord} :
    isDescendant record ancestor = true ↔ ancestor.key ++ [0] <+: record.key := by
  simp only [isDescendant, Bool.and_eq_true, decide_eq_true_eq, beq_iff_eq]
  constructor
  · rintro ⟨⟨hlength, hnul⟩, htake⟩
    obtain ⟨_, hnul⟩ := List.getElem?_eq_some_iff.1 hnul
    refine ⟨record.key.drop (ancestor.key.length + 1), ?_⟩
    rw [List.append_assoc, List.singleton_append, ← hnul, ← List.drop_eq_getElem_cons hlength]
    nth_rewrite 1 [← htake]
    exact List.take_append_drop _ _
  · rintro ⟨rest, hrest⟩
    rw [← hrest]
    simp

/-- Descendants are the records of the paths that properly extend a path. -/
theorem isDescendant_encodeRecord {record ancestor : MetadataRecord} :
    isDescendant (encodeRecord record) (encodeRecord ancestor) = true ↔
      components ancestor.path <+: components record.path ∧ ancestor.path ≠ record.path := by
  rw [isDescendant_iff, key_encodeRecord, key_encodeRecord,
    Joined.join_prefix (components_ne_nil _) (components_ne_nil _)
      (fun _ hc => nul_not_mem hc) fun _ hc => nul_not_mem hc]
  exact and_congr_right fun _ => not_congr ⟨components_inj, fun h => by rw [h]⟩

/-! ### Reading a record back -/

/-- A record is read back from its encoding. -/
theorem decodeRecord_encodeRecord (record : MetadataRecord) :
    decodeRecord (encodeRecord record) = .ok record := by
  have hsegments : ∀ s ∈ record.path.segments, wellFormed s = true :=
    fun _ hs => record.path.wellFormed_of_mem hs
  have hkey : (encodeRecord record).key =
      Utf8.encode ([0].intercalate record.path.segments) := by
    rw [key_encodeRecord, encode_join (by decide) hsegments]
    rfl
  have hdecode : Utf8.decode (encodeRecord record).key =
      some ([0].intercalate record.path.segments) := by
    rw [hkey, Utf8.decode_encode (wellFormed_join (by decide) hsegments)]
  have hslash : ¬(encodeRecord record).key.contains 47 = true := by
    show ¬((Utf8.encode record.path.text).map _).contains 47 = true
    simp only [List.contains_eq_mem, List.mem_map, decide_eq_true_eq, not_exists, not_and]
    intro b _
    split <;> simp_all
  have htext : ([0].intercalate record.path.segments).map (fun u => if u = 0 then slash else u) =
      record.path.text := by
    rw [map_join, record.path.join_segments]
    intro segment hsegment hzero
    have hsafe := record.path.not_unsafe (Joined.mem_of_mem_splitOn hsegment hzero)
    exact absurd hsafe (by decide)
  unfold decodeRecord
  rw [hdecode]
  dsimp only
  rw [if_neg (by simp only [not_or, not_not]; exact ⟨hslash, hkey.symm⟩), htext,
    SandboxRelativePath.parse_text, Outcome.ok_bind]
  cases record with
  | file | directory => rfl
  | symlink path target =>
    show (match Utf8.decode (Utf8.encode target.text) with
      | none => _
      | some text => _) = _
    rw [Utf8.decode_encode target.text_wellFormed]
    simp [encodeRecord, MetadataRecord.path]

/-- **Records stand for their paths**: a record is read back from its encoding, and encodings
are ordered and nested as the components of the paths. -/
theorem record_faithful (r s : MetadataRecord) :
    decodeRecord (encodeRecord r) = .ok r ∧
      (compareRecords (encodeRecord r) (encodeRecord s) = .lt ↔
        components r.path < components s.path) ∧
      (isDescendant (encodeRecord r) (encodeRecord s) = true ↔
        components s.path <+: components r.path ∧ s.path ≠ r.path) :=
  ⟨decodeRecord_encodeRecord r, bufferCompare_eq_lt.trans key_lt, isDescendant_encodeRecord⟩

end AgentSdk.Sandbox
