import AgentSdk.Lib.Stateful
import AgentSdk.Sandbox.Paths

/-!
# Names in a workspace archive

The errors of the archive code, its options, and the bounded canonical names
of archive entries.  A name carries the check it passed.
-/

namespace AgentSdk.Tar

open AgentSdk.Text AgentSdk.Sandbox

/-! ### Errors and options -/

/-- The codes of the operation errors raised here. -/
inductive OperationCode where
  | driver_failure
  | input_limit
  | output_limit
  deriving DecidableEq, Repr

/-- The errors of the archive code.  `thrown` is an error of a callback's own;
`exhausted` stands for a loop that has no round left, which is not met. -/
inductive TarError where
  | operation (code : OperationCode) (message : String)
  | unsupported (message : String)
  | aggregate (primary cleanup : TarError) (message : String)
  | thrown (message : String)
  | exhausted
  deriving DecidableEq, Repr

def archiveError (message : String) : TarError :=
  .operation .driver_failure ("Unsafe workspace archive: " ++ message)

def unsafeArchive {α : Type} (message : String) : Except TarError α := .error (archiveError message)

structure TarOptions where
  chunkBytes : Nat
  maxArchiveBytes : Option Nat
  limitCode : OperationCode
  preserveInternal : Bool

/-- A byte count is above the quota, when there is one. -/
def TarOptions.exceeded (options : TarOptions) (bytes : Nat) : Bool :=
  options.maxArchiveBytes.any fun quota => decide (quota < bytes)

/-! ### Names -/

def archiveWork : JsString := js "workspace/work"

def endsWithSlash (name : JsString) : Bool := name.getLast? == some slash

/-- The check of a name without its trailing slash. -/
def canonicalName (canonical : JsString) : Bool :=
  decide (utf8Length canonical ≤ Limits.maxPathBytes + archiveWork.length + 1) &&
    decide ((canonical.splitOn slash).length ≤ Limits.maxPathSegments + 2) &&
    !canonical.any isUnsafe &&
    (canonical.splitOn slash).all fun part =>
      part != [] && part != js "." && part != js ".." &&
        decide (utf8Length part ≤ Limits.maxPathSegmentBytes)

structure ArchiveName where
  text : JsString
  canonical : canonicalName text = true
  deriving DecidableEq

def archiveName (name : JsString) (directory : Bool) : Except TarError ArchiveName :=
  let canonical := if directory && endsWithSlash name then name.dropLast else name
  if h : canonicalName canonical = true then .ok ⟨canonical, h⟩
  else unsafeArchive "entry names must be bounded canonical relative paths."

def symlinkTarget (target : JsString) : Except TarError SandboxSymlinkTarget :=
  match parseSandboxSymlinkTarget target with
  | .ok target => .ok target
  | .error _ => unsafeArchive "symbolic-link targets require bounded raw relative text."

namespace ArchiveName

variable (name : ArchiveName)

/-- Every component of a name is safe on its own. -/
theorem component_safe {part : JsString} (h : part ∈ name.text.splitOn slash) :
    part ≠ [] ∧ part ≠ js "." ∧ part ≠ js ".." ∧ ∀ u ∈ part, isUnsafe u = false := by
  have hcanonical := name.canonical
  simp only [canonicalName, Bool.and_eq_true, List.all_eq_true, bne_iff_ne, Bool.not_eq_true',
    List.any_eq_false] at hcanonical
  obtain ⟨⟨_, hsafe⟩, hparts⟩ := hcanonical
  obtain ⟨⟨⟨hempty, hdot⟩, hdots⟩, _⟩ := hparts part h
  refine ⟨hempty, hdot, hdots, ?_⟩
  intro u hu
  have hunit := hsafe u (Joined.mem_of_mem_splitOn h hu)
  simpa using hunit

theorem not_unsafe {u : UInt16} (h : u ∈ name.text) : isUnsafe u = false := by
  have hcanonical := name.canonical
  simp only [canonicalName, Bool.and_eq_true, Bool.not_eq_true', List.any_eq_false] at hcanonical
  have hunit := hcanonical.1.2 u h
  simpa using hunit

/-- A name does not end in a slash. -/
theorem not_endsWithSlash : endsWithSlash name.text = false := by
  by_contra hends
  have hlast : name.text.getLast? = some slash := by simpa [endsWithSlash] using hends
  have hsplit : name.text = name.text.dropLast ++ [slash] :=
    (List.dropLast_append_getLast? slash (by simp [hlast])).symm
  have hpart : ([] : JsString) ∈ name.text.splitOn slash := by
    rw [hsplit, Joined.splitOn_snoc]
    simp
  exact (name.component_safe hpart).1 rfl

/-- A name is accepted for every kind of entry. -/
theorem archiveName_text (directory : Bool) : archiveName name.text directory = .ok name := by
  simp [archiveName, name.not_endsWithSlash, name.canonical]

/-- The slash behind a directory's name is dropped. -/
theorem archiveName_slash : archiveName (name.text ++ [slash]) true = .ok name := by
  simp [archiveName, endsWithSlash, name.canonical]

end ArchiveName

theorem archiveName_of_not_endsWithSlash {name : JsString} {directory : Bool}
    {result : ArchiveName} (hends : (directory && endsWithSlash name) = false)
    (h : archiveName name directory = .ok result) : result.text = name := by
  unfold archiveName at h
  simp only [hends, Bool.false_eq_true, if_false] at h
  split at h
  · cases h
    rfl
  · cases h

theorem symlinkTarget_ok {text : JsString} {target : SandboxSymlinkTarget}
    (h : symlinkTarget text = .ok target) : target.text = text := by
  unfold symlinkTarget parseSandboxSymlinkTarget at h
  split at h
  · rename_i parsed hparsed
    split at hparsed
    · cases h
      cases hparsed
      rfl
    · cases hparsed
  · cases h

end AgentSdk.Tar
