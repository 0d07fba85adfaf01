import AgentSdk.Lib.Joined
import AgentSdk.Lib.Utf8

/-!
# Sandbox paths

Bounded canonical relative paths and raw link targets, and the errors the
sandbox raises.  A path and a target carry the check they passed.
-/

namespace AgentSdk.Sandbox

open AgentSdk.Text

/-! ### Limits -/

namespace Limits

def maxPathBytes : Nat := 4079

def maxPathSegments : Nat := 128

def maxPathSegmentBytes : Nat := 255

def maxSymlinkTargetBytes : Nat := 4079

def minMetadataBatchBytes : Nat := maxPathBytes + maxSymlinkTargetBytes + 9

def maxMetadataBatchBytes : Nat := 4 * 1024 * 1024

def maxMetadataMergeFanIn : Nat := 32

def maxSymlinkExpansions : Nat := 40

def maxSymlinkResolutionComponents : Nat := 256

def maxSymlinkResolutionBytes : Nat := (maxPathBytes + 1) * 2

end Limits

/-! ### Errors -/

/-- The conflicts that a set of paths can have. -/
inductive ConflictCode where
  | duplicate_path
  | file_ancestor
  | symlink_ancestor
  deriving DecidableEq, Repr

/-- The errors of the sandbox: invalid input at a field, a metadata conflict,
a call out of turn, an unusable spill file and a number out of range.  The
loops over spill files count their rounds here; `exhausted` stands for a loop
that has none left, and the results below show that it is not met. -/
inductive SandboxError where
  | validation (field : List JsString) (message : JsString)
  | conflict (code : ConflictCode) (path : JsString)
  | state (message : JsString)
  | spill (message : JsString)
  | range (message : JsString)
  | exhausted
  deriving DecidableEq, Repr

/-! ### Paths -/

def slash : UInt16 := 47

/-- A control character or a backslash. -/
def isUnsafe (u : UInt16) : Bool :=
  u == 0x5C || decide (u.toNat < 0x20) || (decide (0x7F ≤ u.toNat) && decide (u.toNat ≤ 0x9F))

def utf8Within (value : JsString) (maximum : Nat) : Bool :=
  wellFormed value && decide (utf8Length value ≤ maximum)

def safeSegment (segment : JsString) : Bool :=
  decide (0 < segment.length) && segment != js "." && segment != js ".." &&
    utf8Within segment Limits.maxPathSegmentBytes

def safeSegments (path : JsString) : Bool :=
  decide ((path.splitOn slash).length ≤ Limits.maxPathSegments) &&
    (path.splitOn slash).all safeSegment

def safePath (value : JsString) : Bool :=
  decide (0 < value.length) && utf8Within value Limits.maxPathBytes && !value.any isUnsafe

def relativePathSchema (value : JsString) : Bool := safePath value && safeSegments value

def symlinkTargetSchema (value : JsString) : Bool :=
  decide (0 < value.length) && utf8Within value Limits.maxSymlinkTargetBytes &&
    value.head? != some slash && !value.any isUnsafe &&
    decide ((value.splitOn slash).length ≤ Limits.maxPathSegments) &&
    (value.splitOn slash).all fun segment => utf8Within segment Limits.maxPathSegmentBytes

structure SandboxRelativePath where
  text : JsString
  valid : relativePathSchema text = true
  deriving DecidableEq

structure SandboxSymlinkTarget where
  text : JsString
  valid : symlinkTargetSchema text = true
  deriving DecidableEq

def parseSandboxRelativePath (input : JsString) : Except SandboxError SandboxRelativePath :=
  if h : relativePathSchema input = true then .ok ⟨input, h⟩
  else .error (.validation [] (js "Expected a bounded canonical relative file path"))

def parseSandboxSymlinkTarget (input : JsString) : Except SandboxError SandboxSymlinkTarget :=
  if h : symlinkTargetSchema input = true then .ok ⟨input, h⟩
  else .error (.validation [] (js "Expected bounded raw relative symbolic-link target text"))

namespace SandboxRelativePath

variable (path : SandboxRelativePath)

/-- The components of a path. -/
def segments : List JsString := path.text.splitOn slash

@[simp] theorem parse_text : parseSandboxRelativePath path.text = .ok path := by
  simp [parseSandboxRelativePath, path.valid]

theorem segments_ne_nil : path.segments ≠ [] := List.splitOn_ne_nil slash path.text

@[simp] theorem join_segments : [slash].intercalate path.segments = path.text :=
  List.intercalate_splitOn slash

theorem text_pos : 0 < path.text.length := by
  have h := path.valid
  simp only [relativePathSchema, safePath, Bool.and_eq_true, decide_eq_true_eq] at h
  exact h.1.1.1

theorem text_wellFormed : wellFormed path.text = true := by
  have h := path.valid
  simp only [relativePathSchema, safePath, utf8Within, Bool.and_eq_true] at h
  exact h.1.1.2.1

theorem text_bytes : utf8Length path.text ≤ Limits.maxPathBytes := by
  have h := path.valid
  simp only [relativePathSchema, safePath, utf8Within, Bool.and_eq_true, decide_eq_true_eq] at h
  exact h.1.1.2.2

theorem not_unsafe {u : UInt16} (hu : u ∈ path.text) : isUnsafe u = false := by
  have h := path.valid
  simp only [relativePathSchema, safePath, Bool.and_eq_true, Bool.not_eq_true',
    List.any_eq_false] at h
  simpa using h.1.2 u hu

theorem safe_of_mem {segment : JsString} (h : segment ∈ path.segments) :
    safeSegment segment = true := by
  have hv := path.valid
  simp only [relativePathSchema, safeSegments, Bool.and_eq_true, List.all_eq_true] at hv
  exact hv.2.2 segment h

theorem wellFormed_of_mem {segment : JsString} (h : segment ∈ path.segments) :
    wellFormed segment = true := by
  have hsafe := path.safe_of_mem h
  simp only [safeSegment, utf8Within, Bool.and_eq_true] at hsafe
  exact hsafe.2.1

theorem slash_not_mem {segment : JsString} (h : segment ∈ path.segments) : slash ∉ segment :=
  Joined.not_mem_of_mem_splitOn h

end SandboxRelativePath

namespace SandboxSymlinkTarget

variable (target : SandboxSymlinkTarget)

@[simp] theorem parse_text : parseSandboxSymlinkTarget target.text = .ok target := by
  simp [parseSandboxSymlinkTarget, target.valid]

theorem text_pos : 0 < target.text.length := by
  have h := target.valid
  simp only [symlinkTargetSchema, Bool.and_eq_true, decide_eq_true_eq] at h
  exact h.1.1.1.1.1

theorem text_wellFormed : wellFormed target.text = true := by
  have h := target.valid
  simp only [symlinkTargetSchema, utf8Within, Bool.and_eq_true] at h
  exact h.1.1.1.1.2.1

theorem text_bytes : utf8Length target.text ≤ Limits.maxSymlinkTargetBytes := by
  have h := target.valid
  simp only [symlinkTargetSchema, utf8Within, Bool.and_eq_true, decide_eq_true_eq] at h
  exact h.1.1.1.1.2.2

end SandboxSymlinkTarget

end AgentSdk.Sandbox
