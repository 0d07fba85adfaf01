import AgentSdk.Lib.Json
import AgentSdk.Lib.Sha256
import AgentSdk.Lib.Outcome

/-!
# Recovery records

The evidence that a sandbox persists about the resources it may own: their
roles, names and identities, and the daemon that was verified.  Records enter as
typed data, so the literal format and unknown properties have no counterpart
here; every other check of the strict schema is `SandboxRecoveryRecord.admitted`.
-/

namespace AgentSdk.Journal

open AgentSdk.Text AgentSdk.Outcome

/-! ## Scalars -/

def MAX_SAFE_INTEGER : Nat := 9007199254740991

/-- `a` to `f` and decimal digits. -/
def isLowerHex (u : UInt16) : Bool :=
  isDigit u || (decide (97 ≤ u.toNat) && decide (u.toNat ≤ 102))

/-- A string matches a list of character classes, unit by unit. -/
def matchesClasses (classes : List (UInt16 → Bool)) (value : JsString) : Bool :=
  classes.length == value.length && (classes.zip value).all fun pair => pair.1 pair.2

/-- `sha256:` and 64 lower-case hexadecimal digits. -/
def isDigest (value : JsString) : Bool :=
  (js "sha256:").isPrefixOf value && (value.drop 7).length == 64 && (value.drop 7).all isLowerHex

/-- Control characters below U+0020, space, delete and both separators. -/
def isUnsafe (u : UInt16) : Bool :=
  decide (u.toNat ≤ 0x20) || u == 0x7F || u == 47 || u == 92

def utf8Within (value : JsString) (maximum : Nat) : Bool :=
  wellFormed value && decide (utf8Length value ≤ maximum)

def safeIdentity (value : JsString) (maximum : Nat) : Bool :=
  decide (0 < value.length) && utf8Within value maximum && value.all fun u => !isUnsafe u

namespace SANDBOX_LIMITS

def maxRecoveryBytes : Nat := 64 * 1024

def maxIdentityBytes : Nat := 256

def maxNamespaceBytes : Nat := 64

end SANDBOX_LIMITS

def isIdentity (value : JsString) : Bool := safeIdentity value SANDBOX_LIMITS.maxIdentityBytes

def isNamespace (value : JsString) : Bool := safeIdentity value SANDBOX_LIMITS.maxNamespaceBytes

/-! ## Refusals -/

/-- How a planner refuses: with a plan of kind `rejected`, or by throwing a
`SandboxValidationError`, whose one issue has a message or whose issues are those
of a schema. -/
inductive Refusal
  | rejected (reason : String)
  | invalid (message : String)
  | issues
  deriving DecidableEq, Repr

/-! ## Records -/

inductive ResourceRole
  | compute | storage | export_ | network | egress_socket | egress_broker | egress_relay
  | filesystem | route_observer
  deriving DecidableEq, Repr

def ResourceRole.all : List ResourceRole :=
  [.compute, .storage, .export_, .network, .egress_socket, .egress_broker, .egress_relay,
    .filesystem, .route_observer]

def ResourceRole.word : ResourceRole → String
  | .compute => "compute"
  | .storage => "storage"
  | .export_ => "export"
  | .network => "network"
  | .egress_socket => "egress_socket"
  | .egress_broker => "egress_broker"
  | .egress_relay => "egress_relay"
  | .filesystem => "filesystem"
  | .route_observer => "route_observer"

/-- The place of a role among the words of all roles in ascending order. -/
def ResourceRole.rank : ResourceRole → Nat
  | .compute => 0
  | .egress_broker => 1
  | .egress_relay => 2
  | .egress_socket => 3
  | .export_ => 4
  | .filesystem => 5
  | .network => 6
  | .route_observer => 7
  | .storage => 8

inductive SandboxRecoveryPhase
  | reserved | starting | running | stopping | stopped | destroying | destroyed | uncertain
  deriving DecidableEq, Repr

def SandboxRecoveryPhase.word : SandboxRecoveryPhase → String
  | .reserved => "reserved"
  | .starting => "starting"
  | .running => "running"
  | .stopping => "stopping"
  | .stopped => "stopped"
  | .destroying => "destroying"
  | .destroyed => "destroyed"
  | .uncertain => "uncertain"

inductive SandboxResourceIdentity
  | planned
  | creating
  | identified (id fingerprint : JsString)
  deriving DecidableEq, Repr

structure SandboxRecoveryResource where
  role : ResourceRole
  name : JsString
  identity : SandboxResourceIdentity
  deriving DecidableEq, Repr

inductive SandboxRecoveryAuthority
  | unverified
  | verified (backendIdentity : JsString)
  deriving DecidableEq, Repr

structure SandboxRecoveryRecord where
  backendId : JsString
  backendRevision : JsString
  namespace_ : JsString
  operationId : JsString
  sandboxId : JsString
  imageDigest : JsString
  policyDigest : JsString
  configurationDigest : JsString
  phase : SandboxRecoveryPhase
  authority : SandboxRecoveryAuthority
  resources : List SandboxRecoveryResource
  deriving DecidableEq, Repr

namespace SandboxResourceIdentity

def isIdentified : SandboxResourceIdentity → Bool
  | .identified _ _ => true
  | _ => false

/-- The identity that a resource was found to have. -/
def id? : SandboxResourceIdentity → Option JsString
  | .identified id _ => some id
  | _ => none

@[simp] theorem isIdentified_identified (id fingerprint : JsString) :
    (identified id fingerprint).isIdentified = true := rfl

theorem isIdentified_iff {identity : SandboxResourceIdentity} :
    identity.isIdentified = true ↔ ∃ id fingerprint, identity = .identified id fingerprint := by
  cases identity <;> simp [isIdentified]

theorem id?_eq_some {identity : SandboxResourceIdentity} {id : JsString} :
    identity.id? = some id ↔ ∃ fingerprint, identity = .identified id fingerprint := by
  cases identity <;> simp [id?]

end SandboxResourceIdentity

/-- `record.resources.find`. -/
def SandboxRecoveryRecord.resource? (record : SandboxRecoveryRecord) (role : ResourceRole) :
    Option SandboxRecoveryResource :=
  record.resources.find? fun resource => decide (resource.role = role)

theorem SandboxRecoveryRecord.resource?_spec {record : SandboxRecoveryRecord} {role : ResourceRole}
    {resource : SandboxRecoveryResource} (h : record.resource? role = some resource) :
    resource ∈ record.resources ∧ resource.role = role :=
  ⟨List.mem_of_find?_eq_some h, by simpa using List.find?_some h⟩

/-! ## Text -/

/-- One member of a JSON object. -/
def field (key : String) (value : Json) : JsString × Json := (js key, value)

def word (value : String) : Json := .str (js value)

def kindJson (kind : String) (rest : List (JsString × Json)) : Json :=
  .obj (field "kind" (word kind) :: rest)

def SandboxResourceIdentity.json : SandboxResourceIdentity → Json
  | .planned => kindJson "planned" []
  | .creating => kindJson "creating" []
  | .identified id fingerprint =>
    kindJson "identified" [field "id" (.str id), field "fingerprint" (.str fingerprint)]

def SandboxRecoveryResource.json (resource : SandboxRecoveryResource) : Json :=
  .obj [field "role" (word resource.role.word), field "name" (.str resource.name),
    field "identity" resource.identity.json]

def SandboxRecoveryAuthority.json : SandboxRecoveryAuthority → Json
  | .unverified => kindJson "unverified" []
  | .verified backendIdentity =>
    kindJson "verified" [field "backendIdentity" (.str backendIdentity)]

/-- `canonicalRecord`: the members of a record in their fixed order. -/
def SandboxRecoveryRecord.json (record : SandboxRecoveryRecord) : Json :=
  .obj [field "format" (word "agenai.sandbox-recovery.v3"),
    field "backendId" (.str record.backendId),
    field "backendRevision" (.str record.backendRevision),
    field "namespace" (.str record.namespace_),
    field "operationId" (.str record.operationId),
    field "sandboxId" (.str record.sandboxId),
    field "imageDigest" (.str record.imageDigest),
    field "policyDigest" (.str record.policyDigest),
    field "configurationDigest" (.str record.configurationDigest),
    field "phase" (word record.phase.word),
    field "authority" record.authority.json,
    field "resources" (.arr (record.resources.map SandboxRecoveryResource.json))]

/-! ## Admission -/

def SandboxResourceIdentity.admitted : SandboxResourceIdentity → Bool
  | .planned => true
  | .creating => true
  | .identified id fingerprint => isIdentity id && isDigest fingerprint

def SandboxRecoveryResource.admitted (resource : SandboxRecoveryResource) : Bool :=
  isIdentity resource.name && resource.identity.admitted

def SandboxRecoveryAuthority.admitted : SandboxRecoveryAuthority → Bool
  | .unverified => true
  | .verified backendIdentity => isIdentity backendIdentity

/-- The recovery schema with its three refinements. -/
def SandboxRecoveryRecord.admitted (record : SandboxRecoveryRecord) : Bool :=
  isIdentity record.backendId && isIdentity record.backendRevision &&
    isNamespace record.namespace_ && isIdentity record.operationId &&
    isIdentity record.sandboxId && isDigest record.imageDigest &&
    isDigest record.policyDigest && isDigest record.configurationDigest &&
    record.authority.admitted && record.resources.all SandboxRecoveryResource.admitted &&
    decide (1 ≤ record.resources.length ∧ record.resources.length ≤ 9) &&
    decide (record.resources.map SandboxRecoveryResource.role).Nodup &&
    decide (record.resources.map SandboxRecoveryResource.name).Nodup &&
    (record.authority != .unverified ||
      (record.phase == .reserved &&
        record.resources.all fun resource => resource.identity == .planned))

def parseSandboxRecoveryRecord (record : SandboxRecoveryRecord) :
    Except Refusal SandboxRecoveryRecord := do
  failIf (SANDBOX_LIMITS.maxRecoveryBytes < Json.jsonBytes record.json)
    (.invalid "Recovery record exceeds its serialized UTF-8 bound")
  failIf (record.admitted = false) .issues
  pure record

theorem parseSandboxRecoveryRecord_eq_ok {record parsed : SandboxRecoveryRecord}
    (h : parseSandboxRecoveryRecord record = .ok parsed) :
    record.admitted = true ∧ parsed = record := by
  unfold parseSandboxRecoveryRecord at h
  obtain ⟨-, h⟩ := failIf_bind_eq_ok.1 h
  obtain ⟨hadmitted, h⟩ := failIf_bind_eq_ok.1 h
  exact ⟨by simpa using hadmitted, (Except.ok.inj h).symm⟩

end AgentSdk.Journal
