import AgentSdk.Lib.Json
import AgentSdk.Lib.Sha256

/-!
# Saved conversations

The records a history source exchanges about mutations, the errors of the
package and the digest that compares records.
-/

namespace AgentSdk.History

open AgentSdk.Text

/-! ## References -/

structure AgentHistorySourceIdentity where
  providerKey : JsString
  sourceId : JsString
  generation : JsString
  deriving DecidableEq

structure AgentHistoryConversationRef where
  source : AgentHistorySourceIdentity
  conversationId : JsString
  deriving DecidableEq

/-! ## Effects -/

inductive EffectScope
  | «local» | remote | local_and_remote | provider_managed
  deriving DecidableEq

inductive EffectDescendants
  | none | subagents | descendants | unknown
  deriving DecidableEq

inductive EffectActive
  | native_rejects | requires_quiescent | unknown
  deriving DecidableEq

inductive EffectAtomicity
  | atomic | non_atomic | unknown
  deriving DecidableEq

structure AgentHistoryMutationEffects where
  scope : EffectScope
  descendants : EffectDescendants
  active : EffectActive
  atomicity : EffectAtomicity
  deriving DecidableEq

inductive AgentHistoryMutationOperation
  | rename | archive | restore | delete
  deriving DecidableEq

/-- The input of a mutation.  The title of a rename goes to the driver only. -/
structure AgentHistoryMutationInput where
  conversation : AgentHistoryConversationRef
  acceptEffects : AgentHistoryMutationEffects
  deriving DecidableEq

/-! ## Errors and results -/

inductive AgentHistoryErrorCode
  | invalid_input | invalid_cursor | wrong_source | not_found | access_denied
  | unsupported_scope | closed | cancelled | deadline_exceeded
  | busy | limit_exhausted | native_failure | cleanup_failed
  deriving DecidableEq

def AgentHistoryErrorCode.name : AgentHistoryErrorCode → String
  | .invalid_input => "invalid_input"
  | .invalid_cursor => "invalid_cursor"
  | .wrong_source => "wrong_source"
  | .not_found => "not_found"
  | .access_denied => "access_denied"
  | .unsupported_scope => "unsupported_scope"
  | .closed => "closed"
  | .cancelled => "cancelled"
  | .deadline_exceeded => "deadline_exceeded"
  | .busy => "busy"
  | .limit_exhausted => "limit_exhausted"
  | .native_failure => "native_failure"
  | .cleanup_failed => "cleanup_failed"

structure AgentHistoryError where
  code : AgentHistoryErrorCode
  message : JsString
  deriving DecidableEq

/-- What a promise rejects with: an error of the package or any other value. -/
inductive Thrown
  | history (error : AgentHistoryError)
  | other
  deriving DecidableEq

structure AgentHistoryMutationReason where
  code : JsString
  message : JsString
  deriving DecidableEq

inductive AgentHistoryMutationResult
  | applied (ref : AgentHistoryConversationRef)
  | not_applied (ref : AgentHistoryConversationRef) (reason : AgentHistoryMutationReason)
  | outcome_unknown (ref : AgentHistoryConversationRef) (reason : AgentHistoryMutationReason)
  deriving DecidableEq

namespace AgentHistoryMutationResult

def ref : AgentHistoryMutationResult → AgentHistoryConversationRef
  | applied ref => ref
  | not_applied ref _ => ref
  | outcome_unknown ref _ => ref

/-- `result.status === 'not_applied'`. -/
def isNotApplied : AgentHistoryMutationResult → Bool
  | not_applied _ _ => true
  | _ => false

/-- `result.status === 'outcome_unknown'`. -/
def isUnknown : AgentHistoryMutationResult → Bool
  | outcome_unknown _ _ => true
  | _ => false

end AgentHistoryMutationResult

/-- `assertSource`: the reference belongs to this source and generation. -/
def assertSource (ref : AgentHistoryConversationRef) (source : AgentHistorySourceIdentity) : Bool :=
  ref.source.providerKey == source.providerKey && ref.source.sourceId == source.sourceId &&
    ref.source.generation == source.generation

/-! ## Digests -/

def EffectScope.name : EffectScope → String
  | .local => "local"
  | .remote => "remote"
  | .local_and_remote => "local_and_remote"
  | .provider_managed => "provider_managed"

def EffectDescendants.name : EffectDescendants → String
  | .none => "none"
  | .subagents => "subagents"
  | .descendants => "descendants"
  | .unknown => "unknown"

def EffectActive.name : EffectActive → String
  | .native_rejects => "native_rejects"
  | .requires_quiescent => "requires_quiescent"
  | .unknown => "unknown"

def EffectAtomicity.name : EffectAtomicity → String
  | .atomic => "atomic"
  | .non_atomic => "non_atomic"
  | .unknown => "unknown"

def AgentHistoryMutationEffects.json (e : AgentHistoryMutationEffects) : Json :=
  .obj [(js "scope", .str (js e.scope.name)), (js "descendants", .str (js e.descendants.name)),
    (js "active", .str (js e.active.name)), (js "atomicity", .str (js e.atomicity.name))]

def AgentHistoryConversationRef.json (r : AgentHistoryConversationRef) : Json :=
  .obj [(js "source", .obj [(js "providerKey", .str r.source.providerKey),
      (js "sourceId", .str r.source.sourceId), (js "generation", .str r.source.generation)]),
    (js "conversationId", .str r.conversationId)]

def AgentHistoryMutationReason.json (r : AgentHistoryMutationReason) : Json :=
  .obj [(js "code", .str r.code), (js "message", .str r.message)]

def AgentHistoryMutationResult.json : AgentHistoryMutationResult → Json
  | applied ref => .obj [(js "status", .str (js "applied")), (js "ref", ref.json)]
  | not_applied ref reason =>
    .obj [(js "status", .str (js "not_applied")), (js "ref", ref.json),
      (js "reason", reason.json)]
  | outcome_unknown ref reason =>
    .obj [(js "status", .str (js "outcome_unknown")), (js "ref", ref.json),
      (js "reason", reason.json)]

/-- `queryDigest`: the digest of the canonical text. -/
def queryDigest (input : Json) : JsString := Sha256.hexDigest (Json.canonicalText input)

end AgentSdk.History
