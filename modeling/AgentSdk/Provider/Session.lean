import AgentSdk.Lib.Machine
import AgentSdk.Lib.Text
import AgentSdk.Provider.Queue

/-!
# A session with its requests and its reader

One turn of a session at a time is read by one consumer.  Updates, native
requests, notices and the terminal message wait in the queue; the reader takes
them, offers one request at a time and emits outputs.  The peer withdraws
requests, the transport reports when the reply of one is settled, the host and
the canonical side answer, and the native prompt settles once for each turn.

An event is one stretch of the program between two waits.  The outputs of one
stretch of the reader are any number of reservations; what the tool mapping
makes of an update, and the turns of restored plan continuations, are left out.

## Main definitions

* `Request`, `canAnswer`, `release`, `withdraw` — the lifetime of a native request.
* `resolveAcpRequest` — what a canonical resolution does to a request.
* `Session`, `Event`, `step` — the session and its events.
-/

namespace AgentSdk

namespace Provider

open AgentSdk.Text

/-! ## Requests -/

inductive RequestKind where
  | permission
  | form
  deriving DecidableEq

inductive Decision where
  | approved
  | denied
  deriving DecidableEq

/-- The consequence shown with an option: the exact action once, or a remembrance that the
provider manages. -/
inductive Consequence where
  | scoped
  | remembrance (explanation : JsString)
  deriving DecidableEq

structure ApprovalOption where
  optionId : JsString
  label : JsString
  decision : Decision
  consequence : Consequence
  deriving DecidableEq

/-- The options of a mapped permission, with the native identity of each. -/
structure MappedPermission where
  options : List ApprovalOption
  nativeOptions : List (JsString × JsString)
  warning : Bool
  deriving DecidableEq

/-- The reply to a native request. -/
inductive Reply (Content : Type) where
  | canceled (kind : RequestKind)
  | selected (optionId : JsString)
  | form (content : Content)
  | host (content : Content)
  deriving DecidableEq

/-- How the response of a native request was settled. -/
inductive Outcome (Content : Type) where
  | resolved (reply : Reply Content)
  | rejected (error : SessionError)
  deriving DecidableEq

inductive Offered (Flow : Type) where
  | permission (permission : MappedPermission)
  | form (flow : Flow)
  deriving DecidableEq

/-- The canonical request that stands for a native one. -/
structure MappedRequest (Flow : Type) where
  requestId : Nat
  offered : Offered Flow
  deriving DecidableEq

/-- `PendingSessionRequest`; `pending` and `retained` say in which of the sets it is, and `outcomes`
is every settlement of its response. -/
structure Request (Params Flow Content : Type) where
  id : Nat
  turn : Nat
  kind : RequestKind
  params : Params
  host : Bool
  bytes : Nat
  entry : Nat
  mapped : Option (MappedRequest Flow) := none
  hostWork : Bool := false
  answered : Bool := false
  publishedRequestId : Option Nat := none
  unavailable : Bool := false
  aborted : Bool := false
  pending : Bool := true
  retained : Bool := true
  outcomes : List (Outcome Content) := []
  deriving DecidableEq

variable {Params Flow Answers Content : Type}

namespace Request

def canAnswer (r : Request Params Flow Content) : Bool :=
  r.pending && !r.answered && !r.unavailable && !r.aborted

/-- `release` and the settlement that follows it when it succeeds. -/
def release (outcome : Outcome Content) (r : Request Params Flow Content) :
    Request Params Flow Content :=
  if r.pending && !r.answered then
    { r with answered := true, pending := false, outcomes := r.outcomes ++ [outcome] }
  else r

/-- `cancel` -/
def cancel (r : Request Params Flow Content) : Request Params Flow Content :=
  r.release (.resolved (.canceled r.kind))

/-- `answer` -/
def answer (reply : Reply Content) (r : Request Params Flow Content) :
    Request Params Flow Content :=
  if r.canAnswer then r.release (.resolved reply) else r

/-- The request is no longer available, perhaps by its signal. -/
def withdrawn (aborted : Bool) (r : Request Params Flow Content) : Request Params Flow Content :=
  { r with unavailable := true, aborted := r.aborted || aborted }

/-- The canonical request that was published is still the one the request is mapped to. -/
def published (r : Request Params Flow Content) : Option Nat :=
  match r.publishedRequestId, r.mapped with
  | some requestId, some mapped => if requestId = mapped.requestId then some requestId else none
  | _, _ => none

end Request

/-! ## The session -/

inductive Message where
  | update
  | request (id : Nat)
  | unavailable (id requestId : Nat)
  | terminal
  deriving DecidableEq

namespace Message

/-- The messages that are admitted as control. -/
def control : Message → Bool
  | .update | .request _ => false
  | .unavailable _ _ | .terminal => true

def isRequest : Message → Bool
  | .request _ => true
  | _ => false

end Message

structure Turn where
  nativeStarted : Bool := false
  nativeSettled : Bool := false
  terminal : Bool := false
  sourceSettled : Bool := false
  waiting : Option Nat := none
  transition : Option (Option Nat) := none
  canceled : Bool := false
  deriving DecidableEq

/-- Where the reader of the turn stands.  Every place but `unread`, `idle`, `joining` and `done` is
one where it may be emitting. -/
inductive Reader where
  | unread
  | starting
  | idle
  | changing (next : Option Nat)
  | updating (ticket : Nat)
  | mapping (id : Nat)
  | warning (id : Nat)
  | opening (id : Nat)
  | offering (id : Nat)
  | withdrawing (ticket id : Nat)
  | resuming (ticket : Nat)
  | completing (ticket : Nat)
  | joining
  | done
  deriving DecidableEq

namespace Reader

def emits : Reader → Bool
  | .unread | .idle | .joining | .done => false
  | _ => true

end Reader

/-- A canonical resolution of a request. -/
inductive Resolution (Answers : Type) where
  | selected (requestId : Nat) (optionId : JsString)
  | denied (requestId : Nat)
  | answered (requestId : Nat) (answers : Answers)
  | canceled (requestId : Nat)
  deriving DecidableEq

/-- The limits of a session and what it makes of the contents of requests. -/
structure Interactions (Params Flow Answers Content : Type) where
  limits : QueueLimits
  maxPendingRequests : Nat
  maxRequestMaterialBytes : Nat
  permission : Params → Except SessionError MappedPermission
  flow : Params → Flow
  admits : Flow → Answers → Bool
  resolve : Flow → Option Answers → Except SessionError (Flow × Option Content)

structure Session (Params Flow Answers Content : Type) where
  queue : SessionQueue Message := {}
  requests : List (Request Params Flow Content) := []
  retainedBytes : Int := 0
  bound : Bool := false
  openingEntries : List Nat := []
  turn : Option Turn := none
  turns : Nat := 0
  reader : Reader := .done
  gated : List (Nat × Resolution Answers) := []
  failure : Option SessionError := none
  closed : Bool := false
  requestSequence : Nat := 0
  deriving DecidableEq

namespace Session

def usable (s : Session Params Flow Answers Content) : Bool := s.failure.isNone && !s.closed

/-- The request with an identity. -/
def find (id : Nat) (s : Session Params Flow Answers Content) :
    Option (Request Params Flow Content) :=
  s.requests.find? fun r => r.id = id

/-- A change of one request. -/
def modify (id : Nat) (f : Request Params Flow Content → Request Params Flow Content)
    (s : Session Params Flow Answers Content) : Session Params Flow Answers Content :=
  { s with requests := s.requests.map fun r => if r.id = id then f r else r }

def pendingSize (s : Session Params Flow Answers Content) : Nat :=
  (s.requests.filter fun r => r.pending).length

def retainedSize (s : Session Params Flow Answers Content) : Nat :=
  (s.requests.filter fun r => r.retained).length

def cancelAll (s : Session Params Flow Answers Content) : Session Params Flow Answers Content :=
  { s with requests := s.requests.map Request.cancel }

def fail (error : SessionError) (s : Session Params Flow Answers Content) :
    Session Params Flow Answers Content :=
  if s.usable then { s with failure := some error, queue := s.queue.fail error }.cancelAll else s

def sessionClosed : SessionError :=
  { reasonCode := "acp_session_closed"
    message := "The ACP session is closed." }

def close (s : Session Params Flow Answers Content) : Session Params Flow Answers Content :=
  if s.closed then s else { s with closed := true, queue := s.queue.fail sessionClosed }.cancelAll

/-- A change of the turn. -/
def setTurn (turn : Turn) (s : Session Params Flow Answers Content) :
    Session Params Flow Answers Content :=
  { s with turn := some turn }

/-- The wait for a request ends. -/
def endWait (id : Nat) (s : Session Params Flow Answers Content) :
    Session Params Flow Answers Content :=
  match s.turn with
  | none => s
  | some turn => if turn.waiting = some id then s.setTurn { turn with waiting := none } else s

/-- A request is mapped to a canonical request with a new identity. -/
def mapRequest (id : Nat) (offered : Offered Flow) (s : Session Params Flow Answers Content) :
    Session Params Flow Answers Content :=
  let mapped : MappedRequest Flow := { requestId := s.requestSequence + 1, offered }
  { s with requestSequence := s.requestSequence + 1 }.modify id fun r =>
    { r with mapped := some mapped }

/-! ## Events of the peer -/

section Events

variable (i : Interactions Params Flow Answers Content)

/-- A message for the queue; the session fails when it does not fit. -/
def admitOrFail (message : Message) (bytes : Nat) (s : Session Params Flow Answers Content) :
    Session Params Flow Answers Content :=
  match s.queue.admitValue i.limits message bytes message.control with
  | .ok queue => { s with queue }
  | .error error => s.fail error

/-- `admitNotification`: metadata before the binding, or an update of the turn. -/
def admitNotification (metadata : Bool) (bytes : Nat) (s : Session Params Flow Answers Content) :
    Session Params Flow Answers Content :=
  if !s.usable then s
  else if metadata then
    if s.bound then s
    else
      match s.queue.admitValue i.limits .update bytes false with
      | .ok queue => { s with queue, openingEntries := s.openingEntries ++ [s.queue.made] }
      | .error _ => s
  else
    match s.turn with
    | none => s
    | some turn =>
      if turn.nativeSettled || turn.terminal then s else s.admitOrFail i .update bytes

/-- The session is bound, and the entries of its opening are released. -/
def bind (s : Session Params Flow Answers Content) : Session Params Flow Answers Content :=
  if !s.usable || s.bound then s
  else
    { s with
      bound := true
      queue := s.openingEntries.foldl (fun queue ticket => queue.release ticket) s.queue
      openingEntries := [] }

def requestQueueFull : SessionError :=
  { reasonCode := "acp_request_queue_full"
    message := "The ACP pending request budget is exhausted." }

def materialFull : SessionError :=
  { reasonCode := "acp_session_queue_full"
    message := "The ACP retained request material budget is exhausted." }

/-- `admitRequest`; the bytes are twice those of the parameters and those of the form. -/
def admitRequest (kind : RequestKind) (params : Params) (host : Bool) (bytes : Nat)
    (s : Session Params Flow Answers Content) : Session Params Flow Answers Content :=
  if !s.usable then s
  else
    match s.turn with
    | none => s
    | some turn =>
      if turn.nativeSettled || turn.terminal || turn.canceled then s
      else if i.maxPendingRequests ≤ s.retainedSize then s.fail requestQueueFull
      else if i.maxRequestMaterialBytes < s.retainedBytes + bytes then s.fail materialFull
      else
        match s.queue.admitValue i.limits (.request s.requests.length) bytes false with
        | .error error => s.fail error
        | .ok queue =>
          { s with
            queue
            requests := s.requests ++
              [{ id := s.requests.length, turn := s.turns, kind, params, host, bytes
                 entry := s.queue.made }]
            retainedBytes := s.retainedBytes + bytes }

/-- The transport has settled the reply and the host callback is joined.  The transport settles a
request only after its response. -/
def settleRequest (id : Nat) (s : Session Params Flow Answers Content) :
    Session Params Flow Answers Content :=
  match s.find id with
  | none => s
  | some r =>
    if r.retained && r.answered && !r.hostWork then
      let s' :=
        { s.modify id fun r => { r with retained := false } with
          retainedBytes := s.retainedBytes - r.bytes
          queue := s.queue.release r.entry }
      if r.unavailable then s' else s'.endWait id
    else s

/-- `nativeBytes(requestId) + 64` for the identity `acp:request:<n>`. -/
def noticeBytes (requestId : Nat) : Nat := (Nat.digits 10 requestId).length + 14 + 64

/-- The notice of a request that was published and is withdrawn. -/
def notify (r : Request Params Flow Content) (s : Session Params Flow Answers Content) :
    Session Params Flow Answers Content :=
  match r.published with
  | none => s
  | some requestId => s.admitOrFail i (.unavailable r.id requestId) (noticeBytes requestId)

/-- `withdraw`, by the signal of the request or by the finish of its child. -/
def withdraw (aborted : Bool) (error : SessionError) (id : Nat)
    (s : Session Params Flow Answers Content) : Session Params Flow Answers Content :=
  match s.find id with
  | none => s
  | some r =>
    if !r.retained || r.unavailable then s
    else
      ((s.modify id (Request.withdrawn aborted)).notify i r).modify id
        (Request.release (.rejected error))

/-- The signal of a request is aborted for any other cause. -/
def revoke (error : SessionError) (id : Nat) (s : Session Params Flow Answers Content) :
    Session Params Flow Answers Content :=
  match s.find id with
  | none => s
  | some r =>
    if r.retained then (s.modify id fun r => { r with aborted := true }).fail error else s

def terminalWithRequest : SessionError :=
  { reasonCode := "acp_terminal_with_request"
    message := "ACP completed native work with unanswered interaction requests." }

/-- `completeNativeTurn`, when the response of the prompt arrives.  The transport takes an error of
the admission as fatal. -/
def settlePrompt (bytes : Nat) (s : Session Params Flow Answers Content) :
    Session Params Flow Answers Content :=
  match s.turn with
  | none => s
  | some turn =>
    if !s.usable || !turn.nativeStarted || turn.nativeSettled then s
    else
      let s' := s.setTurn { turn with nativeSettled := true }
      if 0 < s'.pendingSize then s'.fail terminalWithRequest else s'.admitOrFail i .terminal bytes

/-- `cancelNative`; before the prompt is sent the turn settles at once. -/
def cancelNative (bytes : Nat) (s : Session Params Flow Answers Content) :
    Session Params Flow Answers Content :=
  match s.turn with
  | none => s
  | some turn =>
    if !s.usable || turn.terminal || turn.canceled || turn.nativeSettled then s
    else if turn.nativeStarted then (s.setTurn { turn with canceled := true }).cancelAll
    else
      (s.setTurn { turn with canceled := true, nativeSettled := true }).cancelAll.admitOrFail i
        .terminal bytes

/-! ## Resolutions -/

def resolutionInvalid : SessionError :=
  { reasonCode := "AgentProtocolValidationError"
    message := "Agent protocol validation failed." }

def requestNotPending : SessionError :=
  { reasonCode := "acp_request_not_pending"
    message := "The ACP resolution does not identify an available pending request." }

def optionNotOffered : SessionError :=
  { reasonCode := "acp_option_not_offered"
    message := "The ACP permission option was not offered." }

/-- `parseAgentRequestResolutionFor` -/
def resolutionFor (mapped : MappedRequest Flow) : Resolution Answers → Bool
  | .selected requestId optionId =>
    match mapped.offered with
    | .permission permission =>
      requestId = mapped.requestId &&
        permission.options.any fun option => option.optionId = optionId
    | .form _ => false
  | .denied requestId =>
    match mapped.offered with
    | .permission _ => requestId = mapped.requestId
    | .form _ => false
  | .answered requestId answers =>
    match mapped.offered with
    | .permission _ => false
    | .form flow => requestId = mapped.requestId && i.admits flow answers
  | .canceled requestId =>
    match mapped.offered with
    | .permission _ => false
    | .form _ => requestId = mapped.requestId

/-- The reply to a permission: the native identity of the selected option. -/
def permissionReply (permission : MappedPermission) :
    Resolution Answers → Except SessionError (Reply Content)
  | .selected _ optionId =>
    match permission.nativeOptions.lookup optionId with
    | some nativeId => .ok (.selected nativeId)
    | none => .error optionNotOffered
  | _ => .ok (.canceled .permission)

/-- The answers of a resolution; none when it cancels. -/
def resolutionAnswers : Resolution Answers → Option Answers
  | .answered _ answers => some answers
  | _ => none

/-- A reply is delivered, and the reader resumes the turn. -/
def deliver (id : Nat) (turn : Turn) (reply : Reply Content)
    (s : Session Params Flow Answers Content) : Session Params Flow Answers Content :=
  (s.modify id (Request.answer reply)).setTurn { turn with transition := some none }

/-- `resolveAcpRequest`, and whether the resolution was delivered. -/
def resolveAcpRequest (id : Nat) (turn : Turn) (resolution : Resolution Answers)
    (s : Session Params Flow Answers Content) :
    Except SessionError (Session Params Flow Answers Content × Bool) :=
  match s.find id with
  | none => .error requestNotPending
  | some r =>
    match r.mapped with
    | none => .error requestNotPending
    | some mapped =>
      if !resolutionFor i mapped resolution then .error resolutionInvalid
      else if !r.canAnswer then .ok (s, false)
      else
        match mapped.offered with
        | .permission permission =>
          (permissionReply permission resolution).map fun reply =>
            (s.deliver id turn reply, true)
        | .form flow =>
          match i.resolve flow (resolutionAnswers resolution) with
          | .error error => .error error
          | .ok (flow, some content) =>
            .ok ((s.modify id fun r =>
                { r with mapped := some { mapped with offered := .form flow } }).deliver id
              turn (.form content), true)
          | .ok (flow, none) =>
            .ok ((s.mapRequest id (.form flow)).setTurn
              { turn with waiting := none, transition := some (some id) }, true)

/-- The session after a resolution that may have been refused. -/
def resolved (id : Nat) (turn : Turn) (resolution : Resolution Answers)
    (s : Session Params Flow Answers Content) : Session Params Flow Answers Content :=
  match s.resolveAcpRequest i id turn resolution with
  | .ok (s', _) => s'
  | .error _ => s

/-- `resolveRequest`: the request is the one the turn waits for.  A permission whose child was
resolved natively is held at a gate first. -/
def resolveRequest (gate : Bool) (resolution : Resolution Answers)
    (s : Session Params Flow Answers Content) : Session Params Flow Answers Content :=
  match s.turn with
  | none => s
  | some turn =>
    match turn.waiting with
    | none => s
    | some id =>
      match s.find id with
      | none => s
      | some r =>
        if turn.terminal || r.mapped.isNone then s
        else if gate && r.kind = .permission then
          { s with gated := s.gated ++ [(id, resolution)] }
        else s.resolved i id turn resolution

/-- The gate of a resolution opens. -/
def passGate (position : Nat) (s : Session Params Flow Answers Content) :
    Session Params Flow Answers Content :=
  match s.gated[position]?, s.turn with
  | some (id, resolution), some turn =>
    { s with gated := s.gated.eraseIdx position }.resolved i id turn resolution
  | _, _ => s

/-- The host callback of a request returns a value or an error. -/
def hostReply (id : Nat) (result : Except SessionError Content)
    (s : Session Params Flow Answers Content) : Session Params Flow Answers Content :=
  match s.find id with
  | none => s
  | some r =>
    if !r.hostWork then s
    else
      match result with
      | .ok content => s.modify id (Request.answer (.host content))
      | .error error => s.modify id (Request.release (.rejected error))

/-- The work of the host callback ends, after its value was passed on. -/
def hostJoined (id : Nat) (s : Session Params Flow Answers Content) :
    Session Params Flow Answers Content :=
  s.modify id fun r => if r.answered then { r with hostWork := false } else r

/-! ## The reader -/

def startTurn (s : Session Params Flow Answers Content) : Session Params Flow Answers Content :=
  if !s.usable || !s.bound then s
  else
    match s.turn with
    | some turn =>
      if turn.sourceSettled then
        { s with turn := some {}, turns := s.turns + 1, reader := .unread }
      else s
    | none => { s with turn := some {}, turns := s.turns + 1, reader := .unread }

/-- `launchTurn`, when the stream of the turn is first read. -/
def launchTurn (s : Session Params Flow Answers Content) : Session Params Flow Answers Content :=
  match s.turn with
  | none => s
  | some turn =>
    if !s.usable || s.reader ≠ .unread then s
    else if turn.nativeSettled then { s with reader := .starting }
    else { s.setTurn { turn with nativeStarted := true } with reader := .starting }

/-- `offerRequest`, which the reader reaches with the wait for the request. -/
def offerRequest (id : Nat) (turn : Turn) (s : Session Params Flow Answers Content) :
    Session Params Flow Answers Content :=
  let s' := s.setTurn { turn with waiting := some id }
  match s.find id with
  | none => { s' with reader := .idle }
  | some r =>
    if r.canAnswer then
      { s'.modify id fun r =>
          { r with publishedRequestId := r.mapped.map MappedRequest.requestId } with
        reader := .opening id }
    else { s' with reader := .idle }

/-- The request is offered unless it was answered or the turn canceled meanwhile. -/
def offerUnlessAnswered (id : Nat) (turn : Turn) (s : Session Params Flow Answers Content) :
    Session Params Flow Answers Content :=
  match s.find id with
  | none => { s with reader := .idle }
  | some r =>
    if r.answered || turn.canceled then { s with reader := .idle } else s.offerRequest id turn

def toolNotObserved : SessionError :=
  { reasonCode := "-32602"
    message := "ACP form tool identity was not observed in this turn." }

/-- A form request that was taken: refused when its tool is unknown, left to the host, or
offered. -/
def takeForm (tool : Bool) (id : Nat) (turn : Turn) (r : Request Params Flow Content)
    (s : Session Params Flow Answers Content) : Session Params Flow Answers Content :=
  if !tool then { s.modify id (Request.release (.rejected toolNotObserved)) with reader := .idle }
  else if r.host then { s.modify id fun r => { r with hostWork := true } with reader := .idle }
  else (s.mapRequest id (.form (i.flow r.params))).offerUnlessAnswered id turn

/-- The reader has taken an entry. -/
def process (tool : Bool) (turn : Turn) (entry : QueueEntry Message)
    (s : Session Params Flow Answers Content) : Session Params Flow Answers Content :=
  match entry.value with
  | .update => { s with reader := .updating entry.ticket }
  | .unavailable id _ => { s with reader := .withdrawing entry.ticket id }
  | .terminal =>
    if 0 < s.pendingSize then s.fail terminalWithRequest
    else { s with reader := .completing entry.ticket }
  | .request id =>
    match s.find id with
    | none => s
    | some r =>
      if r.answered || turn.canceled then s
      else
        match r.kind with
        | .permission => { s with reader := .mapping id }
        | .form => s.takeForm i tool id turn r

/-- The tool of a permission is mapped: the permission is mapped, and offered unless a warning comes
first. -/
def mapPermission (id : Nat) (turn : Turn) (s : Session Params Flow Answers Content) :
    Session Params Flow Answers Content :=
  match s.find id with
  | none => { s with reader := .idle }
  | some r =>
    if r.answered || turn.canceled then { s with reader := .idle }
    else
      match i.permission r.params with
      | .error error => s.fail error
      | .ok permission =>
        let s' := s.mapRequest id (.permission permission)
        if permission.warning then { s' with reader := .warning id }
        else s'.offerUnlessAnswered id turn

/-- The messages the reader may take: a request only while the turn waits for none. -/
def canTake (turn : Turn) (message : Message) : Bool := !message.isRequest || turn.waiting.isNone

/-- The reader at the head of its loop: a transition first, else the queue. -/
def drain (tool : Bool) (turn : Turn) (s : Session Params Flow Answers Content) :
    Session Params Flow Answers Content :=
  match turn.transition with
  | some next => { s.setTurn { turn with transition := none } with reader := .changing next }
  | none =>
    match s.queue.next (canTake turn) with
    | none => s
    | some entry => { s with queue := s.queue.taken entry }.process i tool turn entry

/-- The reader goes on from where it stands; `tool` says whether the tool named by a form was
observed in the turn. -/
def advance (tool : Bool) (s : Session Params Flow Answers Content) :
    Session Params Flow Answers Content :=
  match s.turn with
  | none => s
  | some turn =>
    if !s.usable || s.queue.outputBytes ≠ 0 then s
    else
      match s.reader with
      | .unread | .done => s
      | .starting => { s with reader := .idle }
      | .idle => s.drain i tool turn
      | .changing none => { s with reader := .idle }
      | .changing (some id) => s.offerUnlessAnswered id turn
      | .updating ticket => { s with reader := .idle, queue := s.queue.release ticket }
      | .mapping id => s.mapPermission i id turn
      | .warning id => s.offerUnlessAnswered id turn
      | .opening id => { s with reader := .offering id }
      | .offering _ => { s with reader := .idle }
      | .withdrawing ticket id => { s.endWait id with reader := .resuming ticket }
      | .resuming ticket => { s with reader := .idle, queue := s.queue.release ticket }
      | .completing ticket =>
        { s.setTurn { turn with terminal := true, waiting := none } with
          reader := .joining
          queue := s.queue.release ticket }
      | .joining =>
        if s.retainedSize = 0 then
          { s.setTurn { turn with sourceSettled := true } with reader := .done }
        else s

/-- `emit` -/
def emit (bytes : Nat) (s : Session Params Flow Answers Content) :
    Session Params Flow Answers Content :=
  if !s.usable || !s.reader.emits || s.queue.outputBytes ≠ 0 then s
  else
    match s.queue.reserveOutput i.limits bytes with
    | .ok queue => { s with queue }
    | .error error => s.fail error

/-- The reader asks for the next output. -/
def resume (s : Session Params Flow Answers Content) : Session Params Flow Answers Content :=
  { s with queue := s.queue.releaseOutput }

/-- `reserveState`; an error of it reaches the owner. -/
def reserveState (bytes : Nat) (s : Session Params Flow Answers Content) :
    Session Params Flow Answers Content :=
  match s.queue.reserveState i.limits bytes with
  | .ok queue => { s with queue }
  | .error _ => s

/-- An owner gives a reservation of item state back. -/
def releaseState (ticket : Nat) (s : Session Params Flow Answers Content) :
    Session Params Flow Answers Content :=
  { s with queue := s.queue.releaseState ticket }

end Events

end Session

/-! ## Runs -/

inductive Event (Params Answers Content : Type) where
  | notification (metadata : Bool) (bytes : Nat)
  | bind
  | request (kind : RequestKind) (params : Params) (host : Bool) (bytes : Nat)
  | settled (id : Nat)
  | withdraw (aborted : Bool) (error : SessionError) (id : Nat)
  | revoke (error : SessionError) (id : Nat)
  | prompt (bytes : Nat)
  | cancel (bytes : Nat)
  | resolve (gate : Bool) (resolution : Resolution Answers)
  | gate (position : Nat)
  | host (id : Nat) (result : Except SessionError Content)
  | joined (id : Nat)
  | start
  | launch
  | advance (tool : Bool)
  | emit (bytes : Nat)
  | resume
  | reserve (bytes : Nat)
  | release (ticket : Nat)
  | fail (error : SessionError)
  | close

open Session in
def step (i : Interactions Params Flow Answers Content) (s : Session Params Flow Answers Content) :
    Event Params Answers Content → Session Params Flow Answers Content
  | .notification metadata bytes => s.admitNotification i metadata bytes
  | .bind => s.bind
  | .request kind params host bytes => s.admitRequest i kind params host bytes
  | .settled id => s.settleRequest id
  | .withdraw aborted error id => s.withdraw i aborted error id
  | .revoke error id => s.revoke error id
  | .prompt bytes => s.settlePrompt i bytes
  | .cancel bytes => s.cancelNative i bytes
  | .resolve gate resolution => s.resolveRequest i gate resolution
  | .gate position => s.passGate i position
  | .host id result => s.hostReply id result
  | .joined id => s.hostJoined id
  | .start => s.startTurn
  | .launch => s.launchTurn
  | .advance tool => s.advance i tool
  | .emit bytes => s.emit i bytes
  | .resume => s.resume
  | .reserve bytes => s.reserveState i bytes
  | .release ticket => s.releaseState ticket
  | .fail error => s.fail error
  | .close => s.close

/-- The session after some events. -/
def run (i : Interactions Params Flow Answers Content)
    (events : List (Event Params Answers Content)) : Session Params Flow Answers Content :=
  Machine.run (step i) {} events

end Provider

end AgentSdk
