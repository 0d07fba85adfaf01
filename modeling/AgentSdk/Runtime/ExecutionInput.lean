import AgentSdk.Lib.Json
import AgentSdk.Lib.Machine

/-!
# Ownership of execution input

The owner of the messages sent into one running execution, and the census of
message identities that all owners of a session generation share.  A send
reserves its place and its bytes and enters the provider in one synchronous
step; the provider's receipt, its settlement, the end of the public wait, the
closing of admission and the final drain are continuations that arrive in any
order.

A continuation names its owner and the position of its send.  Where nothing is
waiting for it, it changes nothing.
-/

namespace AgentSdk.Runtime

open AgentSdk.Text

/-! ## Messages and answers -/

/-- The limits a provider declares for one execution. -/
structure ExecutionInputLimits where
  maxOutstandingMessages : Nat
  maxMessagesPerExecution : Nat
  maxBufferedBytes : Nat

/-- What a provider declares about the input of an execution. -/
structure ExecutionInputSupport where
  limits : ExecutionInputLimits
  /-- Whether consumption is reported with message identities. -/
  reportsMessageIds : Bool

/-- A parsed message: its identity, the texts of its parts, and its summary. -/
structure ExecutionInputMessage where
  messageId : JsString
  parts : List JsString
  summary : Option JsString

/-- The bytes a message is charged with: those of its JSON text. -/
def ExecutionInputMessage.bytes (message : ExecutionInputMessage) : Nat :=
  Json.jsonBytes <| .obj <|
    [(js "messageId", .str message.messageId),
      (js "parts", .arr (message.parts.map fun text =>
        .obj [(js "type", .str (js "text")), (js "text", .str text)]))] ++
    (message.summary.map fun summary => (js "summary", Json.str summary)).toList

/-- Why consumption stays unconfirmed. -/
inductive UnconfirmedReason where
  | providerDoesNotReportConsumption
  | closed
  | interrupted
  | nativeFailed
  | correlationLost
deriving DecidableEq

/-- The outcome of an accepted message. -/
inductive ExecutionInputOutcome where
  | consumed (owned : Bool)
  | unconfirmed (reason : UnconfirmedReason)
deriving DecidableEq

/-- What a provider's settlement promise resolves to. -/
inductive ProviderOutcome where
  | consumed (messageId turnId : JsString) (owned : Bool)
  | unconfirmed (messageId : JsString) (reason : UnconfirmedReason)

/-- What a provider's receipt promise resolves to. -/
inductive ProviderReceipt where
  | accepted (messageId : JsString)
  | rejected (messageId : JsString)
  | deliveryUncertain (messageId : JsString)

/-- What the caller of a send is given. -/
inductive SendReceipt where
  | accepted
  | rejected
  | deliveryUncertain
  | failed
deriving DecidableEq

/-- An outcome is accepted under the message's identity, and consumption only
where it is reported and for this turn. -/
def validateOutcome (support : ExecutionInputSupport) (turnId messageId : JsString) :
    ProviderOutcome → Option ExecutionInputOutcome
  | .consumed id turn owned =>
    if id ≠ messageId then none
    else if support.reportsMessageIds = true ∧ turn = turnId then some (.consumed owned)
    else none
  | .unconfirmed id reason =>
    if id ≠ messageId then none
    else if reason = .providerDoesNotReportConsumption ∧ support.reportsMessageIds = true then none
    else some (.unconfirmed reason)

/-- A receipt is accepted under the message's identity. -/
def validateReceipt (messageId : JsString) : ProviderReceipt → Option SendReceipt
  | .accepted id => if id ≠ messageId then none else some .accepted
  | .rejected id => if id ≠ messageId then none else some .rejected
  | .deliveryUncertain id => if id ≠ messageId then none else some .deliveryUncertain

/-! ## The census -/

/-- How many identities a session generation retains. -/
def maxSessionIdentities : Nat := 4096

/-- How many bytes of identities a session generation retains. -/
def maxSessionIdBytes : Nat := 1048576

/-- The identities entered in a session generation. -/
structure InputCensus where
  identities : List JsString := []
  retainedBytes : Nat := 0
  exhausted : Bool := false

/-- Why a send fails before it enters. -/
inductive SendError where
  | refused
  | activeTurnMismatch
  | capacityExhausted
  | identityReused
  | identityLimitExceeded
deriving DecidableEq

/-- Claims an identity; an exhausted census also retires the session. -/
def InputCensus.claim (census : InputCensus) (messageId : JsString) :
    InputCensus × Except SendError Unit :=
  if messageId ∈ census.identities then (census, .error .identityReused)
  else if maxSessionIdentities ≤ census.identities.length ∨
      maxSessionIdBytes < census.retainedBytes + utf8Length messageId then
    ({ census with exhausted := true }, .error .identityLimitExceeded)
  else
    ({ census with
        identities := census.identities ++ [messageId]
        retainedBytes := census.retainedBytes + utf8Length messageId }, .ok ())

/-! ## One owner -/

/-- Where an owner stands. -/
inductive InputPhase where
  | reserved
  | accepting
  | closing (reason : Option UnconfirmedReason)
  | draining (reason : Option UnconfirmedReason)
  | settled
deriving DecidableEq

/-- Where a message stands. -/
inductive MessagePhase where
  | entered
  | accepted
  | settled
deriving DecidableEq

/-- How a provider invocation ended. -/
inductive Ending where
  | rejected
  | uncertain
  | failed
  | settled (outcome : ExecutionInputOutcome)
deriving DecidableEq

/-- How far the invocation of a send has come: inside the provider's call, its
receipt or its settlement awaited, ended but still tracked, gone. -/
inductive Stage where
  | invoking
  | awaitingReceipt
  | awaitingSettlement
  | ended (ending : Ending)
  | gone (ending : Ending)
deriving DecidableEq

/-- A send that has entered: its entry, its public wait and its invocation. -/
structure Send where
  messageId : JsString
  bytes : Nat
  phase : MessagePhase := .entered
  observation : Option ExecutionInputOutcome := none
  waiting : Bool := true
  receipts : List SendReceipt := []
  stage : Stage := .invoking

/-- The owner of one execution's input. -/
structure InputOwner where
  support : ExecutionInputSupport
  turnId : JsString
  phase : InputPhase := .reserved
  enteredMessages : Nat := 0
  retainedBytes : Int := 0
  failure : Bool := false
  uncertain : Bool := false
  fenced : Bool := false
  messages : List JsString := []
  sends : List Send := []
  drains : Nat := 0

/-- The first outcome observed for a message is the one it keeps. -/
def Send.observe (send : Send) (outcome : ExecutionInputOutcome) : Send :=
  { send with observation := send.observation <|> some outcome }

/-- Is the entry still in the owner's map? -/
def Send.live (send : Send) : Bool := decide (send.phase ≠ .settled)

/-- Is the invocation among the work the owner joins? -/
def Send.tracked (send : Send) : Bool :=
  match send.stage with
  | .awaitingReceipt | .awaitingSettlement | .ended _ => true
  | .invoking | .gone _ => false

namespace InputOwner

/-- Admission ends; with a reason, every live message is observed with it. -/
def closeAdmission (o : InputOwner) (reason : Option UnconfirmedReason) : InputOwner :=
  if o.phase = .settled then o
  else
    let phase :=
      match o.phase with
      | .reserved | .accepting => .closing reason
      | .closing none => .closing reason
      | .draining none => .draining reason
      | phase => phase
    match reason with
    | none => { o with phase }
    | some reason =>
      { o with
        phase
        sends := o.sends.map fun send =>
          if send.live then send.observe (.unconfirmed reason) else send }

/-- A failed observation fences the session. -/
def fail (o : InputOwner) : InputOwner :=
  { o with failure := true, fenced := true }.closeAdmission (some .correlationLost)

/-- Uncertain delivery fences the session. -/
def fenceUncertainty (o : InputOwner) : InputOwner :=
  { o with uncertain := true, fenced := true }.closeAdmission (some .correlationLost)

/-- Changes one send. -/
def onSend (o : InputOwner) (k : Nat) (change : Send → Send) : InputOwner :=
  { o with sends := o.sends.modify k change }

/-- The entry leaves the map, once; its invocation has come to `stage`. -/
def finish (o : InputOwner) (k : Nat) (stage : Stage) : InputOwner :=
  match o.sends[k]? with
  | none => o
  | some send =>
    if send.phase = .settled then o.onSend k fun send => { send with stage }
    else
      { o.onSend k fun send => { send with phase := .settled, stage } with
        messages := o.messages.filter (· ≠ send.messageId)
        retainedBytes := o.retainedBytes - send.bytes }

/-- The caller's wait ends with a receipt, once. -/
def answer (o : InputOwner) (k : Nat) (receipt : SendReceipt) : InputOwner :=
  o.onSend k fun send =>
    if send.waiting then { send with waiting := false, receipts := send.receipts ++ [receipt] }
    else send

/-- The caller's wait ends without an authoritative receipt. -/
def lost (o : InputOwner) (k : Nat) : InputOwner :=
  match o.sends[k]? with
  | some send => if send.waiting then o.fenceUncertainty.answer k .deliveryUncertain else o
  | none => o

/-- A receipt reaches the caller, unless its deadline has passed. -/
def deliver (o : InputOwner) (k : Nat) (receipt : SendReceipt) (late : Bool) : InputOwner :=
  if late then o.lost k else o.answer k receipt

/-- The provider's port becomes available. -/
def attach (o : InputOwner) : InputOwner :=
  if o.phase = .reserved then { o with phase := .accepting } else o

/-- Whether the owner has entered work in hand. -/
def working (o : InputOwner) : Bool := o.sends.any Send.tracked

/-- Whether the execution keeps its slot. -/
def retainsOwnership (o : InputOwner) : Bool := o.uncertain || o.failure || o.working

/-- A message is sent: reservation and entry are one step. `admitted` says
whether the signal and the execution let it through. -/
def sendMessage (census : InputCensus) (o : InputOwner) (message : ExecutionInputMessage)
    (admitted : Bool) : InputCensus × InputOwner × Except SendError Unit :=
  if admitted = false then (census, o, .error .refused)
  else if o.phase ≠ .accepting then (census, o, .error .activeTurnMismatch)
  else
    let limits := o.support.limits
    if limits.maxMessagesPerExecution ≤ o.enteredMessages ∨
        limits.maxOutstandingMessages ≤ o.messages.length ∨
        limits.maxBufferedBytes < o.retainedBytes + message.bytes then
      (census, o, .error .capacityExhausted)
    else
      match census.claim message.messageId with
      | (census, .error error) => (census, o, .error error)
      | (census, .ok ()) =>
        (census,
          { o with
            messages := o.messages ++ [message.messageId]
            enteredMessages := o.enteredMessages + 1
            retainedBytes := o.retainedBytes + message.bytes
            sends := o.sends ++ [{ messageId := message.messageId, bytes := message.bytes }] },
          .ok ())

/-- The provider's call returns or throws; a signal may have been aborted in
the meantime. -/
def invoked (o : InputOwner) (k : Nat) (threw aborted : Bool) : InputOwner :=
  match o.sends[k]? with
  | some send =>
    if send.stage ≠ .invoking then o
    else if threw then (o.fail.answer k .failed).finish k (.gone .failed)
    else
      let o := o.onSend k fun send => { send with stage := .awaitingReceipt }
      if aborted then o.lost k else o
  | none => o

/-- The provider's receipt arrives, or its promise rejects. -/
def receipt (o : InputOwner) (k : Nat) (value : Option ProviderReceipt) (late : Bool) :
    InputOwner :=
  match o.sends[k]? with
  | some send =>
    if send.stage ≠ .awaitingReceipt then o
    else
      match value.bind (validateReceipt send.messageId) with
      | some .accepted =>
        (o.onSend k fun send =>
          { send with
            phase := if send.phase ≠ .settled then .accepted else send.phase
            stage := .awaitingSettlement }).deliver k .accepted late
      | some .rejected => (o.deliver k .rejected late).finish k (.ended .rejected)
      | some .deliveryUncertain =>
        (o.fenceUncertainty.deliver k .deliveryUncertain late).finish k (.ended .uncertain)
      | _ => (o.fail.answer k .failed).finish k (.ended .failed)
  | none => o

/-- An accepted message's settlement arrives, or its promise rejects. -/
def settlement (o : InputOwner) (k : Nat) (value : Option ProviderOutcome) : InputOwner :=
  match o.sends[k]? with
  | some send =>
    if send.stage ≠ .awaitingSettlement then o
    else
      match value.bind (validateOutcome o.support o.turnId send.messageId) with
      | some outcome =>
        let o := o.onSend k fun send => send.observe outcome
        let o := if outcome = .unconfirmed .correlationLost then o.fail else o
        o.finish k (.ended (.settled outcome))
      | none => o.fail.finish k (.ended .failed)
  | none => o

/-- Ended work leaves the set the owner joins. -/
def workDone (o : InputOwner) (k : Nat) : InputOwner :=
  o.onSend k fun send =>
    match send.stage with
    | .ended ending => { send with stage := .gone ending }
    | _ => send

/-- The drain begins. -/
def drain (o : InputOwner) : InputOwner :=
  let o := o.closeAdmission none
  let reason := match o.phase with
    | .closing reason => reason
    | _ => none
  { o with phase := .draining reason, drains := o.drains + 1 }

/-- A drain's join ends: the work is done, or the deadline or the producer has
failed. -/
def joined (o : InputOwner) (failed : Bool) : InputOwner :=
  if o.drains = 0 then o
  else if failed then { o with drains := o.drains - 1 }.fail
  else if o.working then o
  else if o.failure then { o with drains := o.drains - 1 }
  else { o with drains := o.drains - 1, phase := .settled }

end InputOwner

/-! ## A session generation -/

/-- What happens to one owner. -/
inductive InputEvent where
  | attach
  | send (message : ExecutionInputMessage) (admitted : Bool)
  | invoked (k : Nat) (threw aborted : Bool)
  | lost (k : Nat)
  | receipt (k : Nat) (value : Option ProviderReceipt) (late : Bool)
  | settlement (k : Nat) (value : Option ProviderOutcome)
  | workDone (k : Nat)
  | closeAdmission (reason : Option UnconfirmedReason)
  | drain
  | joined (failed : Bool)

/-- One event of an owner; only a send touches the census. -/
def InputOwner.step (census : InputCensus) (o : InputOwner) : InputEvent → InputCensus × InputOwner
  | .attach => (census, o.attach)
  | .send message admitted =>
    ((o.sendMessage census message admitted).1, (o.sendMessage census message admitted).2.1)
  | .invoked k threw aborted => (census, o.invoked k threw aborted)
  | .lost k => (census, o.lost k)
  | .receipt k value late => (census, o.receipt k value late)
  | .settlement k value => (census, o.settlement k value)
  | .workDone k => (census, o.workDone k)
  | .closeAdmission reason => (census, o.closeAdmission reason)
  | .drain => (census, o.drain)
  | .joined failed => (census, o.joined failed)

/-- A session generation: its census and the owners of its executions. -/
structure InputSession where
  census : InputCensus := {}
  owners : List InputOwner := []

/-- What happens to a session generation: an execution begins, or one owner
takes a step. -/
inductive SessionEvent where
  | execution (support : ExecutionInputSupport) (turnId : JsString)
  | owner (i : Nat) (event : InputEvent)

namespace InputSession

def step (s : InputSession) : SessionEvent → InputSession
  | .execution support turnId => { s with owners := s.owners ++ [{ support, turnId }] }
  | .owner i event =>
    match s.owners[i]? with
    | none => s
    | some o =>
      { census := (o.step s.census event).1, owners := s.owners.set i (o.step s.census event).2 }

/-- The state after a list of events. -/
def run (s : InputSession) (events : List SessionEvent) : InputSession := Machine.run step s events

end InputSession

end AgentSdk.Runtime
