import AgentSdk.Docker.Framing
import AgentSdk.Lib.Machine

/-!
# The filesystem control channel

One helper process answers one request at a time over the standard streams of its
container.  The controller waits in a single slot, for the readiness of the helper,
for the reply to a file request or for a heartbeat; replies come through the Docker
multiplex, cut anywhere.

A step is what runs between two points where the code can be interrupted: a chunk
of the stream, the delivery of one piece, a call, a timer, the reaction to a settled
reply.  An error that the pump throws reaches `fail` in a step of its own.  The
reply of a request or a heartbeat is a *waiter*; waiters are numbered as they enter
the slot.

## Main definitions

* `accept` — the bytes of one piece.
* `step` — one event of a channel.
-/

namespace AgentSdk.Docker

open AgentSdk.Framed

/-! ## Replies -/

def FILESYSTEM_CHUNK_BYTES : Nat := 65536
def FILESYSTEM_METADATA_BYTES : Nat := 2048

/-- `metadata` holds the replies that are JSON: an entry, a terminal or the readiness. -/
inductive FilesystemReply (μ : Type)
  | bytes (bytes : List UInt8)
  | metadata (kind : Nat) (value : μ)
  | heartbeat
  deriving DecidableEq

/-- What is read from the JSON of a reply: its checked value, or nothing, and whether a
readiness attests the selected protocol, layout and user. -/
structure ReplyCodec (μ : Type) where
  metadata : Nat → List UInt8 → Option μ
  attests : μ → Bool

/-- `filesystemReplyLength` accepts a frame. -/
def filesystemReplyLength (kind length : Nat) : Bool :=
  decide (length ≤ if kind = 1 then FILESYSTEM_CHUNK_BYTES else FILESYSTEM_METADATA_BYTES) &&
    decide (kind ≤ 5) && !decide (kind < 1) && !(decide (kind = 1) && decide (length < 1)) &&
    !(decide (kind = 5) && decide (length ≠ 0))

variable {μ : Type}

/-- `decodeFilesystemReply`; `none` is an error. -/
def decodeFilesystemReply (codec : ReplyCodec μ) (kind : Nat) (bytes : List UInt8) :
    Option (FilesystemReply μ) :=
  if filesystemReplyLength kind bytes.length = false then none
  else if kind = 1 then some (.bytes bytes)
  else if kind = 5 then some .heartbeat
  else (codec.metadata kind bytes).map (.metadata kind)

/-- The header of a reply. -/
def readReplyHeader (header : List UInt8) : Except Unit (Nat × Nat) :=
  if filesystemReplyLength (readUInt32BE header 0) (readUInt32BE header 4) = true then
    .ok (readUInt32BE header 0, readUInt32BE header 4)
  else .error ()

/-- The stream of replies. -/
def replyFormat : Format Nat Unit where
  width := 8
  width_pos := Nat.succ_pos 7
  parse := readReplyHeader

/-- A payload that is being filled. -/
structure ReplyPayload where
  length : Nat
  bytes : List UInt8 := []
  deriving DecidableEq

/-- What a channel has of the reply it reads. -/
structure ReplyReader where
  header : List UInt8 := []
  replyKind : Nat := 0
  payload : Option ReplyPayload := none
  deriving DecidableEq

/-- One turn of the loop over a piece. -/
inductive Turn
  | more (reader : ReplyReader) (rest : List UInt8)
  | reply (reader : ReplyReader) (kind : Nat) (payload rest : List UInt8)
  | failed
  deriving DecidableEq

namespace ReplyReader

/-- How many bytes of a piece are taken to reach a length. -/
def count (seen : List UInt8) (length : Nat) (bytes : List UInt8) : Nat :=
  min (length - seen.length) bytes.length

/-- The payload takes what the piece has. -/
def fill (reader : ReplyReader) (payload : ReplyPayload) (bytes : List UInt8) : Turn :=
  if (payload.bytes ++ bytes.take (count payload.bytes payload.length bytes)).length ≠
      payload.length then
    .more
      { reader with
        payload := some
          { payload with
            bytes := payload.bytes ++ bytes.take (count payload.bytes payload.length bytes) } }
      (bytes.drop (count payload.bytes payload.length bytes))
  else
    .reply { reader with payload := none } reader.replyKind
      (payload.bytes ++ bytes.take (count payload.bytes payload.length bytes))
      (bytes.drop (count payload.bytes payload.length bytes))

/-- A complete header. -/
def opened (header rest : List UInt8) : Turn :=
  match readReplyHeader header with
  | .error _ => .failed
  | .ok (kind, length) => fill { header := [], replyKind := kind } { length } rest

def turn (reader : ReplyReader) (bytes : List UInt8) : Turn :=
  match reader.payload with
  | some payload => reader.fill payload bytes
  | none =>
    if (reader.header ++ bytes.take (count reader.header 8 bytes)).length ≠ 8 then
      .more { reader with header := reader.header ++ bytes.take (count reader.header 8 bytes) }
        (bytes.drop (count reader.header 8 bytes))
    else
      opened (reader.header ++ bytes.take (count reader.header 8 bytes))
        (bytes.drop (count reader.header 8 bytes))

end ReplyReader

/-! ## Requests -/

/-- A request: its operation and flags, the bytes of its path and its data. -/
structure FilesystemRequest where
  operation : Nat
  flags : Nat := 0
  name : List UInt8 := []
  bytes : List UInt8 := []
  deriving DecidableEq

/-- `writeUInt32BE` -/
def writeUInt32BE (value : Nat) : List UInt8 :=
  [UInt8.ofNat (value / 0x1000000), UInt8.ofNat (value / 0x10000), UInt8.ofNat (value / 0x100),
    UInt8.ofNat value]

def encodeFilesystemRequest (request : FilesystemRequest) : List UInt8 :=
  writeUInt32BE request.operation ++ writeUInt32BE request.flags ++
    writeUInt32BE request.name.length ++ writeUInt32BE request.bytes.length ++
    request.name ++ request.bytes

def heartbeatRequest : FilesystemRequest := { operation := 10 }

/-! ## The channel -/

inductive FailureCode
  | driver_failure
  | cancelled
  | deadline_exceeded
  | output_limit
  | stream_failure
  deriving DecidableEq

/-- Why a request is refused before it is written. -/
inductive Refusal
  | failed (code : FailureCode)
  | closing
  | onePair
  | admissionClosed
  deriving DecidableEq

inductive Outcome (μ : Type)
  | waiting
  | resolved (reply : FilesystemReply μ)
  | rejected (code : FailureCode)
  deriving DecidableEq

inductive Owner
  | readiness
  | request
  | heartbeat
  deriving DecidableEq

structure Waiter (μ : Type) where
  owner : Owner
  outcome : Outcome μ
  deriving DecidableEq

/-- A request on the wire and the waiter that it belongs to. -/
structure Written where
  waiter : Nat
  bytes : List UInt8
  deriving DecidableEq

inductive Pump
  | running
  | thrown (code : FailureCode)
  | ended
  deriving DecidableEq

/-- A channel.  `unread` is the rest of the chunk that the pump is in, `consumed` all that
the decoder has read before it. -/
structure FilesystemChannel (μ : Type) where
  waiters : List (Waiter μ)
  pending : Option Nat
  timer : Bool := false
  heartbeatTimer : Bool := false
  heartbeatActual : Option Nat := none
  closing : Bool := false
  renewing : Bool := true
  accepting : Bool := true
  failure : Option FailureCode := none
  readinessStarted : Bool := false
  readinessSettled : Bool := false
  enteredReady : Bool := false
  reader : ReplyReader := {}
  pump : Pump := .running
  decoder : DockerFrameDecoder := {}
  unread : List UInt8 := []
  consumed : List UInt8 := []
  written : List Written := []

inductive ChannelEvent
  | chunk (bytes : List UInt8)
  | delivery
  | streamEnd
  | pumpFails
  | readiness
  | beginReadiness
  | request (request : FilesystemRequest)
  | heartbeatTimer
  | heartbeatReply
  | deadline
  | interrupt (code : FailureCode)
  | closeRequests
  | stopRenewal
  | closeAdmission

namespace FilesystemChannel

/-- The constructor: the first waiter is the readiness, without a deadline. -/
def opened : FilesystemChannel μ where
  waiters := [⟨.readiness, .waiting⟩]
  pending := some 0

/-- The waiter in the slot is settled. -/
def settle (channel : FilesystemChannel μ) (outcome : Outcome μ) : FilesystemChannel μ :=
  match channel.pending with
  | none => channel
  | some index =>
    { channel with
      waiters := channel.waiters.modify index fun waiter => { waiter with outcome }
      pending := none }

def fail (channel : FilesystemChannel μ) (code : FailureCode) : FilesystemChannel μ :=
  if channel.closing = true ∨ channel.failure.isSome = true then channel
  else
    settle { channel with failure := some code, timer := false, heartbeatTimer := false }
      (.rejected code)

def receive (channel : FilesystemChannel μ) (owner : Owner) :
    Except Refusal (FilesystemChannel μ) :=
  match channel.failure with
  | some code => .error (.failed code)
  | none =>
    if channel.closing = true then .error .closing
    else if channel.pending.isSome = true then .error .onePair
    else
      .ok { channel with
        pending := some channel.waiters.length
        waiters := channel.waiters ++ [⟨owner, .waiting⟩]
        timer := true }

/-- `exchange`: the request is written once its waiter is in the slot. -/
def exchange (channel : FilesystemChannel μ) (owner : Owner) (request : FilesystemRequest) :
    Except Refusal (FilesystemChannel μ) :=
  match channel.receive owner with
  | .error refusal => .error refusal
  | .ok waiting =>
    .ok { waiting with
      written := channel.written ++ [⟨channel.waiters.length, encodeFilesystemRequest request⟩] }

/-- `request`, behind the readiness.  The wait for a heartbeat only delays a request, and
another heartbeat can begin after it. -/
def request (channel : FilesystemChannel μ) (request : FilesystemRequest) :
    Except Refusal (FilesystemChannel μ) :=
  if channel.accepting = false then .error .admissionClosed
  else channel.exchange .request request

def scheduleHeartbeat (channel : FilesystemChannel μ) : FilesystemChannel μ :=
  if channel.renewing = false ∨ channel.closing = true ∨ channel.failure.isSome = true then
    channel
  else { channel with heartbeatTimer := true }

/-- The heartbeat timer fires. -/
def heartbeat (channel : FilesystemChannel μ) : FilesystemChannel μ :=
  if channel.heartbeatTimer = false then channel
  else if channel.renewing = false ∨ channel.closing = true ∨ channel.failure.isSome = true then
    { channel with heartbeatTimer := false }
  else if channel.pending.isSome = true then
    scheduleHeartbeat { channel with heartbeatTimer := false }
  else
    match exchange { channel with heartbeatTimer := false } .heartbeat heartbeatRequest with
    | .ok waiting => { waiting with heartbeatActual := some channel.waiters.length }
    | .error _ => { channel with heartbeatTimer := false }

/-- The outcome of a waiter. -/
def outcome (channel : FilesystemChannel μ) (index : Nat) : Option (Outcome μ) :=
  channel.waiters[index]?.map Waiter.outcome

/-- The reaction to the reply of a heartbeat. -/
def heartbeatReply (channel : FilesystemChannel μ) : FilesystemChannel μ :=
  match channel.heartbeatActual.bind channel.outcome with
  | some (.resolved .heartbeat) => scheduleHeartbeat { channel with heartbeatActual := none }
  | some (.resolved _) =>
    scheduleHeartbeat (fail { channel with heartbeatActual := none } .driver_failure)
  | some (.rejected code) =>
    scheduleHeartbeat (fail { channel with heartbeatActual := none } code)
  | _ => channel

/-- A reply is a readiness that attests the selection. -/
def isReady (codec : ReplyCodec μ) : FilesystemReply μ → Bool
  | .metadata kind value => decide (kind = 4) && codec.attests value
  | _ => false

/-- The helper has attested its layout and user. -/
def enter (channel : FilesystemChannel μ) : FilesystemChannel μ :=
  if channel.readinessStarted = true then
    scheduleHeartbeat { channel with timer := false, enteredReady := true }
  else { channel with timer := false, enteredReady := true }

/-- The reaction to the first reply. -/
def readiness (codec : ReplyCodec μ) (channel : FilesystemChannel μ) : FilesystemChannel μ :=
  if channel.readinessSettled = true then channel
  else
    match channel.outcome 0 with
    | some (.resolved reply) =>
      if isReady codec reply = true then enter { channel with readinessSettled := true }
      else fail { channel with readinessSettled := true } .driver_failure
    | some (.rejected code) => fail { channel with readinessSettled := true } code
    | _ => channel

def beginReadiness (channel : FilesystemChannel μ) : FilesystemChannel μ :=
  if channel.failure.isSome = true ∨ channel.closing = true ∨ channel.readinessStarted = true then
    channel
  else if channel.enteredReady = true then
    scheduleHeartbeat { channel with readinessStarted := true }
  else { channel with readinessStarted := true, timer := true }

def closeRequests (channel : FilesystemChannel μ) : FilesystemChannel μ :=
  { channel with accepting := false }

def stopRenewal (channel : FilesystemChannel μ) : FilesystemChannel μ :=
  { channel with renewing := false, accepting := false, heartbeatTimer := false }

def closeAdmission (channel : FilesystemChannel μ) : FilesystemChannel μ :=
  if channel.closing = true then channel.closeRequests
  else
    settle
      { channel with accepting := false, closing := true, timer := false, heartbeatTimer := false }
      (.rejected .cancelled)

/-! ## The pump -/

/-- A complete reply: `none` is an error. -/
def answer (codec : ReplyCodec μ) (channel : FilesystemChannel μ) (kind : Nat)
    (payload : List UInt8) : Option (FilesystemChannel μ) :=
  match decodeFilesystemReply codec kind payload with
  | none => none
  | some reply =>
    if channel.pending.isSome = true then
      some (settle { channel with timer := false } (.resolved reply))
    else none

/-- `accept`: the bytes of a piece, and whether they were read without an error.  Every turn
takes a byte, so `fuel` is the number of bytes. -/
def acceptLoop (codec : ReplyCodec μ) :
    Nat → FilesystemChannel μ → List UInt8 → FilesystemChannel μ × Bool
  | 0, channel, _ => (channel, true)
  | fuel + 1, channel, bytes =>
    if bytes = [] then (channel, true)
    else if channel.closing = true ∨ channel.failure.isSome = true then (channel, true)
    else
      match channel.reader.turn bytes with
      | .failed => (channel, false)
      | .more reader rest => acceptLoop codec fuel { channel with reader } rest
      | .reply reader kind payload rest =>
        match answer codec { channel with reader } kind payload with
        | none => ({ channel with reader }, false)
        | some answered => acceptLoop codec fuel answered rest

def accept (codec : ReplyCodec μ) (channel : FilesystemChannel μ) (bytes : List UInt8) :
    FilesystemChannel μ × Bool :=
  acceptLoop codec bytes.length channel bytes

/-- The pump gives up the chunk it is in. -/
def throws (channel : FilesystemChannel μ) (code : FailureCode) : FilesystemChannel μ :=
  { channel with
    pump := .thrown code
    consumed := channel.consumed ++ channel.unread
    unread := [] }

/-- The decoder has read up to `rest`. -/
def readTo (channel : FilesystemChannel μ) (decoder : DockerFrameDecoder) (rest : List UInt8) :
    FilesystemChannel μ :=
  { channel with
    decoder
    consumed := channel.consumed ++ channel.unread.take (channel.unread.length - rest.length)
    unread := rest }

def FramingError.code : FramingError → FailureCode
  | .invalidHeader | .insideFrame => .stream_failure
  | .oversizedFrame => .output_limit

/-- A piece on a channel: `deliver` of the pump. -/
def deliver (codec : ReplyCodec μ) (channel : FilesystemChannel μ) (decoder : DockerFrameDecoder)
    (stream : UInt8) (piece rest : List UInt8) : FilesystemChannel μ :=
  if stream ≠ 1 then channel.throws .driver_failure
  else if (channel.accept codec piece).2 = true then
    (channel.accept codec piece).1.readTo decoder rest
  else (channel.accept codec piece).1.throws .driver_failure

/-- The pump goes on to the next delivery of its chunk. -/
def delivery (codec : ReplyCodec μ) (channel : FilesystemChannel μ) : FilesystemChannel μ :=
  match channel.pump with
  | .running =>
    match channel.decoder.scan channel.unread with
    | .done decoder => channel.readTo decoder []
    | .failed error => channel.throws (FramingError.code error)
    | .deliver decoder stream piece rest => channel.deliver codec decoder stream piece rest
  | _ => channel

/-- The stream has another chunk. -/
def chunk (channel : FilesystemChannel μ) (bytes : List UInt8) : FilesystemChannel μ :=
  match channel.pump with
  | .running =>
    if channel.unread ≠ [] then channel
    else if 65536 < bytes.length then channel.throws .output_limit
    else { channel with unread := bytes }
  | _ => channel

/-- The stream ends. -/
def streamEnd (channel : FilesystemChannel μ) : FilesystemChannel μ :=
  match channel.pump with
  | .running =>
    if channel.unread ≠ [] then channel
    else if channel.closing = true ∨ channel.failure.isSome = true then
      { channel with pump := .ended }
    else
      match channel.decoder.finish with
      | .error error => channel.throws (FramingError.code error)
      | .ok () => channel.throws .driver_failure
  | _ => channel

/-- The error of the pump reaches the channel. -/
def pumpFails (channel : FilesystemChannel μ) : FilesystemChannel μ :=
  match channel.pump with
  | .thrown code => fail { channel with pump := .ended } code
  | _ => channel

/-- A call that is refused leaves the channel as it is. -/
def orElse (channel : FilesystemChannel μ) :
    Except Refusal (FilesystemChannel μ) → FilesystemChannel μ
  | .ok channel => channel
  | .error _ => channel

/-- One event.  `interrupt` stands for the abort of a signal, a failed write, a failed
attachment and a call of `interrupt`. -/
def step (codec : ReplyCodec μ) (channel : FilesystemChannel μ) :
    ChannelEvent → FilesystemChannel μ
  | .chunk bytes => channel.chunk bytes
  | .delivery => channel.delivery codec
  | .streamEnd => channel.streamEnd
  | .pumpFails => channel.pumpFails
  | .readiness => channel.readiness codec
  | .beginReadiness => channel.beginReadiness
  | .request request =>
    if channel.enteredReady = true then channel.orElse (channel.request request) else channel
  | .heartbeatTimer => channel.heartbeat
  | .heartbeatReply => channel.heartbeatReply
  | .deadline => if channel.timer = true then channel.fail .deadline_exceeded else channel
  | .interrupt code => channel.fail code
  | .closeRequests => channel.closeRequests
  | .stopRenewal => channel.stopRenewal
  | .closeAdmission => channel.closeAdmission

/-! ## What the stream says -/

/-- The bytes of standard output so far. -/
def stdout (channel : FilesystemChannel μ) : List UInt8 :=
  (bodyBytes dockerFormat (.header []) channel.consumed).filterMap fun tagged =>
    if tagged.1 = 1 then some tagged.2 else none

/-- The complete replies in a stream, each with its kind. -/
def replies (stream : List UInt8) : List (Nat × List UInt8) :=
  frames replyFormat (.header []) stream

/-- The channel still serves: the pump runs, nothing failed and it is not closing. -/
def live (channel : FilesystemChannel μ) : Bool :=
  decide (channel.pump = .running) && channel.failure.isNone && !channel.closing

end FilesystemChannel

end AgentSdk.Docker
