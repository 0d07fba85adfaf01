import AgentSdk.Lib.Machine
import AgentSdk.Lib.Marker
import AgentSdk.Network.ConnectGrammar
import AgentSdk.Network.Coverage

/-!
# The egress broker

The broker serves clients on a Unix socket.  It collects the bytes of a client up
to the first empty line, reads them with `parseConnect`, resolves the host name,
and connects to the first answer when it permits all of them.  What the client
sent behind the header, and sends later, goes to that peer.

A client's socket, its resolver and its peer act in any order; each of their
events is one step of the client, and a run of the broker is a list of events of
any clients.  The network's part of a client, what it has sent and what its host
name was resolved to, is kept beside the broker's.

## Main results

* `Client.Sound.step` — one event of a client.
* `connect_admission` — the grammar, and what every run of the broker opens and
  forwards.
* `broker_egress` — connections lead out of every excluded range.
-/

namespace AgentSdk.Network

open AgentSdk.Text AgentSdk.Machine AgentSdk.Marker

/-! ## A client -/

/-- An address that the resolver found. -/
structure Answer where
  address : JsString
  family : AddressFamily
  deriving DecidableEq

/-- What the broker was started with; `permitted` is the admission of addresses. -/
structure BrokerConfiguration where
  destinations : List HttpsDestination
  permitted : JsString → Bool

/-- A connection that the broker opened. -/
structure Peer where
  address : JsString
  family : AddressFamily
  port : Nat
  deriving DecidableEq

/-- How far a client has come. -/
inductive Phase
  | receiving (header : List UInt8)
  | resolving (endpoint : HttpsDestination) (rest : List UInt8)
  | connecting (endpoint : HttpsDestination) (pinned : Answer) (rest : List UInt8)
  | tunneling
  | settled
  deriving DecidableEq

structure Client where
  phase : Phase
  destroyed : Bool
  closed : Bool
  /-- Bytes in the socket that the broker has not read. -/
  held : List UInt8
  /-- The statuses of the replies. -/
  replies : List Nat
  upstream : Option Peer
  upstreamDestroyed : Bool
  upstreamClosed : Bool
  /-- The bytes written to the peer. -/
  forwarded : List UInt8
  /-- All bytes that the client has sent. -/
  received : List UInt8
  /-- The host name given to the resolver, and what it was resolved to. -/
  queried : Option JsString
  answers : Option (List Answer)
  deriving DecidableEq

/-- What can happen to a client's sockets and resolver. -/
inductive ClientEvent
  | data (chunk : List UInt8)
  | resolved (four six : Option (List JsString))
  | connected (remoteAddress : Option JsString)
  | connectFailed
  | flowed (count : Nat)
  | expired
  | closed
  | upstreamClosed

/-- `deny` -/
def Client.deny (client : Client) (status : Nat) : Client :=
  { client with phase := .settled, replies := client.replies ++ [status] }

/-- The failure of the asynchronous part: the peer goes, and the client is told. -/
def Client.failed (client : Client) : Client :=
  { client with
    phase := .settled
    upstreamDestroyed := client.upstreamDestroyed || client.upstream.isSome
    replies := if client.destroyed = true then client.replies else client.replies ++ [403] }

/-- `'\r\n\r\n'` -/
def headerMark : List UInt8 := [13, 10, 13, 10]

/-- `toString('latin1')` -/
def latin1 (bytes : List UInt8) : JsString := bytes.map fun byte => UInt16.ofNat byte.toNat

/-- The answers of both families. -/
def allAnswers (four six : Option (List JsString)) : Option (List Answer) := do
  let fourth ← four
  let sixth ← six
  pure (fourth.map (⟨·, .ipv4⟩) ++ sixth.map (⟨·, .ipv6⟩))

/-- `receive` -/
def Client.receive (configuration : BrokerConfiguration) (client : Client)
    (header chunk : List UInt8) : Client :=
  if 8192 < header.length + chunk.length then client.deny 431
  else match cutAfter headerMark (header ++ chunk) with
    | none => { client with phase := .receiving (header ++ chunk) }
    | some (block, rest) =>
      match parseConnect (latin1 block) configuration.destinations with
      | .error _ => client.failed
      | .ok endpoint =>
        { client with
          phase := .resolving endpoint rest
          queried := some endpoint.hostname }

/-- The answers are in: all of them are admitted, or none. -/
def Client.pin (configuration : BrokerConfiguration) (client : Client)
    (endpoint : HttpsDestination) (rest : List UInt8) (answers : List Answer) : Client :=
  match answers.head? with
  | none => client.deny 403
  | some pinned =>
    if 16 < answers.length ∨
        ¬∀ answer ∈ answers, configuration.permitted answer.address = true then client.deny 403
    else
      { client with
        phase := .connecting endpoint pinned rest
        upstream := some ⟨pinned.address, pinned.family, endpoint.port⟩ }

/-- The peer is connected: the rest of the header's bytes goes to it, and the client is piped. -/
def Client.tunnel (client : Client) (pinned : Answer) (rest : List UInt8)
    (remoteAddress : Option JsString) : Client :=
  if remoteAddress ≠ some pinned.address then client.failed
  else
    { client with
      phase := .tunneling
      replies := client.replies ++ [200]
      forwarded := rest }

/-- Bytes arrive at the client's socket. -/
def Client.arrived (configuration : BrokerConfiguration) (client : Client) (chunk : List UInt8) :
    Client :=
  if client.destroyed = true then client
  else match client.phase with
    | .receiving header =>
      Client.receive configuration { client with received := client.received ++ chunk }
        header chunk
    | .settled => { client with received := client.received ++ chunk }
    | _ => { client with received := client.received ++ chunk, held := client.held ++ chunk }

/-- The resolver has answered for both families, or failed. -/
def Client.resolved (configuration : BrokerConfiguration) (closing : Bool) (client : Client)
    (answers : Option (List Answer)) : Client :=
  match client.phase with
  | .resolving endpoint rest =>
    match answers with
    | none => client.failed
    | some answers =>
      if closing = true ∨ client.destroyed = true then { client with phase := .settled }
      else
        Client.pin configuration { client with answers := some answers } endpoint rest
          answers
  | _ => client

/-- The connection to the peer is made. -/
def Client.connected (closing : Bool) (client : Client) (remoteAddress : Option JsString) :
    Client :=
  match client.phase with
  | .connecting _ pinned rest =>
    if closing = true ∨ client.destroyed = true then
      { client with phase := .settled, upstreamDestroyed := true }
    else client.tunnel pinned rest remoteAddress
  | _ => client

/-- The connection to the peer is not made. -/
def Client.connectFailed (client : Client) : Client :=
  match client.phase with
  | .connecting _ _ _ => client.failed
  | _ => client

/-- The pipe takes held bytes to the peer. -/
def Client.flowed (client : Client) (count : Nat) : Client :=
  if client.phase = .tunneling ∧ client.destroyed = false ∧ client.upstreamDestroyed = false then
    { client with
      forwarded := client.forwarded ++ client.held.take count
      held := client.held.drop count }
  else client

/-- The five seconds for a request are over. -/
def Client.expired (client : Client) : Client :=
  if client.phase = .tunneling then client else { client with destroyed := true }

/-- The peer's socket is closed. -/
def Client.upstreamGone (client : Client) : Client :=
  match client.phase with
  | .connecting _ _ _ =>
    { client.failed with upstreamDestroyed := true, upstreamClosed := true }
  | .tunneling =>
    { client with destroyed := true, upstreamDestroyed := true, upstreamClosed := true }
  | _ => { client with upstreamDestroyed := true, upstreamClosed := true }

/-- `socket.destroy()` for the sockets of a client. -/
def Client.destroy (client : Client) : Client :=
  { client with
    destroyed := true
    upstreamDestroyed := client.upstreamDestroyed || client.upstream.isSome }

def Client.step (configuration : BrokerConfiguration) (closing : Bool) (client : Client) :
    ClientEvent → Client
  | .data chunk => client.arrived configuration chunk
  | .resolved four six => client.resolved configuration closing (allAnswers four six)
  | .connected remoteAddress => client.connected closing remoteAddress
  | .connectFailed => client.connectFailed
  | .flowed count => client.flowed count
  | .expired => client.expired
  | .closed => { client.destroy with closed := true }
  | .upstreamClosed => client.upstreamGone

/-! ## The broker -/

structure Broker where
  closing : Bool
  clients : List Client

inductive BrokerEvent
  | connection
  | client (index : Nat) (event : ClientEvent)
  | close

/-- The sockets of a client that are tracked: those not closed yet. -/
def Client.sockets (client : Client) : Nat :=
  (if client.closed = true then 0 else 1) +
    if client.upstream.isSome = true ∧ client.upstreamClosed = false then 1 else 0

/-- A client whose socket has just been accepted. -/
def Client.accepted : Client :=
  { phase := .receiving [], destroyed := false, closed := false, held := [], replies := [],
    upstream := none, upstreamDestroyed := false, upstreamClosed := false, forwarded := [],
    received := [], queried := none, answers := none }

/-- A client that is turned away: nothing listens to it. -/
def Client.refused : Client := { Client.accepted with phase := .settled, destroyed := true }

def Broker.step (configuration : BrokerConfiguration) (broker : Broker) : BrokerEvent → Broker
  | .connection =>
    if broker.closing = true ∨ 32 < (broker.clients.map Client.sockets).sum + 1 then
      { broker with clients := broker.clients ++ [Client.refused] }
    else { broker with clients := broker.clients ++ [Client.accepted] }
  | .client index event =>
    { broker with
      clients := broker.clients.modify index fun client =>
        client.step configuration broker.closing event }
  | .close => { closing := true, clients := broker.clients.map Client.destroy }

/-- The broker after its start. -/
def Broker.started : Broker := { closing := false, clients := [] }

/-! ## What a client is entitled to -/

/-- The header block of a stream: the bytes up to and with the first empty line are an
accepted CONNECT request for the endpoint. -/
structure Admitted (configuration : BrokerConfiguration) (stream block : List UInt8)
    (endpoint : HttpsDestination) : Prop where
  heads : Heads headerMark block stream
  header : ∃ minor fields,
    ConnectHeader configuration.destinations endpoint minor fields (latin1 block)

/-- The connection to a peer was admitted: by the client's header block, and by the answers
for its host name, of which the peer's address is the first. -/
structure Opened (configuration : BrokerConfiguration) (client : Client) (peer : Peer)
    (block : List UInt8) (endpoint : HttpsDestination) : Prop where
  admitted : Admitted configuration client.received block endpoint
  queried : client.queried = some endpoint.hostname
  port : peer.port = endpoint.port
  resolved : ∃ answers, client.answers = some answers ∧ answers.length ≤ 16 ∧
    (∀ answer ∈ answers, configuration.permitted answer.address = true) ∧
    answers.head? = some ⟨peer.address, peer.family⟩

/-- A client in each phase. -/
inductive Client.Sound (configuration : BrokerConfiguration) (client : Client) : Prop
  | receiving (phase : client.phase = .receiving client.received)
      (open_ : cutAfter headerMark client.received = none) (idle : client.upstream = none)
      (silent : client.forwarded = []) (read : client.held = [])
  | resolving (endpoint : HttpsDestination) (block rest : List UInt8)
      (phase : client.phase = .resolving endpoint rest)
      (admitted : Admitted configuration client.received block endpoint)
      (queried : client.queried = some endpoint.hostname)
      (bytes : client.received = block ++ (rest ++ client.held)) (idle : client.upstream = none)
      (silent : client.forwarded = [])
  | connecting (endpoint : HttpsDestination) (pinned : Answer) (block rest : List UInt8)
      (peer : Peer) (phase : client.phase = .connecting endpoint pinned rest)
      (upstream : client.upstream = some peer)
      (opened : Opened configuration client peer block endpoint)
      (bytes : client.received = block ++ (rest ++ client.held)) (silent : client.forwarded = [])
  | tunneling (endpoint : HttpsDestination) (block : List UInt8) (peer : Peer)
      (phase : client.phase = .tunneling) (upstream : client.upstream = some peer)
      (opened : Opened configuration client peer block endpoint)
      (bytes : client.received = block ++ (client.forwarded ++ client.held))
  | settled (phase : client.phase = .settled) (silent : client.forwarded = [])
      (opened : ∀ peer, client.upstream = some peer →
        ∃ block endpoint, Opened configuration client peer block endpoint)

variable {configuration : BrokerConfiguration} {client : Client}

variable {block : List UInt8} {endpoint : HttpsDestination} {peer : Peer} {other : Client}

theorem Admitted.append {stream : List UInt8} (h : Admitted configuration stream block endpoint)
    (more : List UInt8) :
    Admitted configuration (stream ++ more) block endpoint := ⟨h.heads.append more, h.header⟩

/-- Only the bytes, the query and the answers matter. -/
theorem Opened.frame (h : Opened configuration client peer block endpoint) (more : List UInt8)
    (hreceived : other.received = client.received ++ more)
    (hqueried : other.queried = client.queried) (hanswers : other.answers = client.answers) :
    Opened configuration other peer block endpoint where
  admitted := hreceived ▸ h.admitted.append more
  queried := hqueried ▸ h.queried
  port := h.port
  resolved := hanswers ▸ h.resolved

theorem Opened.same (h : Opened configuration client peer block endpoint)
    (hreceived : other.received = client.received) (hqueried : other.queried = client.queried)
    (hanswers : other.answers = client.answers) : Opened configuration other peer block endpoint :=
  h.frame [] (by rw [hreceived, List.append_nil]) hqueried hanswers

/-! ## The invariant -/

/-- Every connection of a client was admitted. -/
theorem Client.Sound.opened (h : client.Sound configuration) (hpeer : client.upstream = some peer) :
    ∃ block endpoint, Opened configuration client peer block endpoint := by
  cases h with
  | receiving _ _ idle | resolving _ _ _ _ _ _ _ idle => rw [idle] at hpeer; cases hpeer
  | connecting endpoint _ block _ peer' _ upstream opened
  | tunneling endpoint block peer' _ upstream opened =>
    rw [upstream] at hpeer
    cases hpeer
    exact ⟨block, endpoint, opened⟩
  | settled _ _ opened => exact opened peer hpeer

/-- A client that settles before its tunnel is open has nothing forwarded. -/
theorem Client.Sound.settle (h : client.Sound configuration) (hsilent : client.phase ≠ .tunneling)
    (hphase : other.phase = .settled) (hforwarded : other.forwarded = client.forwarded)
    (hupstream : other.upstream = client.upstream) (more : List UInt8)
    (hreceived : other.received = client.received ++ more)
    (hqueried : other.queried = client.queried) (hanswers : other.answers = client.answers) :
    other.Sound configuration := by
  have hempty : client.forwarded = [] := by
    cases h with
    | receiving _ _ _ silent | resolving _ _ _ _ _ _ _ _ silent
    | connecting _ _ _ _ _ _ _ _ _ silent => exact silent
    | tunneling _ _ _ phase => exact absurd phase hsilent
    | settled _ silent => exact silent
  refine .settled hphase (hforwarded.trans hempty) fun peer hpeer => ?_
  have ⟨block, endpoint, hopened⟩ := h.opened (hupstream ▸ hpeer)
  exact ⟨block, endpoint, hopened.frame more hreceived hqueried hanswers⟩

/-- What no part of the invariant speaks about. -/
theorem Client.Sound.same (h : client.Sound configuration) (hphase : other.phase = client.phase)
    (hforwarded : other.forwarded = client.forwarded) (hheld : other.held = client.held)
    (hupstream : other.upstream = client.upstream) (hreceived : other.received = client.received)
    (hqueried : other.queried = client.queried) (hanswers : other.answers = client.answers) :
    other.Sound configuration := by
  cases h with
  | receiving phase open_ idle silent read =>
    exact .receiving (by rw [hphase, hreceived, phase]) (hreceived ▸ open_)
      (hupstream.trans idle) (hforwarded.trans silent) (hheld.trans read)
  | resolving endpoint block rest phase admitted queried bytes idle silent =>
    exact .resolving endpoint block rest (hphase.trans phase) (hreceived ▸ admitted)
      (hqueried.trans queried) (by rw [hreceived, hheld, bytes]) (hupstream.trans idle)
      (hforwarded.trans silent)
  | connecting endpoint pinned block rest peer phase upstream opened bytes silent =>
    exact .connecting endpoint pinned block rest peer (hphase.trans phase)
      (hupstream.trans upstream) (opened.same hreceived hqueried hanswers)
      (by rw [hreceived, hheld, bytes]) (hforwarded.trans silent)
  | tunneling endpoint block peer phase upstream opened bytes =>
    exact .tunneling endpoint block peer (hphase.trans phase) (hupstream.trans upstream)
      (opened.same hreceived hqueried hanswers) (by rw [hreceived, hforwarded, hheld, bytes])
  | settled phase silent opened =>
    refine .settled (hphase.trans phase) (hforwarded.trans silent) fun peer hpeer => ?_
    have ⟨block, endpoint, hopened⟩ := opened peer (hupstream ▸ hpeer)
    exact ⟨block, endpoint, hopened.same hreceived hqueried hanswers⟩

theorem Client.Sound.failed (h : client.Sound configuration)
    (hphase : client.phase ≠ .tunneling) : client.failed.Sound configuration :=
  h.settle hphase rfl rfl rfl [] (List.append_nil _).symm rfl rfl

theorem Client.Sound.receive (h : client.Sound configuration)
    (hphase : client.phase = .receiving client.received) (chunk : List UInt8) :
    (Client.receive configuration { client with received := client.received ++ chunk }
      client.received chunk).Sound configuration := by
  have hquiet : client.phase ≠ .tunneling := by
    rw [hphase]
    exact Phase.noConfusion
  cases h with
  | receiving _ open_ idle silent read =>
    unfold Client.receive
    split
    next hlong =>
      exact .settled rfl silent fun peer hpeer => by
        rw [show client.upstream = some peer from hpeer] at idle
        cases idle
    next hlong =>
      split
      next hcut => exact .receiving rfl hcut idle silent read
      next block rest hcut =>
        have ⟨hbytes, hheads⟩ := cutAfter_eq_some hcut
        split
        next error _ =>
          exact .settled rfl silent fun peer hpeer => by
            rw [show client.upstream = some peer from hpeer] at idle
            cases idle
        next endpoint hendpoint =>
          have hheader := parseConnect_iff.1 hendpoint
          refine .resolving endpoint block rest rfl ⟨hheads, hheader⟩ rfl ?_ idle silent
          rw [read, List.append_nil]
          exact hbytes
  | resolving _ _ _ phase | connecting _ _ _ _ _ phase
  | settled phase => rw [hphase] at phase; cases phase
  | tunneling _ _ _ phase => exact absurd phase hquiet

/-- Bytes that arrive while the socket is not read. -/
theorem Client.Sound.hold (h : client.Sound configuration) (chunk : List UInt8)
    (hphase : ∀ header, client.phase ≠ .receiving header) :
    Client.Sound configuration
      { client with
        received := client.received ++ chunk
        held := client.held ++ chunk } := by
  cases h with
  | receiving phase => exact absurd phase (hphase _)
  | resolving endpoint block rest phase admitted queried bytes idle silent =>
    refine .resolving endpoint block rest phase (admitted.append chunk) queried ?_ idle silent
    rw [bytes]
    simp only [List.append_assoc]
  | connecting endpoint pinned block rest peer phase upstream opened bytes silent =>
    refine .connecting endpoint pinned block rest peer phase upstream
      (opened.frame chunk rfl rfl rfl) ?_ silent
    rw [bytes]
    simp only [List.append_assoc]
  | tunneling endpoint block peer phase upstream opened bytes =>
    refine .tunneling endpoint block peer phase upstream (opened.frame chunk rfl rfl rfl) ?_
    rw [bytes]
    simp only [List.append_assoc]
  | settled phase silent opened =>
    refine .settled phase silent fun peer hpeer => ?_
    have ⟨block, endpoint, hopened⟩ := opened peer hpeer
    exact ⟨block, endpoint, hopened.frame chunk rfl rfl rfl⟩

theorem Client.Sound.pin (h : client.Sound configuration) {rest : List UInt8}
    (hphase : client.phase = .resolving endpoint rest) (answers : List Answer) :
    (Client.pin configuration { client with answers := some answers } endpoint rest
      answers).Sound configuration := by
  cases h with
  | receiving phase | connecting _ _ _ _ _ phase
  | tunneling _ _ _ phase => rw [hphase] at phase; cases phase
  | settled phase => rw [hphase] at phase; cases phase
  | resolving endpoint' block rest' phase admitted queried bytes idle silent =>
    rw [hphase] at phase
    cases phase
    have hdeny : ∀ status, (Client.deny { client with answers := some answers }
        status).Sound configuration := fun status =>
      .settled rfl silent fun peer hpeer => by
        rw [show client.upstream = some peer from hpeer] at idle
        cases idle
    unfold Client.pin
    cases hhead : answers.head? with
    | none => exact hdeny 403
    | some pinned =>
      by_cases hrefused : 16 < answers.length ∨
          ¬∀ answer ∈ answers, configuration.permitted answer.address = true
      · simp only [hrefused, if_true]
        exact hdeny 403
      · simp only [hrefused, if_false]
        push Not at hrefused
        exact .connecting endpoint pinned block rest
          ⟨pinned.address, pinned.family, endpoint.port⟩ rfl rfl
          ⟨admitted, queried, rfl, answers, rfl, hrefused.1, hrefused.2, hhead⟩ bytes silent

/-- The tunnel opens with the bytes behind the header, and what is held follows. -/
theorem Client.Sound.tunnel (h : client.Sound configuration) {pinned : Answer} {rest : List UInt8}
    (hphase : client.phase = .connecting endpoint pinned rest) (remoteAddress : Option JsString) :
    (client.tunnel pinned rest remoteAddress).Sound configuration := by
  have hquiet : client.phase ≠ .tunneling := by
    rw [hphase]
    exact Phase.noConfusion
  unfold Client.tunnel
  split
  · exact h.failed hquiet
  · cases h with
    | receiving phase | resolving _ _ _ phase | settled phase => rw [hphase] at phase; cases phase
    | tunneling _ _ _ phase => exact absurd phase hquiet
    | connecting endpoint' pinned' block rest' peer phase upstream opened bytes silent =>
      rw [hphase] at phase
      cases phase
      exact .tunneling endpoint block peer rfl upstream (opened.same rfl rfl rfl) bytes

/-- Held bytes flow to the peer in order. -/
theorem Client.Sound.flowed (h : client.Sound configuration) (count : Nat) :
    (client.flowed count).Sound configuration := by
  unfold Client.flowed
  split
  next hopen =>
    have ⟨hphase, _, _⟩ := hopen
    cases h with
    | receiving phase | resolving _ _ _ phase
    | connecting _ _ _ _ _ phase => rw [hphase] at phase; cases phase
    | settled phase => rw [hphase] at phase; cases phase
    | tunneling endpoint block peer phase upstream opened bytes =>
      refine .tunneling endpoint block peer phase upstream (opened.same rfl rfl rfl) ?_
      show client.received =
        block ++ ((client.forwarded ++ client.held.take count) ++ client.held.drop count)
      rw [List.append_assoc, List.take_append_drop]
      exact bytes
  · exact h

theorem Client.Sound.expired (h : client.Sound configuration) :
    client.expired.Sound configuration := by
  unfold Client.expired
  split
  · exact h
  · exact h.same rfl rfl rfl rfl rfl rfl rfl

theorem Client.Sound.arrived (h : client.Sound configuration) (chunk : List UInt8) :
    (client.arrived configuration chunk).Sound configuration := by
  unfold Client.arrived
  split
  · exact h
  · split
    next header hphase =>
      have hsame : header = client.received := by
        cases h with
        | receiving phase => rw [hphase] at phase; exact Phase.receiving.inj phase
        | resolving _ _ _ phase | connecting _ _ _ _ _ phase
        | tunneling _ _ _ phase => rw [hphase] at phase; cases phase
        | settled phase => rw [hphase] at phase; cases phase
      subst hsame
      exact h.receive hphase chunk
    next hphase =>
      have hquiet : client.phase ≠ .tunneling := by simp [hphase]
      exact h.settle hquiet hphase rfl rfl chunk rfl rfl rfl
    next hreceiving _ => exact h.hold chunk hreceiving

theorem Client.Sound.resolved (h : client.Sound configuration) (closing : Bool)
    (answers : Option (List Answer)) :
    (client.resolved configuration closing answers).Sound configuration := by
  unfold Client.resolved
  split
  next endpoint rest hphase =>
    have hquiet : client.phase ≠ .tunneling := by simp [hphase]
    split
    · exact h.failed hquiet
    next answers =>
      split
      · exact h.settle hquiet rfl rfl rfl [] (List.append_nil _).symm rfl rfl
      · exact h.pin hphase answers
  · exact h

theorem Client.Sound.connected (h : client.Sound configuration) (closing : Bool)
    (remoteAddress : Option JsString) :
    (client.connected closing remoteAddress).Sound configuration := by
  unfold Client.connected
  split
  next endpoint pinned rest hphase =>
    have hquiet : client.phase ≠ .tunneling := by simp [hphase]
    split
    · exact h.settle hquiet rfl rfl rfl [] (List.append_nil _).symm rfl rfl
    · exact h.tunnel hphase remoteAddress
  · exact h

theorem Client.Sound.connectFailed (h : client.Sound configuration) :
    client.connectFailed.Sound configuration := by
  unfold Client.connectFailed
  split
  next hphase => exact h.failed (by simp [hphase])
  · exact h

theorem Client.Sound.upstreamGone (h : client.Sound configuration) :
    client.upstreamGone.Sound configuration := by
  unfold Client.upstreamGone
  split
  next hphase =>
    have hfailed := h.failed (show client.phase ≠ .tunneling by simp [hphase])
    exact hfailed.same rfl rfl rfl rfl rfl rfl rfl
  · exact h.same rfl rfl rfl rfl rfl rfl rfl
  · exact h.same rfl rfl rfl rfl rfl rfl rfl

/-- **One event of a client.** -/
theorem Client.Sound.step (h : client.Sound configuration) (closing : Bool) (event : ClientEvent) :
    (client.step configuration closing event).Sound configuration := by
  cases event with
  | data chunk => exact h.arrived chunk
  | resolved four six => exact h.resolved closing (allAnswers four six)
  | connected remoteAddress => exact h.connected closing remoteAddress
  | connectFailed => exact h.connectFailed
  | flowed count => exact h.flowed count
  | expired => exact h.expired
  | closed => exact h.same rfl rfl rfl rfl rfl rfl rfl
  | upstreamClosed => exact h.upstreamGone

theorem Client.accepted_sound : Client.accepted.Sound configuration :=
  .receiving rfl (by decide) rfl rfl rfl

theorem Client.refused_sound : Client.refused.Sound configuration :=
  .settled rfl rfl fun peer hpeer => by cases hpeer

/-! ## Runs of the broker -/

theorem Broker.step_sound {broker : Broker}
    (h : ∀ client ∈ broker.clients, client.Sound configuration) (event : BrokerEvent) :
    ∀ client ∈ (broker.step configuration event).clients, client.Sound configuration := by
  cases event with
  | connection =>
    have hjoin : ∀ fresh : Client, fresh.Sound configuration →
        ∀ client ∈ broker.clients ++ [fresh], client.Sound configuration := by
      intro fresh hfresh client hclient
      rcases List.mem_append.1 hclient with hold | hnew
      · exact h client hold
      · exact List.mem_singleton.1 hnew ▸ hfresh
    unfold Broker.step
    by_cases hfull : broker.closing = true ∨ 32 < (broker.clients.map Client.sockets).sum + 1
    · rw [if_pos hfull]
      exact hjoin _ Client.refused_sound
    · rw [if_neg hfull]
      exact hjoin _ Client.accepted_sound
  | client index event =>
    intro client hclient
    have ⟨i, hi, heq⟩ := List.getElem_of_mem hclient
    have hlength : i < broker.clients.length := by
      simpa [Broker.step] using hi
    have hmem := h _ (List.getElem_mem hlength)
    simp only [Broker.step, List.getElem_modify] at heq
    rw [← heq]
    split
    · exact hmem.step broker.closing event
    · exact hmem
  | close =>
    intro client hclient
    have ⟨before, hbefore, heq⟩ := List.mem_map.1 hclient
    rw [← heq]
    exact (h before hbefore).same rfl rfl rfl rfl rfl rfl rfl

/-- The clients of every run of the broker. -/
theorem Broker.run_sound (events : List BrokerEvent) :
    ∀ client ∈ (run (Broker.step configuration) Broker.started events).clients,
      client.Sound configuration :=
  run_invariant (P := fun broker : Broker =>
    ∀ client ∈ broker.clients, client.Sound configuration) (Broker.step configuration)
    (fun _ event h => Broker.step_sound h event) (fun client hclient => by cases hclient) events

/-! ## What an accepted header cannot carry -/

/-- An accepted header: one request, no other line ends than those between its lines, and
no field but those that name its destination or none. -/
structure ClosedHeader (destination : HttpsDestination) (request : JsString)
    (fields : List HeaderField) (header : JsString) : Prop where
  text : header =
    [13, 10].intercalate (request :: fields.map HeaderField.line) ++ [13, 10, 13, 10]
  plain : ∀ line ∈ request :: fields.map HeaderField.line,
    line ≠ [] ∧ (13 : UInt16) ∉ line ∧ (10 : UInt16) ∉ line
  single : ∀ field ∈ fields, ¬js "CONNECT " <+: field.line
  known : ∀ field ∈ fields, lowered field.name ∈ fieldNames
  once : (fields.map fun field => lowered field.name).Nodup
  host : ∀ field ∈ fields, lowered field.name = js "host" →
    field.value = destination.authority ∨
      (destination.port = 443 ∧ field.value = destination.hostname)

theorem line_feed_not_mem {line : JsString} (h : ∀ u ∈ line, isPrintable u = true) :
    (10 : UInt16) ∉ line := fun hmem => by
  have hno := h 10 hmem
  revert hno
  decide

/-- No field name begins as a request does, nor is it the beginning of one. -/
theorem fieldNames_no_request :
    ∀ name ∈ fieldNames, ¬js "connect " <+: name ∧ ¬name ++ [58] <+: js "connect " := by
  decide

theorem field_not_request {field : HeaderField} (h : lowered field.name ∈ fieldNames) :
    ¬js "CONNECT " <+: field.line := by
  intro hprefix
  have hlower : js "connect " <+: lowered field.name ++ [58] ++ lowered (32 :: field.value) := by
    have hmap := hprefix.map lowerUnit
    have hconnect : (js "CONNECT ").map lowerUnit = js "connect " := by decide
    rw [hconnect] at hmap
    have hline : field.line.map lowerUnit =
        lowered field.name ++ [58] ++ lowered (32 :: field.value) := by
      simp [HeaderField.line, lowered, show lowerUnit 58 = 58 by decide]
    rwa [hline] at hmap
  obtain ⟨hno, hno'⟩ := fieldNames_no_request _ h
  by_cases hshort : (lowered field.name ++ [58]).length ≤ (js "connect ").length
  · exact hno' (List.prefix_of_prefix_length_le (List.prefix_append _ _) hlower hshort)
  · have hwithin : js "connect " <+: lowered field.name ++ [58] :=
      List.prefix_of_prefix_length_le hlower (List.prefix_append _ _) (by omega)
    rw [List.prefix_concat_iff] at hwithin
    rcases hwithin with heq | hprefix
    · have hlast := congrArg List.getLast? heq
      rw [List.getLast?_concat] at hlast
      revert hlast
      decide
    · exact hno hprefix

theorem ConnectHeader.closed {destinations : List HttpsDestination}
    {destination : HttpsDestination} {minor : UInt16} {fields : List HeaderField}
    {header : JsString} (h : ConnectHeader destinations destination minor fields header) :
    ClosedHeader destination (requestLine destination minor) fields header := by
  have hknown : ∀ field ∈ fields, lowered field.name ∈ fieldNames := fun field hfield =>
    ((admissible_iff h.hostname).1 (h.admissible field hfield)).1
  refine ⟨h.text, ?_, fun field hfield => field_not_request (hknown field hfield), hknown, h.once,
    ?_⟩
  · intro line hline
    have hprintable := h.lines line hline
    refine ⟨?_, not_mem_of_printable hprintable, line_feed_not_mem hprintable⟩
    rcases List.mem_cons.1 hline with heq | hin
    · rw [heq]; simp [requestLine, HttpsDestination.authority]
    · obtain ⟨field, _, heq⟩ := List.mem_map.1 hin
      rw [← heq]
      simp [HeaderField.line]
  · intro field hfield hname
    cases h.admissible field hfield with
    | host _ value => exact value
    | agent name | connection name =>
      rw [hname] at name
      exact absurd name (by decide)

/-! ## Admission -/

/-- **CONNECT admission.**  The parser accepts exactly the grammar, an accepted header names
one admitted destination and nothing else, and in every run of the broker a client's
connection goes to the first of at most sixteen permitted answers for the host name of its
header block, and takes exactly the bytes behind that block. -/
theorem connect_admission (configuration : BrokerConfiguration) :
    (∀ header destination, parseConnect header configuration.destinations = .ok destination ↔
      ∃ minor fields,
        ConnectHeader configuration.destinations destination minor fields header) ∧
    (∀ header destination minor fields,
      ConnectHeader configuration.destinations destination minor fields header →
        destination ∈ configuration.destinations ∧
          ClosedHeader destination (requestLine destination minor) fields header) ∧
    ∀ events, ∀ client ∈ (run (Broker.step configuration) Broker.started events).clients,
      (∀ peer, client.upstream = some peer →
        ∃ block endpoint, Opened configuration client peer block endpoint) ∧
      (client.forwarded ≠ [] → client.phase = .tunneling) ∧
      (client.phase = .tunneling → ∃ peer block endpoint, client.upstream = some peer ∧
        Opened configuration client peer block endpoint ∧
        client.received = block ++ (client.forwarded ++ client.held)) := by
  refine ⟨fun header destination => parseConnect_iff, fun header destination minor fields h =>
    ⟨h.admitted, h.closed⟩, fun events client hclient => ?_⟩
  have hsound := Broker.run_sound events client hclient
  refine ⟨fun peer hpeer => hsound.opened hpeer, fun hforwarded => ?_, fun hphase => ?_⟩
  · cases hsound with
    | receiving _ _ _ silent => exact absurd silent hforwarded
    | resolving _ _ _ _ _ _ _ _ silent => exact absurd silent hforwarded
    | connecting _ _ _ _ _ _ _ _ _ silent => exact absurd silent hforwarded
    | tunneling _ _ _ phase => exact phase
    | settled _ silent => exact absurd silent hforwarded
  · cases hsound with
    | receiving phase => rw [hphase] at phase; cases phase
    | resolving _ _ _ phase => rw [hphase] at phase; cases phase
    | connecting _ _ _ _ _ phase => rw [hphase] at phase; cases phase
    | settled phase => rw [hphase] at phase; cases phase
    | tunneling endpoint block peer _ upstream opened bytes =>
      exact ⟨peer, block, endpoint, upstream, opened, bytes⟩

/-! ## Egress -/

/-- A connection leads to an admitted destination, and out of every excluded range. -/
structure Egress (configuration : BrokerConfiguration) (excludedCidrs : List JsString)
    (client : Client) (peer : Peer) : Prop where
  destination : ∃ destination ∈ configuration.destinations,
    client.queried = some destination.hostname ∧ peer.port = destination.port
  outside : ∃ family value, IpLiteral peer.address family value ∧
    ∀ cidr ∈ SPECIAL_CIDRS ++ excludedCidrs, ¬CidrCovers cidr family value

theorem Opened.egress {configuration : BrokerConfiguration} {client : Client}
    {excludedCidrs : List JsString} (h : Opened configuration client peer block endpoint)
    (hpermitted : addressAdmission excludedCidrs = .ok configuration.permitted) :
    Egress configuration excludedCidrs client peer := by
  obtain ⟨answers, -, -, hall, hhead⟩ := h.resolved
  have hpeer := hall _ (List.mem_of_head? hhead)
  obtain ⟨minor, fields, hheader⟩ := h.admitted.header
  refine ⟨⟨endpoint, hheader.admitted, h.queried, h.port⟩, ?_⟩
  obtain ⟨coverage, hcoverage, hok⟩ := Outcome.bind_eq_ok.1 hpermitted
  obtain ⟨permitted, hsame, hexact⟩ := addressAdmission_exact hcoverage
  rw [hpermitted] at hsame
  cases Except.ok.inj hsame
  obtain ⟨ranges, -, hok⟩ := Outcome.bind_eq_ok.1 hok
  have hliteral : ∃ parsed, parseNumericAddress peer.address = some parsed := by
    rw [← Except.ok.inj hok] at hpeer
    dsimp only at hpeer
    split at hpeer
    · cases hpeer
    · exact ⟨_, ‹_›⟩
  obtain ⟨⟨family, value⟩, hparsed⟩ := hliteral
  have hliteral := parseNumericAddress_iff.1 hparsed
  refine ⟨family, value, hliteral, fun cidr hcidr hcovers => ?_⟩
  rw [(hexact peer.address family value hliteral).2 ⟨cidr, hcidr, hcovers⟩] at hpeer
  cases hpeer

/-- **Egress**: with the admission of the excluded ranges, whatever happens in a run, each
connection is to an address outside of them and of the special ranges, for an admitted
destination. -/
theorem broker_egress {configuration : BrokerConfiguration} {excludedCidrs : List JsString}
    (hpermitted : addressAdmission excludedCidrs = .ok configuration.permitted)
    (events : List BrokerEvent) :
    ∀ client ∈ (run (Broker.step configuration) Broker.started events).clients,
      ∀ peer ∈ client.upstream, Egress configuration excludedCidrs client peer := by
  intro client hclient peer hpeer
  obtain ⟨block, endpoint, hopened⟩ := (Broker.run_sound events client hclient).opened hpeer
  exact hopened.egress hpermitted

/-- A broker for one destination that permits every address. -/
def sampleConfiguration : BrokerConfiguration := ⟨[⟨js "a.b", 443⟩], fun _ => true⟩

/-- A request whose first bytes behind the header arrive with it. -/
def sampleEvents : List BrokerEvent :=
  [.connection,
    .client 0 (.data ((js "CONNECT a.b:443 HTTP/1.1\r\nHost: a.b\r\n\r").map fun u =>
      UInt8.ofNat u.toNat)),
    .client 0 (.data [10, 22, 3]), .client 0 (.data [1]),
    .client 0 (.resolved (some [js "1.1.1.1"]) (some [])),
    .client 0 (.connected (some (js "1.1.1.1"))), .client 0 (.flowed 1)]

example : ((run (Broker.step sampleConfiguration) Broker.started sampleEvents).clients.map
    fun client => (client.upstream, client.forwarded, client.held)) =
      [(some ⟨js "1.1.1.1", .ipv4, 443⟩, [22, 3, 1], [])] := by
  decide

/-- A broker that excludes a private network. -/
theorem broker_egress_private : ∃ permitted, addressAdmission [js "10.1.2.3/16"] = .ok permitted ∧
    ∀ client ∈ (run (Broker.step ⟨sampleConfiguration.destinations, permitted⟩) Broker.started
        sampleEvents).clients, ∀ peer ∈ client.upstream,
      Egress ⟨sampleConfiguration.destinations, permitted⟩ [js "10.1.2.3/16"] client peer := by
  have hread : ∀ cidr ∈ [js "10.1.2.3/16"], ∃ range, parseRange cidr = .ok range := by
    intro cidr hcidr
    obtain ⟨range, hrange, -⟩ := of_check (P := fun _ => True) (by decide) cidr hcidr
    exact ⟨range, hrange⟩
  obtain ⟨coverage, h⟩ := deniedCoverage_ok (by decide) hread
  obtain ⟨permitted, hpermitted, -⟩ := addressAdmission_exact h
  exact ⟨permitted, hpermitted, broker_egress hpermitted sampleEvents⟩

end AgentSdk.Network
