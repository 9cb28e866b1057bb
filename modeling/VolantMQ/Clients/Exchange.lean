import VolantMQ.Connection.Reload
import VolantMQ.Lib.Cycle

/-!
# QoS 1 and QoS 2 messages to a client

A session sends messages to its client over any number of connections. The server side is
`qPopPacket` and `onAck` on the state of `Outbound`, `persist` when a connection ends and
`loadPersistence` when the next one begins. The client answers as the protocol asks for: it
acknowledges a message of QoS 1 and hands it on, and it keeps a message of QoS 2 until the PUBREL
arrives, also over a reconnection. Packets under way are gone when the connection ends.

A stored packet that cannot be decoded stops `loadPersistence`. The new connection is started all
the same, with the packets before that one, and nothing is deleted, so they are stored twice from
then on. Messages published meanwhile are put into a list that nobody reads.

The transmitter has two queues and drops packets, so packets with different identifiers may arrive
in any order and a packet may get lost. Topic aliases are left out: a client that asks for none gets
none. For each identifier this is an exchange in the sense of `Lib.Cycle`, since an identifier in
use is not given away again.
-/

namespace VolantMQ.Clients

open Lib Packet Connection

open Topics (formatRFC3339)

/-- What the client hands on of a message. -/
structure Cargo where
  topic : GoString
  payload : Bytes
  qos : QosType
  deriving DecidableEq

def cargo (p : Publish) : Cargo := ⟨p.topic, p.payload, p.qos⟩

/-- A message that is to be delivered exactly once. -/
def Cargo.Exact (c : Cargo) : Prop := c.qos = QoS2

/-- A packet to the client; a PUBLISH is marked with the number of its message among those that
were sent under its identifier. -/
inductive Dispatch where
  | publish (p : Publish) (number : ℕ)
  | pubRel (a : Ack)

protected def Dispatch.id : Dispatch → IDType
  | publish p _ => idOrZero p.packetID
  | pubRel a => idOrZero a.packetID

@[simp] theorem Dispatch.id_publish (p : Publish) (number : ℕ) :
    (publish p number).id = idOrZero p.packetID := rfl

@[simp] theorem Dispatch.id_pubRel (a : Ack) : (pubRel a).id = idOrZero a.packetID := rfl

@[simp] theorem idOrZero_setPacketID (m : Publish) (id : IDType) :
    idOrZero (m.setPacketID id).packetID = id := rfl

/-- `Manager.onPublish`: what is stored for a message that arrives while the client is offline. An
error is only logged. -/
def onPublish (now : Time) (order : MapOrder PropertyEntry) (p : Publish) : Option StoredPacket :=
  if p.expired now then none
  else
    match (p.setPacketID 0).encode order with
    | .error _ => none
    | .ok Data => some ⟨⟨Data, p.expireAt.map formatRFC3339⟩, false⟩

/-- The sending side of a session, the connection and the client, with a record of what has happened
for each identifier. -/
structure Exchange where
  server : Outbound
  toClient : List Dispatch
  toServer : List Ack
  /-- What the client keeps until the PUBREL arrives. -/
  held : IDType → Option (ℕ × Publish)
  log : IDType → Cycle.Log Cargo
  /-- What the persistence still has of the session while it is online. -/
  stored : List StoredPacket
  /-- `OnlineRedirect` was called, so that messages go to the queue. -/
  redirected : Bool
  /-- A panic has ended the broker. -/
  down : Bool

namespace Exchange

/-- A session on its first connection. -/
def start (Version : ProtocolVersion) (SendQuota : UInt16) : Exchange :=
  { server := .new Version SendQuota
    toClient := []
    toServer := []
    held := fun _ => none
    log := fun _ => .empty
    stored := []
    redirected := true
    down := false }

/-- `onSubscribedPublish`; messages of QoS 0 go to the other queue. -/
def onSubscribedPublish (s : Exchange) (p : Publish) : Exchange :=
  if p.qos = QoS0 ∨ !s.redirected then s else { s with server := s.server.qPush (.publish p) }

/-- The packet as it goes to the client. -/
def dispatch (number : ℕ) : Provider → Dispatch
  | .publish p => .publish p number
  | .ack a => .pubRel a

/-- The transmitter takes a packet from the queue and sends it. -/
def qPopPacket (s : Exchange) : Exchange :=
  match s.server.txQMessages, s.server.qPopPacket with
  | .publish _ :: _, (server, some (.publish p)) =>
      let id := idOrZero p.packetID
      let log := (s.log id).send (cargo p)
      { s with
        server
        toClient := s.toClient ++ [.publish p log.current]
        log := Function.update s.log id log }
  | _, (server, some pkt) =>
      { s with server, toClient := s.toClient ++ [dispatch (s.log pkt.id).current pkt] }
  | _, (server, none) => { s with server }

/-- The client answers. -/
def answer (s : Exchange) (mType : PacketType) (id : IDType) (reason : ReasonCode) : Exchange :=
  { s with
    toServer := s.toServer ++
      [((Ack.new s.server.Version mType).setPacketID id).setReason reason] }

/-- The client has a PUBLISH. It may refuse one of QoS 2 that it does not keep already, if the
answer can say so. -/
def clientPublish (s : Exchange) (p : Publish) (number : ℕ) (reason : ReasonCode) : Exchange :=
  let id := idOrZero p.packetID
  if p.qos = QoS2 then
    if s.server.Version = ProtocolV50 ∧ s.held id = none ∧ CodeUnspecifiedError ≤ reason then
      s.answer .PUBREC id reason
    else
      ({ s with held := Function.update s.held id (some (number, p)) } : Exchange).answer .PUBREC id
        CodeSuccess
  else
    let log := (s.log id).deliver number (cargo p)
    ({ s with log := Function.update s.log id log } : Exchange).answer .PUBACK id CodeSuccess

/-- The client has a PUBREL, and hands on what it has kept. -/
def clientPubRel (s : Exchange) (id : IDType) : Exchange :=
  match s.held id with
  | none => s.answer .PUBCOMP id CodeSuccess
  | some (number, p) =>
      ({ s with
          held := Function.update s.held id none
          log := Function.update s.log id ((s.log id).deliver number (cargo p)) } : Exchange).answer
        .PUBCOMP id CodeSuccess

/-- The client receives the next packet with an identifier. -/
def clientReceive (s : Exchange) (id : IDType) (reason : ReasonCode) : Exchange :=
  let rest := s.toClient.eraseP fun packet => packet.id = id
  match s.toClient.find? fun packet => packet.id = id with
  | none => s
  | some (.publish p number) =>
      ({ s with toClient := rest } : Exchange).clientPublish p number reason
  | some (.pubRel _) => ({ s with toClient := rest } : Exchange).clientPubRel id

/-- What an acknowledgement means for its message. -/
def settle (Version : ProtocolVersion) (msg : Ack) (log : Cycle.Log Cargo) : Cycle.Log Cargo :=
  if msg.mType = .PUBREC then
    if Version = ProtocolV50 ∧ CodeUnspecifiedError ≤ msg.reasonCode then log.refuse else log
  else log.complete

/-- The server handles the next packet with an identifier with `onAck`, and sends its response. -/
def serverReceive (s : Exchange) (id : IDType) : Exchange :=
  match s.toServer.find? fun msg => idOrZero msg.packetID = id with
  | none => s
  | some msg =>
      { s with
        server := (s.server.onAck msg).1
        toClient := s.toClient ++ ((s.server.onAck msg).2.map Dispatch.pubRel).toList
        toServer := s.toServer.eraseP fun msg => idOrZero msg.packetID = id
        log := Function.update s.log id (settle s.server.Version msg (s.log id)) }

/-- The end of a connection and the beginning of the next. -/
structure Reconnect where
  Version : ProtocolVersion
  SendQuota : UInt16
  OfflineQoS0 : Bool
  now : Time
  order : MapOrder PropertyEntry
  range : MapOrder (Σ _ : IDType, Provider)
  /-- The other queue of the transmitter. -/
  txGMessages : List Outgoing
  /-- The messages that arrive while the client is offline, with their times. -/
  arrived : List (Time × Publish)

/-- What `persist` sees of the connection. -/
def transmitter (s : Exchange) (r : Reconnect) : Transmitter :=
  { Transmitter.load s.server.Version 0 0 0 [] with
    out := s.server
    txGMessages := r.txGMessages }

/-- The messages that are stored while the client is offline. -/
def Reconnect.offline (r : Reconnect) : List StoredPacket :=
  r.arrived.filterMap fun message => onPublish message.1 r.order message.2

/-- What is stored when the next connection begins, unless `persist` panics. -/
def kept (s : Exchange) (r : Reconnect) : Option (List StoredPacket) :=
  match (s.transmitter r).persist r.OfflineQoS0 r.now r.order r.range with
  | .error _ => none
  | .ok packets => some (s.stored ++ packets ++ r.offline)

/-- The packets before the first one that cannot be decoded. -/
def decodable (Version : ProtocolVersion) : List StoredPacket → List Persisted
  | [] => []
  | d :: packets =>
      match d.decode Version with
      | none => []
      | some entry => entry :: decodable Version packets

/-- The next connection. `configureSession` deletes the stored packets if all were loaded, and
starts the connection in any case. -/
def allocConnection (s : Exchange) (r : Reconnect) (stored : List StoredPacket) : Exchange :=
  match Outbound.reload r.Version r.SendQuota stored with
  | some server =>
      { s with server, toClient := [], toServer := [], stored := [], redirected := true }
  | none =>
      { s with
        server := .loadPersistence r.Version r.SendQuota (decodable r.Version stored)
        toClient := []
        toServer := []
        stored
        redirected := false }

/-- What can happen next. -/
inductive Op where
  | publish (p : Publish)
  | pop
  | lose (id : IDType)
  | clientReceive (id : IDType) (reason : ReasonCode)
  | serverReceive (id : IDType)
  | reconnect (r : Reconnect)

/-- The end of a connection and the beginning of the next. -/
def reconnect (s : Exchange) (r : Reconnect) : Exchange :=
  match s.kept r with
  | none => { s with down := true }
  | some stored => s.allocConnection r stored

/-- A packet to the client gets lost. -/
def lose (s : Exchange) (id : IDType) : Exchange :=
  { s with toClient := s.toClient.eraseP fun packet => packet.id = id }

/-- One step, as long as there is a broker. -/
def step (s : Exchange) (op : Op) : Exchange :=
  if s.down then s
  else
    match op with
    | .publish p => s.onSubscribedPublish p
    | .pop => s.qPopPacket
    | .lose id => s.lose id
    | .clientReceive id reason => s.clientReceive id reason
    | .serverReceive id => s.serverReceive id
    | .reconnect r => s.reconnect r

/-- What a step must meet: a PUBLISH is not popped while all identifiers are in use; and when the
connection ends, `persist` returns, all that is stored can be decoded on the next connection, and a
packet that waits for its acknowledgement comes back as it was. -/
def Careful (s : Exchange) : Op → Prop
  | .pop => s.server.Answerable .pop
  | .reconnect r =>
      (∃ stored, s.kept r = some stored ∧ ∀ d ∈ stored, ∃ entry, d.decode r.Version = some entry) ∧
        ∀ pkt, (s.transmitter r).Holds (.unacknowledged pkt) →
          (Queued.unacknowledged pkt).Restorable Publish.topic r.Version r.order
  | _ => True

/-- The packet, if it was sent before under an identifier. -/
def sentAs (id : IDType) : Queued → Option Provider
  | .publish _ => none
  | .unacknowledged pkt => if pkt.id = id then some pkt else none

def isUsed (flowInUse : Finset IDType) (id : IDType) : Bool := id ∈ flowInUse

/-- The part of the state that belongs to an identifier. -/
structure View where
  Version : ProtocolVersion
  inUse : Bool
  queued : List Provider
  stored : Option Provider
  requests : List Dispatch
  replies : List Ack
  held : Option (ℕ × Publish)
  log : Cycle.Log Cargo

def view (s : Exchange) (id : IDType) : View where
  Version := s.server.Version
  inUse := isUsed s.server.flow.flowInUse id
  queued := s.server.txQMessages.filterMap (sentAs id)
  stored := s.server.pubOut.lookup id
  requests := s.toClient.filter fun packet => packet.id = id
  replies := s.toServer.filter fun msg => idOrZero msg.packetID = id
  held := s.held id
  log := s.log id

namespace View

/-- The packet that waits for an answer, and the packet under way, are where the exchange has
them. -/
def Carries (v : View) (pkt : Provider) (reply : Ack → Prop) : Cycle.Place → Prop
  | .pending => v.queued = [pkt] ∧ v.stored = none ∧ v.requests = [] ∧ v.replies = []
  | .lost => v.queued = [] ∧ v.stored = some pkt ∧ v.requests = [] ∧ v.replies = []
  | .request => v.queued = [] ∧ v.stored = some pkt ∧
      v.requests = [dispatch v.log.current pkt] ∧ v.replies = []
  | .reply => v.queued = [] ∧ v.stored = some pkt ∧ v.requests = [] ∧
      ∃ msg, reply msg ∧ v.replies = [msg]

/-- The client keeps the last message, or nothing. -/
def Keeps (v : View) (c : Cargo) (stored : Bool) : Prop :=
  if stored then ∃ p, v.held = some (v.log.current, p) ∧ cargo p = c else v.held = none

/-- A PUBREC from a client that has stored the message, or from one that has refused it. -/
def Answers (Version : ProtocolVersion) (stored : Bool) (msg : Ack) : Prop :=
  msg.mType = .PUBREC ∧
    (stored = false ↔ Version = ProtocolV50 ∧ CodeUnspecifiedError ≤ msg.reasonCode)

/-- The state is that of an exchange at this stage. -/
def Shows (v : View) (id : IDType) : Cycle.Stage Cargo → Prop
  | .idle => v.inUse = false ∧ v.held = none ∧ v.queued = [] ∧ v.stored = none ∧
      v.requests = [] ∧ v.replies = []
  | .plain c place => v.inUse = true ∧ v.held = none ∧ ∃ p, cargo p = c ∧
      idOrZero p.packetID = id ∧ v.Carries (.publish p) (fun msg => msg.mType = .PUBACK) place
  | .offering c place stored => v.inUse = true ∧ v.Keeps c stored ∧ ∃ p, cargo p = c ∧
      idOrZero p.packetID = id ∧ v.Carries (.publish p) (Answers v.Version stored) place
  | .committing c place stored => v.inUse = true ∧ v.Keeps c stored ∧ ∃ a : Ack,
      a.mType = .PUBREL ∧ idOrZero a.packetID = id ∧
      v.Carries (.ack a) (fun msg => msg.mType = .PUBCOMP ∧ stored = false) place

/-- The state is that of an exchange. -/
def Regular (v : View) (id : IDType) : Prop :=
  ∃ stage, v.Shows id stage ∧ Cycle.Sound Cargo.Exact stage v.log

end View

/-- The state of every identifier is that of an exchange. -/
def Paired (s : Exchange) : Prop := ∀ id, (s.view id).Regular id

section Views

variable {s : Exchange} {id other : IDType}

end Views

namespace View

section Stages

variable {v w : View} {id : IDType} {pkt : Provider} {reply : Ack → Prop} {place : Cycle.Place}
  {stage : Cycle.Stage Cargo}

/-- The same packet again: a PUBLISH with the same contents, or the same acknowledgement. -/
def Kin : Provider → Provider → Prop
  | .publish p, .publish again => cargo again = cargo p ∧
      idOrZero again.packetID = idOrZero p.packetID
  | .ack a, .ack again => again.mType = a.mType ∧ idOrZero again.packetID = idOrZero a.packetID
  | _, _ => False

/-- Wherever it is, the packet is kept once. -/
theorem Carries.one (carries : v.Carries pkt reply place) :
    v.queued ++ v.stored.toList = [pkt] := by
  cases place with
  | pending => simp [carries.1, carries.2.1]
  | lost => simp [carries.1, carries.2.1]
  | request => simp [carries.1, carries.2.1]
  | reply => simp [carries.1, carries.2.1]

/-- An identifier that is not in use takes part in no exchange. -/
theorem Shows.idle (shows : v.Shows id stage) (free : v.inUse = false) : stage = .idle := by
  cases stage with
  | idle => rfl
  | plain c place => simp [shows.1] at free
  | offering c place stored => simp [shows.1] at free
  | committing c place stored => simp [shows.1] at free

theorem Shows.inUse (shows : v.Shows id stage) : v.inUse = true ↔ stage ≠ .idle := by
  cases stage with
  | idle => simp [shows.1]
  | plain c place => simp [shows.1]
  | offering c place stored => simp [shows.1]
  | committing c place stored => simp [shows.1]

/-- The packet of an exchange that is not idle has its identifier. -/
theorem Shows.carries (shows : v.Shows id stage) (busy : stage ≠ .idle) :
    ∃ pkt reply place, pkt.id = id ∧ v.Carries pkt reply place := by
  cases stage with
  | idle => exact absurd rfl busy
  | plain c place =>
      rcases shows with ⟨_, _, p, _, own, carries⟩
      exact ⟨.publish p, _, place, own, carries⟩
  | offering c place stored =>
      rcases shows with ⟨_, _, p, _, own, carries⟩
      exact ⟨.publish p, _, place, own, carries⟩
  | committing c place stored =>
      rcases shows with ⟨_, _, a, _, own, carries⟩
      exact ⟨.ack a, _, place, own, carries⟩

theorem Keeps.congr {c : Cargo} {stored : Bool} (keeps : v.Keeps c stored) (held : w.held = v.held)
    (log : w.log = v.log) : w.Keeps c stored := by
  unfold Keeps at keeps ⊢
  rw [held, log]
  exact keeps

/-- The packet of an exchange moves, and nothing else happens to it. -/
theorem Shows.move (shows : v.Shows id stage) (busy : stage ≠ .idle) (inUse : w.inUse = true)
    (held : w.held = v.held) (log : w.log = v.log)
    (carried : ∀ pkt reply old, pkt.id = id → v.Carries pkt reply old →
      ∃ again, Kin pkt again ∧ ∀ reply, w.Carries again reply place) :
    w.Shows id (stage.put place) := by
  cases stage with
  | idle => exact absurd rfl busy
  | plain c old =>
      rcases shows with ⟨_, none, p, same, own, carries⟩
      rcases carried (.publish p) _ old own carries with ⟨again, kin, there⟩
      cases again with
      | ack a => exact absurd kin fun impossible => impossible
      | publish q =>
          exact ⟨inUse, held.trans none, q, kin.1.trans same, kin.2.trans own, there _⟩
  | offering c old stored =>
      rcases shows with ⟨_, keeps, p, same, own, carries⟩
      rcases carried (.publish p) _ old own carries with ⟨again, kin, there⟩
      cases again with
      | ack a => exact absurd kin fun impossible => impossible
      | publish q =>
          exact ⟨inUse, keeps.congr held log, q, kin.1.trans same, kin.2.trans own, there _⟩
  | committing c old stored =>
      rcases shows with ⟨_, keeps, a, type, own, carries⟩
      rcases carried (.ack a) _ old own carries with ⟨again, kin, there⟩
      cases again with
      | publish q => exact absurd kin fun impossible => impossible
      | ack b => exact ⟨inUse, keeps.congr held log, b, kin.1.trans type, kin.2.trans own, there _⟩

end Stages

end View

section Steps

variable {s next : Exchange} {id : IDType}

/-- A step that changes one exchange only. -/
theorem Paired.update (paired : s.Paired) (id : IDType)
    (others : ∀ other, other ≠ id → next.view other = s.view other)
    (here : (next.view id).Regular id) : next.Paired := by
  intro other
  by_cases same : other = id
  · rw [same]
    exact here
  · rw [others other same]
    exact paired other

/-- The packet with which the client answers. -/
def reply (Version : ProtocolVersion) (mType : PacketType) (id : IDType) (reason : ReasonCode) :
    Ack :=
  ((Ack.new Version mType).setPacketID id).setReason reason

theorem reply_spec (Version : ProtocolVersion) (mType : PacketType) (id : IDType)
    (reason : ReasonCode) :
    (reply Version mType id reason).mType = mType ∧
      idOrZero (reply Version mType id reason).packetID = id ∧
      (reply Version mType id reason).reasonCode =
        if Version = ProtocolV50 then reason else CodeSuccess := by
  by_cases five : Version = ProtocolV50 <;>
    simp [reply, Ack.setReason, Ack.setPacketID, Ack.new, five, idOrZero]

/-- The answer of the client, as its exchange sees it. -/
def View.answer (v : View) (mType : PacketType) (id : IDType) (reason : ReasonCode) : View :=
  { v with replies := v.replies ++ [reply v.Version mType id reason] }

/-- The packet of an exchange has arrived, and its answer is not yet under way. -/
structure View.Arrived (v : View) (pkt : Provider) : Prop where
  queued : v.queued = []
  stored : v.stored = some pkt
  requests : v.requests = []
  replies : v.replies = []

theorem View.Arrived.answer {v : View} {pkt : Provider} (arrived : v.Arrived pkt)
    {accepts : Ack → Prop} {mType : PacketType} {reason : ReasonCode}
    (fits : accepts (reply v.Version mType id reason)) :
    (v.answer mType id reason).Carries pkt accepts .reply :=
  ⟨arrived.queued, arrived.stored, arrived.requests, _, fits, by
    simp [View.answer, arrived.replies]⟩

section Server

variable {server : Outbound} {msg : Ack}

end Server

section Reconnect

variable {v : ProtocolVersion} {order : MapOrder PropertyEntry} {pkt : Provider}

/-- A packet that was sent, as it comes back from the storage. -/
def resumed (v : ProtocolVersion) (order : MapOrder PropertyEntry) (pkt : Provider) :
    Option Provider :=
  match (Queued.unacknowledged pkt).passOn v order with
  | some (.unacknowledged again) => some again
  | _ => none

end Reconnect

/-- Every identifier is in an exchange, and nothing is stored beside the connection. -/
structure Settled (s : Exchange) : Prop where
  paired : s.Paired
  nothing : s.stored = []

end Steps

/-- The connection ends and a new one begins, with nothing else to store. -/
def sampleReconnect : Reconnect where
  Version := ProtocolV311
  SendQuota := 10
  OfflineQoS0 := false
  now := 0
  order := .insertion _
  range := .insertion _
  txGMessages := []
  arrived := [(0, Transmitter.samplePublish ProtocolV311 [0x62] 0x02)]

/-- The PUBREC for a message of QoS 2 is lost with the connection, and another message arrives
before the client comes back. -/
def sampleRun : List Op :=
  [.publish (Transmitter.samplePublish ProtocolV311 [0x61] 0x04), .pop, .clientReceive 1 0,
    .reconnect sampleReconnect, .pop, .clientReceive 1 0, .serverReceive 1, .clientReceive 1 0,
    .serverReceive 1]

end Exchange

end VolantMQ.Clients
