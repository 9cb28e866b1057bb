import VolantMQ.Connection.Inbound
import VolantMQ.Lib.Handshake

/-!
# QoS 2 messages from a client

A client with a persistent session sends QoS 2 messages to the broker: it repeats a PUBLISH until
the PUBREC arrives and a PUBREL until the PUBCOMP arrives, over any number of connections. Packets
of one connection arrive in order; when it breaks, those under way are gone. The broker side is
`onPublish` and the PUBREL case of `onAck` on the state of `Inbound`, which `New` sets up for each
connection. Its ack queue `pubIn` is part of that state: `persist` does not save it.

For each packet identifier this is a handshake in the sense of `Lib.Handshake`, to which the
results about all identifiers are carried over.
-/

namespace VolantMQ.Connection

open Lib Lib.Handshake Packet

/-- An application message: its packet identifier, and how many were sent under it before. -/
structure Message where
  id : IDType
  number : ℕ
  deriving DecidableEq

/-- The contents of a QoS 2 message, before it has an identifier. -/
abbrev Content := { p : Publish // p.qos = QoS2 }

/-- The PUBLISH packet of a message. -/
def Content.packet (content : Content) (id : IDType) (dup : Bool) : Publish :=
  (content.val.setPacketID id).setDup dup

/-- A packet from the client; a PUBREL is marked with the message that the client releases. -/
inductive ToServer where
  | publish (message : Message) (content : Content) (dup : Bool)
  | pubRel (message : Message)
  | other (p : { p : Publish // p.qos ≠ QoS2 })

/-- A packet to the client, marked with the message whose packet it answers. -/
inductive ToClient where
  | pubRec (ack : Ack) (number : ℕ)
  | pubComp (ack : Ack) (number : ℕ)

/-- What the client keeps for a packet identifier. -/
inductive Slot where
  | free
  | waitRec (number : ℕ) (content : Content)
  | waitComp (number : ℕ)

/-- The phase of a handshake that a slot stands for. -/
def Slot.phase : Slot → Phase
  | free => .idle
  | waitRec number _ => .offering number
  | waitComp number => .committing number

/-- The request of a handshake that a packet stands for, if it has the identifier. -/
def ToServer.request (id : IDType) : ToServer → Option Request
  | publish message _ _ => if message.id = id then some (.offer message.number) else none
  | pubRel message => if message.id = id then some (.commit message.number) else none
  | other _ => none

/-- The reply of a handshake that a packet stands for, if it has the identifier. -/
def ToClient.reply (id : IDType) : ToClient → Option Reply
  | pubRec ack number =>
      if idOrZero ack.packetID = id then
        some (.taken number (ack.reasonCode < CodeUnspecifiedError))
      else none
  | pubComp ack number => if idOrZero ack.packetID = id then some (.done number) else none

/-- The numbers of the messages with an identifier. -/
def numbersAt (id : IDType) (messages : List Message) : List ℕ :=
  messages.filterMap fun message => if message.id = id then some message.number else none

/-- A client, its connection and the broker's side of it. -/
structure Session where
  /-- The number of messages sent under an identifier. -/
  count : IDType → ℕ
  slots : IDType → Slot
  toServer : List ToServer
  toClient : List ToClient
  server : Inbound (Option Message)
  /-- The broker has closed the connection. -/
  closed : Bool
  /-- The messages answered with a successful PUBREC. -/
  answered : List Message
  /-- The messages whose PUBCOMP the client has received. -/
  completed : List Message

namespace Session

/-- The QoS 2 messages handed to the topics manager. -/
def forwarded (s : Session) : List Message := s.server.published.filterMap Marked.ref

/-- A client that has sent nothing, on its first connection. -/
def start (Version : ProtocolVersion) (RetainAvailable : Bool) (MaxRxTopicAlias : UInt16)
    (hash : ℕ) : Session :=
  { count := fun _ => 0
    slots := fun _ => .free
    toServer := []
    toClient := []
    server := .new Version RetainAvailable MaxRxTopicAlias hash
    closed := false
    answered := []
    completed := [] }

/-- The client receives the next packet. -/
def clientReceive (s : Session) : Session :=
  match s.toClient with
  | [] => s
  | .pubRec ack _ :: rest =>
      let id := idOrZero ack.packetID
      match s.slots id with
      | .waitRec number _ =>
          if ack.reasonCode < CodeUnspecifiedError then
            { s with
              slots := Function.update s.slots id (.waitComp number)
              toServer := s.toServer ++ [.pubRel ⟨id, number⟩]
              toClient := rest }
          else { s with slots := Function.update s.slots id .free, toClient := rest }
      | _ => { s with toClient := rest }
  | .pubComp ack _ :: rest =>
      let id := idOrZero ack.packetID
      match s.slots id with
      | .waitComp number =>
          { s with
            slots := Function.update s.slots id .free
            toClient := rest
            completed := s.completed ++ [⟨id, number⟩] }
      | _ => { s with toClient := rest }

/-- The broker handles the next packet with `onPublish` or `onAck`. An error of `onPublish` closes
the connection. -/
def serverReceive (s : Session) (deny : GoString → Bool) (now : Time) : Session :=
  match s.toServer with
  | [] => s
  | .publish message content dup :: rest =>
      match s.server.onPublish deny now ⟨some message, content.packet message.id dup⟩ with
      | (server, resp, none) =>
          { s with
            server
            toServer := rest
            toClient := s.toClient ++ (resp.map fun ack => .pubRec ack message.number).toList
            answered := s.answered ++
              if resp.any (fun ack => ack.reasonCode < CodeUnspecifiedError) then [message] else [] }
      | (server, _, some _) => { s with server, toServer := rest, closed := true }
  | .pubRel message :: rest =>
      let msg := (Ack.new s.server.Version .PUBREL).setPacketID message.id
      let (server, resp) := s.server.onPubRel now msg
      { s with server, toServer := rest, toClient := s.toClient ++ [.pubComp resp message.number] }
  | .other p :: rest =>
      match s.server.onPublish deny now ⟨none, p.val⟩ with
      | (server, _, none) => { s with server, toServer := rest }
      | (server, _, some _) => { s with server, toServer := rest, closed := true }

/-- What can happen next. -/
inductive Op where
  | publish (id : IDType) (content : Content)
  | resend (id : IDType)
  | other (p : { p : Publish // p.qos ≠ QoS2 })
  | clientReceive
  | serverReceive (deny : GoString → Bool) (now : Time)
  | close
  | reconnect (Version : ProtocolVersion) (RetainAvailable : Bool) (MaxRxTopicAlias : UInt16)
      (hash : ℕ)

/-- One step. The client reads what is still under way to it before it reconnects, if at all; the
topics manager outlives the connections. -/
def step (s : Session) : Op → Session
  | .publish id content =>
      match s.slots id with
      | .free =>
          { s with
            count := Function.update s.count id (s.count id + 1)
            slots := Function.update s.slots id (.waitRec (s.count id) content)
            toServer := s.toServer ++ [.publish ⟨id, s.count id⟩ content false] }
      | _ => s
  | .resend id =>
      match s.slots id with
      | .free => s
      | .waitRec number content =>
          { s with toServer := s.toServer ++ [.publish ⟨id, number⟩ content true] }
      | .waitComp number => { s with toServer := s.toServer ++ [.pubRel ⟨id, number⟩] }
  | .other p => { s with toServer := s.toServer ++ [.other p] }
  | .clientReceive => s.clientReceive
  | .serverReceive deny now => if s.closed then s else s.serverReceive deny now
  | .close => { s with closed := true }
  | .reconnect Version RetainAvailable MaxRxTopicAlias hash =>
      { s with
        toServer := []
        toClient := []
        closed := false
        server :=
          { (Inbound.new Version RetainAvailable MaxRxTopicAlias hash : Inbound (Option Message)) with
            retained := s.server.retained
            published := s.server.published } }

/-- What is under way, stored and recorded for one identifier. -/
def lane (s : Session) (id : IDType) : Lane :=
  { next := s.count id
    phase := (s.slots id).phase
    requests := s.toServer.filterMap (ToServer.request id)
    replies := s.toClient.filterMap (ToClient.reply id)
    stored := (s.server.pubIn.lookup id).bind fun m => m.ref.map Message.number
    accepted := numbersAt id s.answered
    delivered := numbersAt id s.forwarded
    completed := numbersAt id s.completed }

/-- `publishToTopic` succeeds on the packet: its alias, if it has one, comes with a topic or stands
for one. -/
def Resolves (server : Inbound (Option Message)) (now : Time) (p : Publish) : Prop :=
  ∃ q, (server.postProcessPublish now p).2 = .ok q

/-- What a step must meet so that nothing is lost: the access rules deny a PUBLISH only on a
connection whose PUBREC can say so, a message that is released can be forwarded, and a connection
does not end between the PUBREC that the client has received for a message and the PUBREL. -/
def Careful (s : Session) : Op → Prop
  | .serverReceive deny now =>
      match s.toServer with
      | .publish _ content _ :: _ => deny content.val.topic = true → s.server.Version = ProtocolV50
      | .pubRel message :: _ => ∀ m, s.server.pubIn.lookup message.id = some m →
          Resolves s.server now m.packet
      | _ => True
  | .reconnect _ _ _ _ => ∀ id number, s.slots id = .waitComp number → id ∉ s.server.pubIn
  | _ => True

/-- The ack queue holds messages under their own identifiers. -/
def Filed (s : Session) : Prop :=
  ∀ id m, s.server.pubIn.lookup id = some m → ∃ number, m.ref = some ⟨id, number⟩

/-- A lane stays as it is or takes a step; it loses something only if the step was not careful. -/
def Advances (careful : Prop) (before after : Lane) : Prop :=
  (after = before ∨ Lane.Step before after) ∨ (¬careful ∧ Lane.Loss before after)

section Lanes

variable {s : Session}

theorem lane_publish (id : IDType) (content : Content) (other : IDType) :
    Advances (s.Careful (.publish id content)) (s.lane other)
      ((s.step (.publish id content)).lane other) := by
  simp only [step]
  cases slot : s.slots id with
  | waitRec number content => exact .inl (.inl rfl)
  | waitComp number => exact .inl (.inl rfl)
  | free =>
      left
      by_cases same : id = other
      · subst other
        right
        have phase : (s.lane id).phase = .idle := by simp [lane, slot, Slot.phase]
        have next := Lane.Step.offer phase
        simpa [lane, forwarded, Slot.phase, ToServer.request] using next
      · left
        simp [lane, forwarded, ToServer.request, same, Ne.symm same]

theorem lane_resend (id : IDType) (other : IDType) :
    Advances (s.Careful (.resend id)) (s.lane other) ((s.step (.resend id)).lane other) := by
  simp only [step]
  cases slot : s.slots id with
  | free => exact .inl (.inl rfl)
  | waitRec number content =>
      left
      by_cases same : id = other
      · subst other
        right
        have phase : (s.lane id).phase = .offering number := by simp [lane, slot, Slot.phase]
        have next := Lane.Step.offerAgain phase
        simpa [lane, forwarded, ToServer.request] using next
      · left
        simp [lane, forwarded, ToServer.request, same]
  | waitComp number =>
      left
      by_cases same : id = other
      · subst other
        right
        have phase : (s.lane id).phase = .committing number := by simp [lane, slot, Slot.phase]
        have next := Lane.Step.commitAgain phase
        simpa [lane, forwarded, ToServer.request] using next
      · left
        simp [lane, forwarded, ToServer.request, same]

theorem lane_clientReceive (other : IDType) :
    Lane.Step (s.lane other) (s.clientReceive.lane other) ∨
      s.clientReceive.lane other = s.lane other := by
  simp only [clientReceive]
  cases queue : s.toClient with
  | nil => exact .inr rfl
  | cons packet rest =>
      cases packet with
      | pubRec ack number =>
          simp only
          by_cases same : idOrZero ack.packetID = other
          · left
            subst other
            have front : (s.lane (idOrZero ack.packetID)).replies =
                .taken number (ack.reasonCode < CodeUnspecifiedError) ::
                  rest.filterMap (ToClient.reply (idOrZero ack.packetID)) := by
              simp [lane, queue, ToClient.reply]
            cases slot : s.slots (idOrZero ack.packetID) with
            | free =>
                have next := Lane.Step.ignore front
                simpa [lane, forwarded] using next
            | waitComp current =>
                have next := Lane.Step.ignore front
                simpa [lane, forwarded] using next
            | waitRec current content =>
                have phase : (s.lane (idOrZero ack.packetID)).phase = .offering current := by
                  simp [lane, slot, Slot.phase]
                by_cases success : ack.reasonCode < CodeUnspecifiedError
                · simp only [success, decide_true] at front
                  have next := Lane.Step.proceed phase front
                  simpa [lane, forwarded, success, Slot.phase, ToServer.request] using next
                · simp only [success, decide_false] at front
                  have next := Lane.Step.giveUp phase front
                  simpa [lane, forwarded, success, Slot.phase] using next
          · right
            cases s.slots (idOrZero ack.packetID) with
            | free => simp [lane, forwarded, queue, ToClient.reply, same]
            | waitComp current => simp [lane, forwarded, queue, ToClient.reply, same]
            | waitRec current content =>
                by_cases success : ack.reasonCode < CodeUnspecifiedError
                · simp [lane, forwarded, queue, ToClient.reply, ToServer.request, success, same,
                    Ne.symm same]
                · simp [lane, forwarded, queue, ToClient.reply, success, same, Ne.symm same]
      | pubComp ack number =>
          simp only
          by_cases same : idOrZero ack.packetID = other
          · left
            subst other
            have front : (s.lane (idOrZero ack.packetID)).replies = .done number ::
                rest.filterMap (ToClient.reply (idOrZero ack.packetID)) := by
              simp [lane, queue, ToClient.reply]
            cases slot : s.slots (idOrZero ack.packetID) with
            | free =>
                have next := Lane.Step.ignore front
                simpa [lane, forwarded] using next
            | waitRec current content =>
                have next := Lane.Step.ignore front
                simpa [lane, forwarded] using next
            | waitComp current =>
                have phase : (s.lane (idOrZero ack.packetID)).phase = .committing current := by
                  simp [lane, slot, Slot.phase]
                have next := Lane.Step.finish phase front
                simpa [lane, forwarded, Slot.phase, numbersAt] using next
          · right
            cases s.slots (idOrZero ack.packetID) with
            | free => simp [lane, forwarded, queue, ToClient.reply, same]
            | waitRec current content => simp [lane, forwarded, queue, ToClient.reply, same]
            | waitComp current =>
                simp [lane, forwarded, queue, ToClient.reply, numbersAt, same, Ne.symm same]

theorem qos_packet (content : Content) (id : IDType) (dup : Bool) :
    (content.packet id dup).qos = QoS2 := by
  have apart : ~~~Publish.maskPublishFlagDup &&& Publish.maskPublishFlagQoS =
      Publish.maskPublishFlagQoS := by
    decide
  have same : Publish.putFlag content.val.mFlags Publish.maskPublishFlagDup dup &&&
      Publish.maskPublishFlagQoS = content.val.mFlags &&& Publish.maskPublishFlagQoS := by
    cases dup with
    | true =>
        rw [Publish.putFlag, if_pos rfl, ← UInt8.toBitVec_inj, UInt8.toBitVec_and,
          UInt8.toBitVec_or, BitVec.and_or_distrib_right]
        exact BitVec.or_zero
    | false => rw [Publish.putFlag, if_neg (by decide), UInt8.and_assoc, apart]
  rw [← content.property]
  simp only [Publish.qos, Content.packet, Publish.setDup, Publish.setPacketID, same]

theorem reply_spec (server : Inbound (Option Message)) (mType : PacketType) (p : Publish)
    (reason : ReasonCode) :
    (server.reply mType p reason).packetID = some (idOrZero p.packetID) ∧
      (server.reply mType p reason).reasonCode =
        if server.Version = ProtocolV50 then reason else CodeSuccess := by
  by_cases five : server.Version = ProtocolV50 <;>
    simp [Inbound.reply, Ack.setReason, Ack.setPacketID, Ack.new, five]

/-- The answer to a QoS 2 PUBLISH: an error that closes the connection, or a PUBREC. The message is
stored unless the access rules deny it, which the PUBREC says only in V5.0. -/
theorem onPublish_qos2 (server : Inbound (Option Message)) (deny : GoString → Bool) (now : Time)
    (message : Message) (content : Content) (dup : Bool) :
    let m : Marked (Option Message) := ⟨some message, content.packet message.id dup⟩
    (∃ e, server.onPublish deny now m = (server, none, some e)) ∨
      ∃ ack : Ack, ack.packetID = some message.id ∧
        ((deny content.val.topic = false ∧ ack.reasonCode = CodeSuccess ∧
            server.onPublish deny now m = (server.store m, some ack, none)) ∨
          (deny content.val.topic = true ∧
            (ack.reasonCode < CodeUnspecifiedError ↔ server.Version ≠ ProtocolV50) ∧
            server.onPublish deny now m = (server, some ack, none))) := by
  intro m
  have qos : m.packet.qos = QoS2 := qos_packet content message.id dup
  unfold Inbound.onPublish
  cases server.preProcessPublish m.packet with
  | error e => exact .inl ⟨e, rfl⟩
  | ok done =>
      refine .inr ⟨server.reply .PUBREC m.packet (Inbound.reasonFor deny content.val.topic), ?_, ?_⟩
      · exact (reply_spec server .PUBREC m.packet _).1
      · have topic : m.packet.topic = content.val.topic := rfl
        simp only [qos, if_true, topic]
        rw [(reply_spec server .PUBREC m.packet _).2]
        cases denied : deny content.val.topic with
        | false =>
            simp only [Inbound.reasonFor, denied, Bool.false_eq_true, if_false, ite_self]
            exact .inl ⟨trivial, trivial, rfl⟩
        | true =>
            simp only [Inbound.reasonFor, denied, if_true]
            refine .inr ⟨trivial, ?_, rfl⟩
            by_cases five : server.Version = ProtocolV50
            · rw [if_pos five]
              exact iff_of_false (by decide) (not_not.mpr five)
            · rw [if_neg five]
              exact iff_of_true (by decide) five

/-- `publishToTopic` for a stored message: it is handed over, unless its alias cannot be resolved. -/
theorem publishToTopic_cases (server : Inbound (Option Message)) (now : Time)
    (m : Marked (Option Message)) :
    (server.publishToTopic now m).1.pubIn = server.pubIn ∧
      (((server.publishToTopic now m).1.published.filterMap Marked.ref =
          server.published.filterMap Marked.ref ++ m.ref.toList) ∨
        (¬Resolves server now m.packet ∧
          (server.publishToTopic now m).1.published = server.published)) := by
  rcases server.publishToTopic_frame now m with ⟨table, ⟨e, run⟩ | ⟨packet, run⟩⟩
  · have failed : ¬Resolves server now m.packet := by
      rintro ⟨q, resolved⟩
      rw [Inbound.publishToTopic] at run
      rcases post : server.postProcessPublish now m.packet with ⟨next, result⟩
      rw [post] at resolved run
      simp only at resolved
      subst resolved
      simp at run
    rw [run]
    exact ⟨rfl, .inr ⟨failed, rfl⟩⟩
  · rw [run]
    refine ⟨rfl, .inl ?_⟩
    cases m.ref <;> simp [Inbound.handOver]

theorem lane_servePublish {message : Message} {content : Content} {dup : Bool}
    {rest : List ToServer} (queue : s.toServer = .publish message content dup :: rest)
    (deny : GoString → Bool) (now : Time) (other : IDType) :
    Advances (deny content.val.topic = true → s.server.Version = ProtocolV50) (s.lane other)
      ((s.serverReceive deny now).lane other) := by
  simp only [serverReceive, queue]
  have answer := onPublish_qos2 s.server deny now message content dup
  simp only at answer
  have front : message.id = other → (s.lane other).requests =
      .offer message.number :: rest.filterMap (ToServer.request other) := by
    intro same
    simp [lane, queue, ToServer.request, same]
  rcases answer with ⟨e, run⟩ | ⟨ack, own, ⟨allowed, success, run⟩ | ⟨denied, code, run⟩⟩
  · simp only [run]
    left
    by_cases same : message.id = other
    · right
      have next := Lane.Step.drop (front same)
      simpa [lane, forwarded] using next
    · left
      simp [lane, forwarded, queue, ToServer.request, same]
  · simp only [run]
    left
    have accepted : ack.reasonCode < CodeUnspecifiedError := by
      rw [success]
      decide
    by_cases same : message.id = other
    · right
      have next := Lane.Step.store (front same)
      subst other
      simpa [lane, forwarded, Inbound.store, ToClient.reply, own, accepted, idOrZero, Content.packet,
        Publish.setDup, Publish.setPacketID, numbersAt] using next
    · left
      simp [lane, forwarded, queue, ToServer.request, same, Inbound.store, ToClient.reply, own,
        accepted, idOrZero, Content.packet, Publish.setDup, Publish.setPacketID, numbersAt,
        AList.lookup_insert_ne (Ne.symm same)]
  · simp only [run]
    by_cases five : s.server.Version = ProtocolV50
    · left
      have refused : ¬ack.reasonCode < CodeUnspecifiedError := fun low => code.mp low five
      by_cases same : message.id = other
      · right
        have next := Lane.Step.refuse (front same)
        simpa [lane, forwarded, ToClient.reply, own, refused, idOrZero, same] using next
      · left
        simp [lane, forwarded, queue, ToServer.request, same, ToClient.reply, own, refused, idOrZero]
    · have accepted : ack.reasonCode < CodeUnspecifiedError := code.mpr five
      by_cases same : message.id = other
      · right
        refine ⟨fun careful => five (careful denied), ?_⟩
        have next := Lane.Loss.mislead (front same)
        simpa [lane, forwarded, ToClient.reply, own, accepted, idOrZero, same, numbersAt] using next
      · refine .inl (.inl ?_)
        simp [lane, forwarded, queue, ToServer.request, same, ToClient.reply, own, accepted, idOrZero,
          numbersAt]

theorem lane_servePubRel (filed : s.Filed) {message : Message} {rest : List ToServer}
    (queue : s.toServer = .pubRel message :: rest) (deny : GoString → Bool) (now : Time)
    (other : IDType) :
    Advances (∀ m, s.server.pubIn.lookup message.id = some m → Resolves s.server now m.packet)
      (s.lane other) ((s.serverReceive deny now).lane other) := by
  simp only [serverReceive, queue, Inbound.onPubRel, Ack.setPacketID, Ack.new, idOrZero,
    Option.getD_some, Inbound.release]
  have front : message.id = other → (s.lane other).requests =
      .commit message.number :: rest.filterMap (ToServer.request other) := by
    intro same
    simp [lane, queue, ToServer.request, same]
  cases look : s.server.pubIn.lookup message.id with
  | none =>
      left
      by_cases same : message.id = other
      · right
        subst other
        have empty : (s.lane message.id).stored = none := by simp [lane, look]
        have next := Lane.Step.answer (front rfl) empty
        simpa [lane, forwarded, ToClient.reply, idOrZero] using next
      · left
        simp [lane, forwarded, queue, ToServer.request, ToClient.reply, idOrZero, same]
  | some m =>
      rcases filed message.id m look with ⟨number, mark⟩
      have holds : (s.lane message.id).stored = some number := by simp [lane, look, mark]
      rcases publishToTopic_cases s.server now m with ⟨pubIn, handed | ⟨failed, kept⟩⟩
      · left
        rw [mark] at handed
        by_cases same : message.id = other
        · right
          subst other
          have next := Lane.Step.deliver (front rfl) holds
          simpa [lane, forwarded, ToClient.reply, idOrZero, pubIn, handed, numbersAt] using next
        · left
          simp [lane, forwarded, queue, ToServer.request, ToClient.reply, idOrZero, same, pubIn,
            handed, numbersAt, AList.lookup_erase_ne (Ne.symm same)]
      · by_cases same : message.id = other
        · right
          refine ⟨fun careful => failed (careful m rfl), ?_⟩
          subst other
          have next := Lane.Loss.discard (front rfl)
          simpa [lane, forwarded, ToClient.reply, idOrZero, pubIn, kept] using next
        · refine .inl (.inl ?_)
          simp [lane, forwarded, queue, ToServer.request, ToClient.reply, idOrZero, same, pubIn, kept,
            AList.lookup_erase_ne (Ne.symm same)]

/-- Messages of QoS 0 and 1 do not touch the ack queue. -/
theorem onPublish_other (server : Inbound (Option Message)) (deny : GoString → Bool) (now : Time)
    (p : { p : Publish // p.qos ≠ QoS2 }) :
    (server.onPublish deny now ⟨none, p.val⟩).1.pubIn = server.pubIn ∧
      (server.onPublish deny now ⟨none, p.val⟩).1.published.filterMap Marked.ref =
        server.published.filterMap Marked.ref := by
  rcases server.onPublish_cases deny now ⟨none, p.val⟩ with same | ⟨two, _⟩ | ⟨_, handed⟩
  · rw [same]
    exact ⟨rfl, rfl⟩
  · exact absurd two p.property
  · rw [handed]
    rcases publishToTopic_cases server now ⟨none, p.val⟩ with ⟨pubIn, forwarded | ⟨_, kept⟩⟩
    · exact ⟨pubIn, by simpa using forwarded⟩
    · exact ⟨pubIn, by rw [kept]⟩

theorem lane_serveOther {p : { p : Publish // p.qos ≠ QoS2 }} {rest : List ToServer}
    (queue : s.toServer = .other p :: rest) (deny : GoString → Bool) (now : Time)
    (other : IDType) : (s.serverReceive deny now).lane other = s.lane other := by
  rcases onPublish_other s.server deny now p with ⟨pubIn, published⟩
  rcases run : s.server.onPublish deny now ⟨none, p.val⟩ with ⟨next, resp, err⟩
  rw [run] at pubIn published
  simp only at pubIn published
  have nothing : ToServer.request other (.other p) = none := rfl
  simp only [serverReceive, queue, run]
  cases err <;>
    simp [lane, forwarded, queue, List.filterMap_cons_none nothing, pubIn, published]

/-- What one step does to each identifier. -/
theorem lane_step (filed : s.Filed) (op : Op) (other : IDType) :
    Advances (s.Careful op) (s.lane other) ((s.step op).lane other) := by
  cases op with
  | publish id content => exact lane_publish id content other
  | resend id => exact lane_resend id other
  | other p => exact .inl (.inl (by simp [step, lane, forwarded, ToServer.request]))
  | close => exact .inl (.inl rfl)
  | clientReceive =>
      rcases lane_clientReceive other with stepped | same
      · exact .inl (.inr stepped)
      · exact .inl (.inl same)
  | serverReceive deny now =>
      simp only [step]
      split
      · exact .inl (.inl rfl)
      · cases queue : s.toServer with
        | nil => exact .inl (.inl (by simp [serverReceive, queue]))
        | cons packet rest =>
            cases packet with
            | publish message content dup =>
                simp only [Careful, queue]
                exact lane_servePublish queue deny now other
            | pubRel message =>
                simp only [Careful, queue]
                exact lane_servePubRel filed queue deny now other
            | other p => exact .inl (.inl (lane_serveOther queue deny now other))
  | reconnect Version RetainAvailable MaxRxTopicAlias hash =>
      have fresh : (s.step (.reconnect Version RetainAvailable MaxRxTopicAlias hash)).lane other =
          (s.lane other).reset := by
        simp [step, lane, forwarded, Lane.reset, Inbound.new]
      rw [fresh]
      by_cases careful : s.Careful (.reconnect Version RetainAvailable MaxRxTopicAlias hash)
      · refine .inl (.inr (Lane.Step.reset fun n phase => ?_))
        cases slot : s.slots other with
        | free => simp [lane, slot, Slot.phase] at phase
        | waitRec number content => simp [lane, slot, Slot.phase] at phase
        | waitComp number =>
            have absent := AList.lookup_eq_none.mpr (careful other number slot)
            simp [lane, absent]
      · exact .inr ⟨careful, Lane.Loss.reset⟩

end Lanes

theorem filed_serverReceive {s : Session} (filed : s.Filed) (deny : GoString → Bool) (now : Time) :
    (s.serverReceive deny now).Filed := by
  cases queue : s.toServer with
  | nil => simpa [serverReceive, queue] using filed
  | cons packet rest =>
      cases packet with
      | publish message content dup =>
          have answer := onPublish_qos2 s.server deny now message content dup
          simp only at answer
          simp only [serverReceive, queue]
          rcases answer with ⟨e, run⟩ | ⟨ack, own, ⟨_, _, run⟩ | ⟨_, _, run⟩⟩
          · rw [run]
            exact filed
          · rw [run]
            intro id m look
            by_cases same : id = message.id
            · subst id
              have stored : m = ⟨some message, content.packet message.id dup⟩ := by
                rw [← Option.some.injEq, ← look]
                exact AList.lookup_insert _
              exact ⟨message.number, by rw [stored]⟩
            · refine filed id m ?_
              rw [← look]
              exact (AList.lookup_insert_ne same).symm
          · rw [run]
            exact filed
      | pubRel message =>
          simp only [serverReceive, queue, Inbound.onPubRel, Ack.setPacketID, idOrZero,
            Option.getD_some, Inbound.release]
          cases look : s.server.pubIn.lookup message.id with
          | none => exact filed
          | some stored =>
              have pubIn := (publishToTopic_cases s.server now stored).1
              intro id m found
              simp only [pubIn] at found
              by_cases same : id = message.id
              · subst id
                simp at found
              · rw [AList.lookup_erase_ne same] at found
                exact filed id m found
      | other p =>
          have pubIn := (onPublish_other s.server deny now p).1
          rcases run : s.server.onPublish deny now ⟨none, p.val⟩ with ⟨next, resp, err⟩
          rw [run] at pubIn
          simp only [serverReceive, queue, run]
          cases err <;> exact fun id m look => filed id m (pubIn ▸ look)

/-- The ack queue files messages under their own identifiers at all times. -/
theorem filed_step {s : Session} (filed : s.Filed) (op : Op) : (s.step op).Filed := by
  cases op with
  | publish id content =>
      simp only [step]
      split <;> exact filed
  | resend id =>
      simp only [step]
      split <;> exact filed
  | other p => exact filed
  | close => exact filed
  | reconnect Version RetainAvailable MaxRxTopicAlias hash =>
      intro id m look
      simp [step, Inbound.new] at look
  | clientReceive =>
      simp only [step, clientReceive]
      repeat' split
      all_goals exact filed
  | serverReceive deny now =>
      simp only [step]
      split
      · exact filed
      · exact filed_serverReceive filed deny now

theorem start_filed (Version : ProtocolVersion) (RetainAvailable : Bool) (MaxRxTopicAlias : UInt16)
    (hash : ℕ) : (start Version RetainAvailable MaxRxTopicAlias hash).Filed := by
  simp [Filed, start, Inbound.new]

theorem mem_numbersAt {message : Message} {messages : List Message} :
    message.number ∈ numbersAt message.id messages ↔ message ∈ messages := by
  simp only [numbersAt, List.mem_filterMap, Option.ite_none_right_eq_some, Option.some.injEq]
  constructor
  · rintro ⟨other, member, sameID, sameNumber⟩
    rcases message with ⟨id, number⟩
    rcases other with ⟨id', number'⟩
    simp only at sameID sameNumber
    subst sameID sameNumber
    exact member
  · exact fun member => ⟨message, member, rfl, rfl⟩

/-- Messages are different if those of each identifier are. -/
theorem nodup_of_numbersAt {messages : List Message}
    (each : ∀ id, (numbersAt id messages).Nodup) : messages.Nodup := by
  induction messages with
  | nil => exact List.nodup_nil
  | cons message messages ih =>
      rw [List.nodup_cons]
      constructor
      · have own := each message.id
        simp only [numbersAt, List.filterMap_cons, if_true, List.nodup_cons] at own
        exact fun member => own.1 (mem_numbersAt.mpr member)
      · refine ih fun id => (each id).sublist ?_
        exact (List.sublist_cons_self message messages).filterMap _

section Runs

variable (Version : ProtocolVersion) (RetainAvailable : Bool) (MaxRxTopicAlias : UInt16) (hash : ℕ)

theorem lane_start (id : IDType) :
    (start Version RetainAvailable MaxRxTopicAlias hash).lane id = Lane.fresh := by
  simp [start, lane, forwarded, Lane.fresh, numbersAt, Inbound.new, Slot.phase]

/-- In every run, each QoS 2 message is handed to the topics manager at most once. -/
theorem forwarded_at_most_once (ops : List Op) :
    (ops.foldl step (start Version RetainAvailable MaxRxTopicAlias hash)).forwarded.Nodup := by
  have kept : ∀ (s : Session) (op : Op), (s.Filed ∧ ∀ id, (s.lane id).Ordered) →
      (s.step op).Filed ∧ ∀ id, ((s.step op).lane id).Ordered := by
    rintro s op ⟨filed, ordered⟩
    refine ⟨filed_step filed op, fun id => ?_⟩
    rcases lane_step filed op id with (same | stepped) | ⟨_, lost⟩
    · rw [same]
      exact ordered id
    · exact Lane.ordered_step (ordered id) stepped
    · exact Lane.ordered_loss (ordered id) lost
  have first : (start Version RetainAvailable MaxRxTopicAlias hash).Filed ∧
      ∀ id, ((start Version RetainAvailable MaxRxTopicAlias hash).lane id).Ordered :=
    ⟨start_filed _ _ _ _, fun id => by rw [lane_start]; exact Lane.ordered_fresh⟩
  have last := invariant_run _ kept first ops
  exact nodup_of_numbersAt fun id => (last.2 id).once

/-- In every run of careful steps, a message that was answered with a successful PUBREC and whose
PUBCOMP the client has received was handed to the topics manager. -/
theorem completed_forwarded {ops : List Op}
    (careful : Along step Careful (start Version RetainAvailable MaxRxTopicAlias hash) ops) :
    ∀ message ∈ (ops.foldl step (start Version RetainAvailable MaxRxTopicAlias hash)).completed,
      message ∈ (ops.foldl step (start Version RetainAvailable MaxRxTopicAlias hash)).answered →
      message ∈ (ops.foldl step (start Version RetainAvailable MaxRxTopicAlias hash)).forwarded := by
  have kept : ∀ (s : Session) (op : Op),
      (s.Filed ∧ ∀ id, (s.lane id).Ordered ∧ (s.lane id).Sure) → s.Careful op →
      (s.step op).Filed ∧ ∀ id, ((s.step op).lane id).Ordered ∧ ((s.step op).lane id).Sure := by
    rintro s op ⟨filed, sure⟩ isCareful
    refine ⟨filed_step filed op, fun id => ?_⟩
    rcases lane_step filed op id with (same | stepped) | ⟨careless, _⟩
    · rw [same]
      exact sure id
    · exact ⟨Lane.ordered_step (sure id).1 stepped, Lane.sure_step (sure id).1 (sure id).2 stepped⟩
    · exact absurd isCareful careless
  have first : (start Version RetainAvailable MaxRxTopicAlias hash).Filed ∧
      ∀ id, ((start Version RetainAvailable MaxRxTopicAlias hash).lane id).Ordered ∧
        ((start Version RetainAvailable MaxRxTopicAlias hash).lane id).Sure :=
    ⟨start_filed _ _ _ _, fun id => by
      rw [lane_start]
      exact ⟨Lane.ordered_fresh, Lane.sure_fresh⟩⟩
  have last := careful.invariant _ kept first
  intro message completed answered
  exact mem_numbersAt.mp ((last.2 message.id).2.kept message.number (mem_numbersAt.mpr completed)
    (mem_numbersAt.mpr answered))

end Runs

/-- A QoS 2 message to the topic `a`. -/
def sample : Content := ⟨{ Publish.new ProtocolV311 with mFlags := 4, topic := ascii "a" }, rfl⟩

/-- The handshake without interruption, with a resent PUBLISH. -/
theorem completed_forwarded_sample :
    let ops : List Op :=
      [.publish 1 sample, .resend 1, .serverReceive (fun _ => false) 0, .clientReceive,
        .serverReceive (fun _ => false) 0, .serverReceive (fun _ => false) 0, .clientReceive,
        .clientReceive]
    let s := ops.foldl step (start ProtocolV311 true 0 0)
    s.completed = [⟨1, 0⟩] ∧
      ∀ message ∈ s.completed, message ∈ s.answered → message ∈ s.forwarded := by
  intro ops s
  refine ⟨rfl, completed_forwarded ProtocolV311 true 0 0 ?_⟩
  have allowed : ∀ {p : Prop}, (false = true → p) := fun impossible => by simp at impossible
  exact ⟨trivial, trivial, allowed, trivial, allowed, fun m _ => ⟨m.packet, rfl⟩, trivial, trivial,
    trivial⟩

/-- The connection breaks after the client has received the PUBREC. On the next connection the
PUBREL finds an empty ack queue, and the message is completed without being forwarded. -/
theorem completed_unforwarded :
    let ops : List Op :=
      [.publish 1 sample, .serverReceive (fun _ => false) 0, .clientReceive,
        .reconnect ProtocolV311 true 0 0, .resend 1, .serverReceive (fun _ => false) 0,
        .clientReceive]
    let s := ops.foldl step (start ProtocolV311 true 0 0)
    s.answered = [⟨1, 0⟩] ∧ s.completed = [⟨1, 0⟩] ∧ s.forwarded = [] ∧
      ¬∀ message ∈ s.completed, message ∈ s.answered → message ∈ s.forwarded := by
  intro ops s
  have answered : s.answered = [⟨1, 0⟩] := rfl
  have completed : s.completed = [⟨1, 0⟩] := rfl
  have forwarded : s.forwarded = [] := rfl
  refine ⟨answered, completed, forwarded, ?_⟩
  rw [answered, completed, forwarded]
  simp

end Session

end VolantMQ.Connection
