import VolantMQ.Broker.Downgrade
import VolantMQ.Connection.Outbound
import VolantMQ.Packet.Request

/-!
# The responses of a connection

What `onSubscribe` and `onUnSubscribe` answer and what they do to the subscriptions, and which
responses of a connection are packets that its client can read.

A SUBACK is right: one code for each filter, the QoS that was asked for. An UNSUBACK is not: the
handler mixes up the two codes, the setter takes them for QoS values and refuses one of them, and
the encoder writes none. The reason that is given to a client without the right to publish is no
reason of a PUBACK or PUBREC.
-/

namespace VolantMQ.Broker

open Lib Packet Connection Topics

/-- The options that the last of several filters that are the same asks for. -/
def lastOptions (topics : List (GoString × SubscriptionOptions)) (filter : GoString) :
    Option SubscriptionOptions :=
  topics.reverse.lookup filter

/-- The loop of `onSubscribe` leaves for each of its filters the last options, and all other
subscriptions as they were. -/
theorem params_subscribeTopics (s : Hash) (subsID : UInt32) (now : Time)
    (topics : List (GoString × SubscriptionOptions)) (mT : Topics.Provider) (filter : GoString)
    (other : Hash) :
    (subscribeTopics s subsID now topics mT).1.params filter other =
      match lastOptions topics filter with
      | none => mT.params filter other
      | some ops =>
          if other = s then some ⟨subsID, ops, SubscriptionOptions.qos ops⟩
          else mT.params filter other := by
  induction topics generalizing mT with
  | nil => rfl
  | cons topic topics ih =>
      rcases topic with ⟨t, ops⟩
      have last : lastOptions ((t, ops) :: topics) filter =
          (lastOptions topics filter).or (if filter = t then some ops else none) := by
        simp only [lastOptions, List.reverse_cons, List.lookup_append, List.lookup_cons,
          List.lookup_nil]
        by_cases same : filter = t
        · simp [same]
        · have differs : (filter == t) = false := by simpa using same
          simp [same, differs]
      simp only [subscribeTopics, ih, last, Topics.Provider.params_subscribe]
      cases lastOptions topics filter with
      | some later => by_cases own : other = s <;> simp [own]
      | none => by_cases same : filter = t <;> by_cases own : other = s <;> simp [same, own]

/-- What `onSubscribe` does with a SUBSCRIBE that `Decode` has accepted. -/
theorem onSubscribe_law {v : ProtocolVersion} {buf : Bytes} {h : Header}
    {topics : List (GoString × SubscriptionOptions)} {n : ℕ}
    (decoded : decode v buf = .ok (.control h (.subscribe topics), n)) (b : Broker) (s : Hash)
    (now : Time) :
    let msg := Subscribe.ofBody h topics
    let result := b.onSubscribe v s msg now
    (∃ id, h.packetID = some id ∧
      result.2 = some ⟨v, some id, topics.map fun topic => SubscriptionOptions.qos topic.2⟩) ∧
    result.1.topics = (subscribeTopics s msg.subscriptionID now topics b.topics).1 := by
  intro msg result
  have requested := Subscribe.requested_of_decode decoded
  rcases requested.identified with ⟨id, identified⟩
  have codes : (b.answers s msg now).map Prod.fst =
      topics.map fun topic => SubscriptionOptions.qos topic.2 :=
    codes_subscribeTopics s msg.subscriptionID now topics b.topics
  have valid : ∀ code ∈ (b.answers s msg now).map Prod.fst, QosType.isValid code = true := by
    intro code member
    rw [codes] at member
    rcases List.mem_map.mp member with ⟨topic, topicMem, rfl⟩
    exact (requested.accepted topic topicMem).qos
  have whole : result = _ := onSubscribe_eq b v s now valid
  refine ⟨⟨id, identified, ?_⟩, by rw [whole]; rfl⟩
  rw [whole, codes]
  simp only [msg, Subscribe.ofBody, identified]
  rfl

/-- For every SUBSCRIBE that `Decode` accepts, `onSubscribe` answers with the identifier of the
packet and, in order, the QoS that each filter asks for; afterwards the subscriber has each of the
filters with the options of its last occurrence and the QoS of that code, and nothing else has
changed. -/
theorem onSubscribe_acknowledges {v : ProtocolVersion} {buf : Bytes} {h : Header}
    {topics : List (GoString × SubscriptionOptions)} {n : ℕ}
    (decoded : decode v buf = .ok (.control h (.subscribe topics), n)) (b : Broker) (s : Hash)
    (now : Time) :
    let msg := Subscribe.ofBody h topics
    let result := b.onSubscribe v s msg now
    (∃ id, h.packetID = some id ∧
      result.2 = some ⟨v, some id, topics.map fun topic => SubscriptionOptions.qos topic.2⟩) ∧
    (∀ filter ops, lastOptions topics filter = some ops → result.1.topics.params filter s =
      some ⟨msg.subscriptionID, ops, SubscriptionOptions.qos ops⟩) ∧
    ∀ filter other, other ≠ s ∨ lastOptions topics filter = none →
      result.1.topics.params filter other = b.topics.params filter other := by
  intro msg result
  rcases onSubscribe_law decoded b s now with ⟨answered, topicsAfter⟩
  refine ⟨answered, ?_, ?_⟩
  · intro filter ops last
    rw [topicsAfter, params_subscribeTopics, last]
    exact if_pos rfl
  · intro filter other different
    rw [topicsAfter, params_subscribeTopics]
    cases last : lastOptions topics filter with
    | none => rfl
    | some ops =>
        rw [last] at different
        have distinct : other ≠ s := by simpa using different
        simp [distinct]

/-- The V3.1.1 SUBSCRIBE with identifier 10 for the filter `a`, first with QoS 1 and then with
QoS 2. -/
def repeatedSubscribe : Bytes :=
  [0x82, 0x0A, 0x00, 0x0A, 0x00, 0x01, 0x61, 0x01, 0x00, 0x01, 0x61, 0x02]

theorem repeatedSubscribe_acknowledged :
    ∃ h n, decode ProtocolV311 repeatedSubscribe =
        .ok (.control h (.subscribe [(ascii "a", 1), (ascii "a", 2)]), n) ∧
      let result := (Broker.new false).onSubscribe ProtocolV311 1
        (.ofBody h [(ascii "a", 1), (ascii "a", 2)]) 0
      result.2 = some ⟨ProtocolV311, some 10, [1, 2]⟩ ∧
        result.1.topics.params (ascii "a") 1 = some ⟨0, 2, 2⟩ := by
  have decoded : ∃ n, decode ProtocolV311 repeatedSubscribe =
      .ok (.control { Header.new ProtocolV311 .SUBSCRIBE with packetID := some 10 }
        (.subscribe [(ascii "a", 1), (ascii "a", 2)]), n) := ⟨12, rfl⟩
  rcases decoded with ⟨n, decoded⟩
  rcases onSubscribe_acknowledges decoded (Broker.new false) 1 0 with
    ⟨⟨id, identified, answered⟩, holds, _⟩
  refine ⟨_, n, decoded, ?_, holds (ascii "a") 2 (by decide)⟩
  rw [answered, ← identified]
  rfl

/-- The loop of `onUnSubscribe` over the filters of a packet with the codes it collects. It takes
the code for a subscription that did not exist where `UnSubscribe` returns no error. -/
def unSubscribeTopics (s : Hash) :
    List GoString → Topics.Provider → Topics.Provider × List ReasonCode
  | [], mT => (mT, [])
  | t :: topics, mT =>
      let (mT, err) := mT.unSubscribe t (some s)
      let reason :=
        match err with
        | some _ => CodeSuccess
        | none => CodeNoSubscriptionExisted
      let (mT, retCodes) := unSubscribeTopics s topics mT
      (mT, reason :: retCodes)

/-- `onUnSubscribe` of a connection of version `v` with subscriber `s`. The error of
`AddReturnCodes` is ignored. -/
def onUnSubscribe (b : Broker) (v : ProtocolVersion) (s : Hash) (msg : UnSubscribe) :
    Broker × UnSubAck :=
  let (topics, retCodes) := unSubscribeTopics s msg.topics b.topics
  ({ b with topics },
    (((UnSubAck.new v).setPacketID (idOrZero msg.packetID)).addReturnCodes retCodes).1)

/-- The codes that an UNSUBACK has to carry: for each filter whether there was a subscription at
that point. -/
def dueCodes (s : Hash) : List GoString → Topics.Provider → List ReasonCode
  | [], _ => []
  | t :: topics, mT =>
      (if (mT.params t s).isSome then CodeSuccess else CodeNoSubscriptionExisted) ::
        dueCodes s topics (mT.unSubscribe t (some s)).1

theorem length_dueCodes (s : Hash) (topics : List GoString) (mT : Topics.Provider) :
    (dueCodes s topics mT).length = topics.length := by
  induction topics generalizing mT with
  | nil => rfl
  | cons t topics ih => simp only [dueCodes, List.length_cons, ih]

/-- What unsubscribing from some filters leaves. -/
theorem params_unSubscribeTopics (s : Hash) (topics : List GoString) (mT : Topics.Provider)
    (filter : GoString) (other : Hash) :
    (unSubscribeTopics s topics mT).1.params filter other =
      if filter ∈ topics ∧ other = s then none else mT.params filter other := by
  induction topics generalizing mT with
  | nil => simp [unSubscribeTopics]
  | cons t topics ih =>
      simp only [unSubscribeTopics, ih, (Topics.Provider.params_unSubscribe mT t s).1,
        List.mem_cons]
      by_cases same : filter = t <;> by_cases own : other = s <;> simp [same, own]

/-- What the acknowledgement of an UNSUBSCRIBE of V5.0 promises: it carries the identifier and the
code of each filter, and none of the filters is subscribed any more. -/
def Unsubscribed (order : MapOrder PropertyEntry) (b : Broker) (s : Hash) (msg : UnSubscribe) :
    Prop :=
  let result := b.onUnSubscribe ProtocolV50 s msg
  (∃ buf, result.2.message.encode order = .ok buf ∧ UnSubAck.wireCodes buf =
    some (idOrZero msg.packetID, dueCodes s msg.topics b.topics)) ∧
  ∀ t ∈ msg.topics, result.1.topics.params t s = none

theorem onUnSubscribe_response (b : Broker) (v : ProtocolVersion) (s : Hash) (msg : UnSubscribe) :
    ∃ codes, (b.onUnSubscribe v s msg).2 = ⟨v, some (idOrZero msg.packetID), codes⟩ :=
  UnSubAck.addReturnCodes_spec ((UnSubAck.new v).setPacketID (idOrZero msg.packetID))
    (unSubscribeTopics s msg.topics b.topics).2

/-- The response to an UNSUBSCRIBE of V5.0 carries its identifier and nothing else. -/
theorem carried_onUnSubscribe (order : MapOrder PropertyEntry) (b : Broker) (s : Hash)
    (msg : UnSubscribe) :
    ∃ buf, (b.onUnSubscribe ProtocolV50 s msg).2.message.encode order = .ok buf ∧
      UnSubAck.wireCodes buf = some (idOrZero msg.packetID, []) := by
  rcases onUnSubscribe_response b ProtocolV50 s msg with ⟨codes, response⟩
  rw [response]
  exact UnSubAck.wireCodes_encode _ codes

/-- The acknowledgement of an UNSUBSCRIBE of V5.0 keeps its promise if and only if there is no
filter; the filters themselves are unsubscribed in any case. -/
theorem onUnSubscribe_acknowledges_iff (order : MapOrder PropertyEntry) (b : Broker) (s : Hash)
    (msg : UnSubscribe) :
    (Unsubscribed order b s msg ↔ msg.topics = []) ∧
      ∀ t ∈ msg.topics, (b.onUnSubscribe ProtocolV50 s msg).1.topics.params t s = none := by
  have gone : ∀ t ∈ msg.topics, (b.onUnSubscribe ProtocolV50 s msg).1.topics.params t s = none := by
    intro t member
    have left := params_unSubscribeTopics s msg.topics b.topics t s
    rw [if_pos ⟨member, rfl⟩] at left
    exact left
  rcases carried_onUnSubscribe order b s msg with ⟨buf, encoded, carried⟩
  refine ⟨⟨?_, ?_⟩, gone⟩
  · rintro ⟨⟨other, written, due⟩, _⟩
    rw [encoded, Except.ok.injEq] at written
    rw [← written, carried, Option.some.injEq, Prod.mk.injEq] at due
    have count := length_dueCodes s msg.topics b.topics
    rw [← due.2] at count
    exact List.length_eq_zero_iff.mp count.symm
  · intro none
    refine ⟨⟨buf, encoded, ?_⟩, gone⟩
    rw [carried, none]
    rfl

/-- An UNSUBSCRIBE for a filter that the client has not subscribed to. -/
theorem onUnSubscribe_drops_codes :
    ¬Unsubscribed (.insertion _) (Broker.new false) 1 ⟨some 10, [ascii "a"]⟩ := by
  rintro ⟨⟨buf, encoded, due⟩, _⟩
  rcases carried_onUnSubscribe (.insertion _) (Broker.new false) 1 ⟨some 10, [ascii "a"]⟩ with
    ⟨other, written, carried⟩
  rw [encoded, Except.ok.injEq] at written
  rw [← written, due] at carried
  exact absurd carried (by decide)

/-- The return codes of the response stop at the first filter that was subscribed. -/
theorem returnCodes_onUnSubscribe_eq_nil_iff (b : Broker) (v : ProtocolVersion) (s : Hash)
    (msg : UnSubscribe) :
    (b.onUnSubscribe v s msg).2.returnCodes = [] ↔
      ∀ t ∈ msg.topics.head?, (b.topics.params t s).isSome = true := by
  rcases msg with ⟨packetID, topics⟩
  cases topics with
  | nil => simp [onUnSubscribe, unSubscribeTopics, UnSubAck.addReturnCodes, UnSubAck.new,
      UnSubAck.setPacketID]
  | cons t topics =>
      have err := (Topics.Provider.params_unSubscribe b.topics t s).2
      simp only [onUnSubscribe, unSubscribeTopics, err, List.head?_cons, Option.mem_some_iff,
        forall_eq']
      cases (b.topics.params t s).isSome with
      | true =>
          rw [if_pos rfl, UnSubAck.addReturnCodes_of_refused _ _ (by decide)]
          exact iff_of_true rfl rfl
      | false =>
          rw [if_neg Bool.false_ne_true, UnSubAck.addReturnCodes_of_taken _ _ (by decide) (by decide)]
          rcases UnSubAck.addReturnCodes_spec ⟨v, some (idOrZero packetID), [CodeSuccess]⟩
            (unSubscribeTopics s topics (b.topics.unSubscribe t (some s)).1).2 with ⟨added, eq⟩
          have codes := congrArg UnSubAck.returnCodes eq
          simp only [List.cons_append, List.nil_append] at codes
          refine iff_of_false ?_ Bool.false_ne_true
          exact fun none => absurd (codes.symm.trans none) (List.cons_ne_nil _ _)

end VolantMQ.Broker

namespace VolantMQ

open Lib Packet Connection Topics

/-- A connection with everything that its handlers work on. -/
structure Handlers where
  inbound : Inbound Unit
  outbound : Outbound
  broker : Broker
  version : outbound.Version = inbound.Version

namespace Handlers

/-- The response of the handler for a packet, if it has one: of `onPublish`, `onAck`, `onSubscribe`
or `onUnSubscribe`. -/
def respond (c : Handlers) (deny : GoString → Bool) (now : Time) : Packet.Message →
    Option Packet.Message
  | .publish packet => (c.inbound.onPublish deny now ⟨(), packet⟩).2.1.map Ack.message
  | .control h (.ack reasonCode) =>
      let msg : Ack := ⟨h.version, h.mType, h.packetID, reasonCode⟩
      if h.mType = .PUBREL then some (c.inbound.onPubRel now msg).2.message
      else (c.outbound.onAck msg).2.map Ack.message
  | .control h (.subscribe topics) =>
      (c.broker.onSubscribe c.inbound.Version c.inbound.hash (.ofBody h topics) now).2.map
        SubAck.message
  | .control h (.unSubscribe topics) =>
      some (c.broker.onUnSubscribe c.inbound.Version c.inbound.hash ⟨h.packetID, topics⟩).2.message
  | _ => none

/-- A PUBLISH of V5.0 that is acknowledged is allowed, and the first filter of an UNSUBSCRIBE is
subscribed. -/
def Answerable (c : Handlers) (deny : GoString → Bool) : Packet.Message → Prop
  | .publish packet =>
      c.inbound.Version = ProtocolV50 → c.inbound.preProcessPublish packet = .ok () →
        packet.qos = QoS1 ∨ packet.qos = QoS2 → deny packet.topic = false
  | .control _ (.unSubscribe topics) =>
      ∀ t ∈ topics.head?, (c.broker.topics.params t c.inbound.hash).isSome = true
  | _ => True

section Acks

variable {order : MapOrder PropertyEntry} (s : Inbound Unit) (deny : GoString → Bool)

/-- The acknowledgement of a PUBLISH can be read unless it is of V5.0 and says that the topic is
denied. -/
theorem reply_wellFormed_iff {t : PacketType} (type : t = .PUBACK ∨ t = .PUBREC) (p : Publish) :
    (s.reply t p (Inbound.reasonFor deny p.topic)).message.WellFormed s.Version order ↔
      (s.Version = ProtocolV50 → deny p.topic = false) := by
  have isAck : t ∈ Ack.types := by rcases type with rfl | rfl <;> decide
  have invalid : ReasonCode.isValidForType CodeAdministrativeAction t = false := by
    rcases type with rfl | rfl <;> decide
  have success := @Ack.wellFormed_success s.Version order t isAck (idOrZero p.packetID)
  by_cases five : s.Version = ProtocolV50
  · have reply : s.reply t p (Inbound.reasonFor deny p.topic) =
        ⟨ProtocolV50, t, some (idOrZero p.packetID), Inbound.reasonFor deny p.topic⟩ := by
      simp [Inbound.reply, Ack.setReason, Ack.setPacketID, Ack.new, five]
    rw [reply, five]
    rw [five] at success
    simp only [true_imp_iff]
    cases denied : deny p.topic with
    | true =>
        have reason : Inbound.reasonFor deny p.topic = CodeAdministrativeAction := by
          simp [Inbound.reasonFor, denied]
        rw [reason]
        exact iff_of_false (Ack.not_wellFormed isAck _ (by decide) invalid)
          fun allowed => Bool.false_ne_true allowed.symm
    | false =>
        have reason : Inbound.reasonFor deny p.topic = CodeSuccess := by
          simp [Inbound.reasonFor, denied]
        rw [reason]
        exact iff_of_true success rfl
  · have reply : s.reply t p (Inbound.reasonFor deny p.topic) =
        ⟨s.Version, t, some (idOrZero p.packetID), CodeSuccess⟩ := by
      simp [Inbound.reply, Ack.setReason, Ack.setPacketID, Ack.new, five]
    rw [reply]
    exact iff_of_true success fun other => absurd other five

theorem onPublish_response (now : Time) (packet : Publish) :
    (s.onPublish deny now ⟨(), packet⟩).2.1 =
      if s.preProcessPublish packet = .ok () then
        if packet.qos = QoS2 then some (s.reply .PUBREC packet (Inbound.reasonFor deny packet.topic))
        else if packet.qos = QoS1 then
          some (s.reply .PUBACK packet (Inbound.reasonFor deny packet.topic))
        else none
      else none := by
  unfold Inbound.onPublish
  cases s.preProcessPublish packet with
  | error e => rfl
  | ok done =>
      simp only [if_true]
      split
      · split <;> rfl
      · split
        · split <;> rfl
        · split
          · split <;> rfl
          · rfl

theorem publish_wellFormed_iff (now : Time) (packet : Publish) :
    (∀ r, ((s.onPublish deny now ⟨(), packet⟩).2.1.map Ack.message) = some r →
        r.WellFormed s.Version order) ↔
      (s.Version = ProtocolV50 → s.preProcessPublish packet = .ok () →
        packet.qos = QoS1 ∨ packet.qos = QoS2 → deny packet.topic = false) := by
  rw [onPublish_response]
  split
  · rename_i passed
    split
    · rename_i two
      simp [passed, two, reply_wellFormed_iff]
    · split
      · rename_i one
        simp [passed, one, reply_wellFormed_iff]
      · rename_i notTwo notOne
        simp [notOne, notTwo]
  · rename_i refused
    simp [refused]

/-- The response of `onAck` to a packet other than PUBREL is a PUBREL without a reason. -/
theorem onAck_response {conn : Outbound} {msg resp : Ack} (answered : (conn.onAck msg).2 = some resp) :
    resp = ⟨conn.Version, .PUBREL, some (idOrZero msg.packetID), CodeSuccess⟩ := by
  have kept : (conn.release msg).Version = conn.Version := by
    by_cases held : idOrZero msg.packetID ∈ conn.pubOut
    · rw [Outbound.release_of_held held]
      simp only [Outbound.onReleaseOut]
      split
      · exact (Outbound.flowReleaseSignal_spec conn _).2.2.1
      · exact (Outbound.flowReleaseSignal_spec conn _).2.2.1
      · rfl
    · rw [Outbound.release_of_absent held]
  unfold Outbound.onAck at answered
  split at answered
  · cases answered
  · simp only at answered
    split at answered
    · cases answered
    · rw [Option.some.injEq, kept] at answered
      exact answered.symm
  · cases answered
  · cases answered

end Acks

/-- For every packet that `Decode` accepts, the response of its handler can be encoded, and the
client reads its identifier and codes from it, if and only if the packet is no denied PUBLISH of
V5.0 and no UNSUBSCRIBE whose first filter is not subscribed. -/
theorem responses_wellFormed_iff (c : Handlers) {buf : Bytes} {m : Packet.Message} {n : ℕ}
    (decoded : decode c.inbound.Version buf = .ok (m, n)) (deny : GoString → Bool) (now : Time)
    (order : MapOrder PropertyEntry) :
    (∀ r, c.respond deny now m = some r → r.WellFormed c.inbound.Version order) ↔
      c.Answerable deny m := by
  match m with
  | .publish packet => exact publish_wellFormed_iff c.inbound deny now packet
  | .control h (.ack reasonCode) =>
      refine iff_of_true ?_ trivial
      intro r answered
      simp only [respond] at answered
      split at answered
      · have pubComp : PacketType.PUBCOMP ∈ Ack.types := by decide
        cases answered
        exact Ack.wellFormed_success pubComp _
      · rcases Option.map_eq_some_iff.mp answered with ⟨resp, made, rfl⟩
        rw [onAck_response made, c.version]
        exact Ack.wellFormed_success (by decide) _
  | .control h (.subscribe topics) =>
      refine iff_of_true ?_ trivial
      intro r answered
      have requested := Subscribe.requested_of_decode decoded
      have few := requested.few
      rcases Broker.onSubscribe_law decoded c.broker c.inbound.hash now with ⟨⟨id, _, response⟩, _⟩
      simp only [respond, response, Option.map_some, Option.some.injEq] at answered
      rw [← answered]
      apply SubAck.wellFormed
      · intro code member
        rcases List.mem_map.mp member with ⟨topic, topicMem, rfl⟩
        exact (requested.accepted topic topicMem).qos
      · rw [List.length_map]
        omega
  | .control h (.unSubscribe topics) =>
      obtain ⟨codes, response⟩ := c.broker.onUnSubscribe_response c.inbound.Version c.inbound.hash
        ⟨h.packetID, topics⟩
      have stops := c.broker.returnCodes_onUnSubscribe_eq_nil_iff c.inbound.Version c.inbound.hash
        ⟨h.packetID, topics⟩
      rw [response] at stops
      simp only [respond, response, Option.some.injEq, forall_eq']
      exact (UnSubAck.wellFormed_iff _ codes).trans stops
  | .control _ (.connect _) | .control _ (.connAck _ _) | .control _ (.subAck _)
  | .control _ (.unSubAck _) | .control _ .pingReq | .control _ .pingResp
  | .control _ (.disconnect _) | .control _ (.auth _) => simp [respond, Answerable]

/-- A new connection of V5.0. -/
def fresh : Handlers :=
  ⟨.new ProtocolV50 true 0 1, .new ProtocolV50 10, .new false, rfl⟩

/-- The V5.0 PUBLISH with QoS 1 and identifier 7 to the topic `a`. -/
def plainPublish : Bytes := [0x32, 0x06, 0x00, 0x01, 0x61, 0x00, 0x07, 0x00]

/-- The packet that it is decoded to. -/
def plainMessage : Publish :=
  { Publish.new ProtocolV50 with mFlags := 0x02, packetID := some 7, topic := ascii "a" }

theorem fresh_answers :
    ∃ n, decode fresh.inbound.Version plainPublish = .ok (.publish plainMessage, n) ∧
      ∀ r, fresh.respond (fun _ => false) 0 (.publish plainMessage) = some r →
        r.WellFormed fresh.inbound.Version (.insertion _) := by
  have decoded : decode fresh.inbound.Version plainPublish = .ok (.publish plainMessage, 8) := by
    rfl
  refine ⟨8, decoded, (responses_wellFormed_iff fresh decoded (fun _ => false) 0 _).mpr ?_⟩
  exact fun _ _ _ => rfl

/-- A client without the right to publish gets a PUBACK that it cannot read. -/
theorem fresh_denies :
    ∃ n r, decode fresh.inbound.Version plainPublish = .ok (.publish plainMessage, n) ∧
      fresh.respond (fun _ => true) 0 (.publish plainMessage) = some r ∧
      ¬r.WellFormed fresh.inbound.Version (.insertion _) := by
  refine ⟨8, (⟨ProtocolV50, .PUBACK, some 7, CodeAdministrativeAction⟩ : Ack).message, rfl, rfl, ?_⟩
  exact Ack.not_wellFormed (by decide) 7 (by decide) (by decide)

end Handlers

end VolantMQ
