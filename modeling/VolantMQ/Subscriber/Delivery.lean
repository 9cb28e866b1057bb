import VolantMQ.Packet.Clone
import VolantMQ.Packet.Subscribe
import VolantMQ.Subscriber.Publish

/-!
# Version-correct delivery

`Publish` clones a message with the version of the client that sent it. The session of the
subscriber encodes the clone as it is, and the client at the other end decodes it with its own
version. This file says when that client gets the topic and the payload that were sent.
-/

namespace VolantMQ.Subscriber

open Lib Packet Connection

/-- The flags of the packet that `Publish` builds. -/
def outgoingFlags (qos : QosType) (retain rap : Bool) (grantedQoS : QosType) : UInt8 :=
  let flags := Publish.cloneFlags qos retain
  let flags := if !rap then Publish.putFlag flags Publish.maskPublishFlagRetain false else flags
  if grantedQoS = QoS1 ∧ qos = QoS2 then Publish.putQoS flags QoS1 else flags

/-- The properties of the packet that `Publish` builds. -/
def outgoingEntries (s : Subscriber) (msg : Packet.Publish) (ids : List UInt32) :
    List PropertyEntry :=
  msg.forwardedEntries s.version ++
    if 0 < ids.length then [⟨PropertySubscriptionIdentifier, .ints ids⟩] else []

/-- The QoS in given flags. -/
def flagsQoS (flags : UInt8) : QosType := (flags &&& Publish.maskPublishFlagQoS) >>> 1

theorem eq_of_isValid {qos : QosType} (valid : qos.isValid = true) :
    qos = QoS0 ∨ qos = QoS1 ∨ qos = QoS2 := by
  simpa [QosType.isValid, or_assoc] using valid

theorem flagsQoS_clone {qos : QosType} (valid : qos.isValid = true) (retain rap : Bool) :
    flagsQoS (if !rap then
        Publish.putFlag (Publish.cloneFlags qos retain) Publish.maskPublishFlagRetain false
      else Publish.cloneFlags qos retain) = qos := by
  rcases eq_of_isValid valid with rfl | rfl | rfl <;> cases retain <;> cases rap <;> decide

theorem outgoingFlags_spec {qos : QosType} (valid : qos.isValid = true) (retain rap : Bool)
    (grantedQoS : QosType) :
    (outgoingFlags qos retain rap grantedQoS).toNat < 16 ∧
      (outgoingFlags qos retain rap grantedQoS &&& Publish.maskPublishFlagDup) = 0 ∧
      flagsQoS (outgoingFlags qos retain rap grantedQoS) =
        if grantedQoS = QoS1 ∧ qos = QoS2 then QoS1 else qos := by
  unfold outgoingFlags
  by_cases one : grantedQoS = QoS1
  · rcases eq_of_isValid valid with rfl | rfl | rfl <;> cases retain <;> cases rap <;>
      simp only [one] <;> decide
  · rcases eq_of_isValid valid with rfl | rfl | rfl <;> cases retain <;> cases rap <;>
      simp only [one, false_and, if_false] <;> decide

theorem withRetain_eq (pkt : Packet.Publish) (ops : SubscriptionOptions) :
    withRetain pkt ops = { pkt with
      mFlags := if !SubscriptionOptions.rap ops then
        Publish.putFlag pkt.mFlags Publish.maskPublishFlagRetain false else pkt.mFlags } := by
  unfold withRetain
  split
  · rfl
  · rfl

theorem withPacketID_eq (pkt : Packet.Publish) :
    withPacketID pkt =
      { pkt with packetID := if flagsQoS pkt.mFlags ≠ QoS0 then some 0 else pkt.packetID } := by
  unfold withPacketID
  by_cases ack : pkt.qos ≠ QoS0
  · rw [if_pos ack, if_pos (show flagsQoS pkt.mFlags ≠ QoS0 from ack)]
    rfl
  · rw [if_neg ack, if_neg (show ¬flagsQoS pkt.mFlags ≠ QoS0 from ack)]

theorem downgrade_eq (pkt : Packet.Publish) (grantedQoS : QosType) :
    downgrade pkt grantedQoS = { pkt with
      mFlags := if grantedQoS = QoS1 ∧ flagsQoS pkt.mFlags = QoS2 then
        Publish.putQoS pkt.mFlags QoS1 else pkt.mFlags } := by
  unfold downgrade
  by_cases lower : grantedQoS = QoS1 ∧ pkt.qos = QoS2
  · rw [if_pos lower, if_pos (show grantedQoS = QoS1 ∧ flagsQoS pkt.mFlags = QoS2 from lower)]
    rfl
  · rw [if_neg lower, if_neg (show ¬(grantedQoS = QoS1 ∧ flagsQoS pkt.mFlags = QoS2) from lower)]

section Outgoing

variable (s : Subscriber) {msg : Packet.Publish} (grantedQoS : QosType)
  (ops : SubscriptionOptions) {ids : List UInt32}

/-- What `Publish` builds from a message with a valid topic and QoS, given the properties. -/
def outgoingPacket (msg : Packet.Publish) (grantedQoS : QosType) (ops : SubscriptionOptions)
    (properties : Property) : Packet.Publish :=
  { Publish.new msg.version with
    topic := msg.topic
    payload := msg.payload
    mFlags := outgoingFlags msg.qos msg.retain (SubscriptionOptions.rap ops) grantedQoS
    packetID := if msg.qos ≠ QoS0 then some 0 else none
    expireAt := msg.expireAt
    properties }

theorem finish_eq (qosValid : msg.qos.isValid = true) (properties : Property) :
    downgrade (withPacketID (withRetain
        { Publish.new msg.version with
          topic := msg.topic
          payload := msg.payload
          mFlags := Publish.cloneFlags msg.qos msg.retain
          expireAt := msg.expireAt
          properties } ops)) grantedQoS = outgoingPacket msg grantedQoS ops properties := by
  rw [withRetain_eq, withPacketID_eq, downgrade_eq]
  simp only [flagsQoS_clone qosValid]
  rfl

/-- The packet that `Publish` builds. Identifiers can be set on V5.0 packets only. -/
theorem outgoing_eq (topicValid : validTopic msg.topic = true)
    (qosValid : msg.qos.isValid = true) (settable : ids = [] ∨ msg.version = ProtocolV50) :
    ∃ properties, properties.Built (s.outgoingEntries msg ids) ∧
      s.outgoing msg grantedQoS ops ids = .ok (outgoingPacket msg grantedQoS ops properties) := by
  rcases Publish.clone_eq msg s.version topicValid qosValid with ⟨carried, built, cloned⟩
  unfold outgoing outgoingEntries
  rw [cloned]
  by_cases some : 0 < ids.length
  · have five : msg.version = ProtocolV50 :=
      settable.resolve_left fun none => by simp [none] at some
    have fresh : ∀ entry ∈ msg.forwardedEntries s.version,
        entry.1 ≠ PropertySubscriptionIdentifier := by
      intro entry member same
      have forwarded := (Publish.mem_forwardedEntries member).1
      rw [same] at forwarded
      exact absurd forwarded (by decide)
    have known : PropertySubscriptionIdentifier ∈ publishPropertyIDs := by decide
    rcases built.set (isValidPacketType_of_mem known) (.ints ids) fresh with
      ⟨next, run, builtNext⟩
    refine ⟨next, by rw [if_pos some]; exact builtNext, ?_⟩
    simp only [withIDs, if_pos some, Publish.propertySet, Publish.new, five, bne_self_eq_false,
      Bool.false_eq_true, if_false, run, Except.map]
    rw [← finish_eq grantedQoS ops qosValid next, five]
    rfl
  · refine ⟨carried, by rw [if_neg some, List.append_nil]; exact built, ?_⟩
    simp only [withIDs, if_neg some]
    rw [← finish_eq grantedQoS ops qosValid carried]

/-- Without that, a message is not delivered at all. -/
theorem outgoing_of_unsettable (some : ids ≠ []) (old : msg.version ≠ ProtocolV50) :
    s.outgoing msg grantedQoS ops ids = .error .ErrNotSupported := by
  rcases msg.clone_built s.version with ⟨clone, cloned, version, -⟩
  have unsupported : (clone.version != ProtocolV50) = true := by simpa [version] using old
  simp only [outgoing, cloned, withIDs, if_pos (List.length_pos_iff.mpr some), Publish.propertySet,
    if_pos unsupported]

theorem qos_outgoingPacket (qosValid : msg.qos.isValid = true) (properties : Property) :
    (outgoingPacket msg grantedQoS ops properties).qos =
      if grantedQoS = QoS1 ∧ msg.qos = QoS2 then QoS1 else msg.qos :=
  (outgoingFlags_spec qosValid msg.retain (SubscriptionOptions.rap ops) grantedQoS).2.2

/-- The downgrade never takes away the acknowledgement. -/
theorem qos_outgoingPacket_eq_zero (qosValid : msg.qos.isValid = true) (properties : Property) :
    (outgoingPacket msg grantedQoS ops properties).qos = QoS0 ↔ msg.qos = QoS0 := by
  rw [qos_outgoingPacket grantedQoS ops qosValid]
  split
  · rename_i lower
    rw [lower.2]
    decide
  · rfl

/-- A packet that is handed over is not dropped on the way out. -/
theorem publish_packet {pkt : Packet.Publish} (built : s.outgoing msg grantedQoS ops ids = .ok pkt)
    (accepts : s.isOnline = true ∨ s.offlineQoS0 = true ∨ pkt.qos ≠ QoS0) :
    ∃ handed, s.publish msg grantedQoS ops ids = .ok handed ∧ handed.packet? = some pkt := by
  unfold publish
  rw [built]
  simp only
  by_cases online : s.isOnline = true
  · exact ⟨.online pkt, if_pos online, rfl⟩
  · have stored : pkt.qos ≠ QoS0 ∨ (s.offlineQoS0 = true ∧ pkt.qos = QoS0) := by
      by_cases ack : pkt.qos = QoS0
      · exact .inr ⟨(accepts.resolve_left online).resolve_right (not_not.mpr ack), ack⟩
      · exact .inl ack
    rw [if_neg online, if_pos stored]
    exact ⟨.offline pkt, rfl, rfl⟩

theorem outgoing_of_publish {handed : Handed} {pkt : Packet.Publish}
    (run : s.publish msg grantedQoS ops ids = .ok handed) (held : handed.packet? = some pkt) :
    s.outgoing msg grantedQoS ops ids = .ok pkt := by
  unfold publish at run
  cases built : s.outgoing msg grantedQoS ops ids with
  | error e => simp [built] at run
  | ok other =>
      simp only [built] at run
      split at run
      · rw [← Except.ok.inj run] at held
        exact congrArg Except.ok (Option.some.inj held)
      · split at run
        · rw [← Except.ok.inj run] at held
          exact congrArg Except.ok (Option.some.inj held)
        · rw [← Except.ok.inj run] at held
          simp [Handed.packet?] at held

end Outgoing

/-- The packet with the identifier it is sent under. -/
def identified (pkt : Packet.Publish) (id : IDType) : Packet.Publish :=
  if pkt.qos ≠ QoS0 then pkt.setPacketID id else pkt

/-- The remaining length of the packet that `Publish` builds. -/
def wireLength (s : Subscriber) (msg : Packet.Publish) (ids : List UInt32) : ℕ :=
  2 + msg.topic.length + msg.payload.length + (if msg.qos ≠ QoS0 then 2 else 0) +
    if msg.version = ProtocolV50 then
      weight (s.outgoingEntries msg ids) +
        uvarintCalc (UInt32.ofNat (weight (s.outgoingEntries msg ids)))
    else 0

/-- A subscription identifier that the client of `s` sent in a SUBSCRIBE. -/
def Issued (s : Subscriber) (id : UInt32) : Prop :=
  0 < id ∧ ∃ (msg : Subscribe) (src : Bytes) (n : ℕ),
    Property.empty.decode .SUBSCRIBE src = .ok (msg.properties, n) ∧
      msg.version = s.version ∧ msg.subscriptionID = id

section Encoding

variable {s : Subscriber} {msg : Packet.Publish} {ids : List UInt32} {v : ProtocolVersion}

theorem issued_small {id : UInt32} (issued : s.Issued id) :
    s.version = ProtocolV50 ∧ id.toNat < 2 ^ 29 := by
  rcases issued with ⟨positive, msg, src, n, read, same, rfl⟩
  have small := Subscribe.subscriptionID_spec read positive
  exact ⟨same ▸ small.1, small.2⟩

theorem outgoingEntries_spec (fit : Inbound.Forwarded v msg) (issued : ∀ id ∈ ids, s.Issued id)
    {entry : PropertyEntry} (member : entry ∈ s.outgoingEntries msg ids) :
    WellShaped (propertyTypeMap entry.1) entry.2 ∧ entry.1 ∈ publishPropertyIDs := by
  rcases List.mem_append.mp member with carried | added
  · have look := (Publish.mem_forwardedEntries carried).2
    exact ⟨fit.shaped _ _ look, fit.known _ _ look⟩
  · split at added
    · rw [List.mem_singleton] at added
      subst added
      have known : PropertySubscriptionIdentifier ∈ publishPropertyIDs := by decide
      exact ⟨.varInts fun id there => (issued_small (issued id there)).2, known⟩
    · simp at added

theorem weight_ids_le (ids : List UInt32) :
    weight [⟨PropertySubscriptionIdentifier, .ints ids⟩] ≤ 6 * ids.length := by
  have item : ∀ id ∈ ids, uvarintCalc id + uvarintCalc PropertySubscriptionIdentifier ≤ 6 := by
    intro id _
    have width := uvarintCalc_le id
    have one : uvarintCalc PropertySubscriptionIdentifier = 1 := by decide
    omega
  calc weight [⟨PropertySubscriptionIdentifier, .ints ids⟩]
      = (ids.map fun id => uvarintCalc id + uvarintCalc PropertySubscriptionIdentifier).sum := by
        simp [weight, propertyCalcLen, show propertyTypeMap PropertySubscriptionIdentifier = .varInt
          from rfl, calcLenVarInt, calcLenItems, PropertyValue.intItems]
    _ ≤ (ids.map fun _ => 6).sum := List.sum_le_sum item
    _ = 6 * ids.length := by simp [Nat.mul_comm]

theorem weight_outgoingEntries_le :
    weight (s.outgoingEntries msg ids) ≤
      weight msg.properties.properties.entries + 6 * ids.length := by
  have carried := Publish.weight_forwardedEntries_le msg s.version
  have added := weight_ids_le ids
  rw [outgoingEntries, weight_append]
  split
  · omega
  · simp only [weight, List.map_nil, List.sum_nil] at carried ⊢
    omega

section Packet

variable (grantedQoS : QosType) (ops : SubscriptionOptions) {properties : Property}
  (built : properties.Built (s.outgoingEntries msg ids))

theorem identified_version (pkt : Packet.Publish) (id : IDType) :
    (identified pkt id).version = pkt.version ∧ (identified pkt id).topic = pkt.topic ∧
      (identified pkt id).payload = pkt.payload ∧ (identified pkt id).qos = pkt.qos ∧
      (identified pkt id).properties = pkt.properties ∧
      (identified pkt id).mFlags = pkt.mFlags := by
  unfold identified
  split
  · exact ⟨rfl, rfl, rfl, rfl, rfl, rfl⟩
  · exact ⟨rfl, rfl, rfl, rfl, rfl, rfl⟩

include built in
/-- With a packet identifier set, the packet can be encoded unless its properties are too long. -/
theorem encodable_outgoingPacket (fit : Inbound.Forwarded v msg)
    (issued : ∀ id ∈ ids, s.Issued id)
    (short : msg.version = ProtocolV50 → weight (s.outgoingEntries msg ids) + 5 < 2 ^ 32)
    (id : IDType) : (identified (outgoingPacket msg grantedQoS ops properties) id).Encodable := by
  have flags := outgoingFlags_spec fit.qosValid msg.retain (SubscriptionOptions.rap ops) grantedQoS
  rcases identified_version (outgoingPacket msg grantedQoS ops properties) id with
    ⟨version, topic, payload, qos, props, mFlags⟩
  refine ⟨?_, ?_, ?_, ?_, ?_, ?_, ?_, ?_, ?_⟩
  · rw [topic]
    exact fit.topicValid
  · rw [topic]
    exact fit.topicFits
  · rw [topic]
    exact fit.topicPresent
  · rw [mFlags]
    exact flags.1
  · rw [qos, qos_outgoingPacket grantedQoS ops fit.qosValid]
    split
    · rfl
    · exact fit.qosValid
  · rw [Publish.dup, mFlags, bne_eq_false_iff_eq]
    exact flags.2.1
  · intro ack
    rw [qos] at ack
    rw [identified, if_pos ack]
    rfl
  · intro five
    rw [props]
    rw [version] at five
    exact built.encodable (fun entry member => (outgoingEntries_spec fit issued member).1)
      (short five)
  · intro entry member
    rw [props] at member
    exact (outgoingEntries_spec fit issued (built.held.mem_iff.mp member)).2

include built in
theorem size_outgoingPacket (qosValid : msg.qos.isValid = true)
    (short : msg.version = ProtocolV50 → weight (s.outgoingEntries msg ids) + 5 < 2 ^ 32)
    (id : IDType) :
    (identified (outgoingPacket msg grantedQoS ops properties) id).size = s.wireLength msg ids := by
  rcases identified_version (outgoingPacket msg grantedQoS ops properties) id with
    ⟨version, topic, payload, qos, props, _⟩
  have ack : (outgoingPacket msg grantedQoS ops properties).qos ≠ 0 ↔ msg.qos ≠ QoS0 :=
    not_congr (qos_outgoingPacket_eq_zero grantedQoS ops qosValid properties)
  rw [Publish.size, version, topic, payload, qos, props]
  simp only [ack]
  unfold wireLength
  by_cases five : msg.version = ProtocolV50
  · have fullLen : properties.fullLen.toNat = weight (s.outgoingEntries msg ids) +
        uvarintCalc (UInt32.ofNat (weight (s.outgoingEntries msg ids))) := by
      have fits := short five
      have width := uvarintCalc_le (UInt32.ofNat (weight (s.outgoingEntries msg ids)))
      rw [Property.fullLen, built.counted, UInt32.toNat_add, UInt32.toNat_ofNat',
        UInt32.toNat_ofNat']
      omega
    rw [if_pos five, if_pos (show (outgoingPacket msg grantedQoS ops properties).version =
      ProtocolV50 from five), show (outgoingPacket msg grantedQoS ops properties).properties =
      properties from rfl, fullLen]
    rfl
  · rw [if_neg five, if_neg (show ¬(outgoingPacket msg grantedQoS ops properties).version =
      ProtocolV50 from five)]
    rfl

end Packet

/-- `Publish` hands over a packet whose encoding, under any identifier and in any iteration order
of its properties, the subscriber's client decodes to the topic and the payload of the message. -/
def Delivers (s : Subscriber) (msg : Packet.Publish) (grantedQoS : QosType)
    (ops : SubscriptionOptions) (ids : List UInt32) : Prop :=
  ∃ handed pkt, s.publish msg grantedQoS ops ids = .ok handed ∧ handed.packet? = some pkt ∧
    ∀ (order : MapOrder PropertyEntry) (id : IDType),
      ∃ bytes, (identified pkt id).encode order = .ok bytes ∧ Publish.DecodesAs s.version msg bytes

/-- The two clients agree on whether a PUBLISH has properties, and the packet is not too long. -/
def Compatible (s : Subscriber) (msg : Packet.Publish) (ids : List UInt32) : Prop :=
  (msg.version = ProtocolV50 ↔ s.version = ProtocolV50) ∧ s.wireLength msg ids ≤ 268435455

section Packet

variable (grantedQoS : QosType) (ops : SubscriptionOptions) {properties : Property}
  (built : properties.Built (s.outgoingEntries msg ids))

include built in
/-- What becomes of the packet once it is built. -/
theorem decodesAs_outgoingPacket_iff (fit : Inbound.Forwarded v msg)
    (issued : ∀ id ∈ ids, s.Issued id)
    (short : msg.version = ProtocolV50 → weight (s.outgoingEntries msg ids) + 5 < 2 ^ 32)
    (bounded : s.wireLength msg ids < 2 ^ 32) (order : MapOrder PropertyEntry) (id : IDType) :
    (∃ bytes, (identified (outgoingPacket msg grantedQoS ops properties) id).encode order =
        .ok bytes ∧ Publish.DecodesAs s.version msg bytes) ↔ s.Compatible msg ids := by
  have encodable := encodable_outgoingPacket grantedQoS ops built fit issued short id
  have size := size_outgoingPacket grantedQoS ops built fit.qosValid short id
  rcases identified_version (outgoingPacket msg grantedQoS ops properties) id with
    ⟨version, topic, payload, -⟩
  have survives := Publish.decodesAs_encode_iff order s.version encodable.writable
    encodable.topicPresent (by rw [size]; exact bounded)
  rw [size, version] at survives
  simp only [Publish.DecodesAs, topic, payload] at survives
  exact survives

end Packet

/-- A message that a connection has forwarded is delivered when the two clients are compatible. -/
theorem delivers_of_compatible (fit : Inbound.Forwarded v msg) (grantedQoS : QosType)
    (ops : SubscriptionOptions) (issued : ∀ id ∈ ids, s.Issued id)
    (accepts : s.isOnline = true ∨ s.offlineQoS0 = true ∨ msg.qos ≠ QoS0)
    (compatible : s.Compatible msg ids) : s.Delivers msg grantedQoS ops ids := by
  have settable : ids = [] ∨ msg.version = ProtocolV50 := by
    cases ids with
    | nil => exact .inl rfl
    | cons id rest => exact .inr (compatible.1.mpr (issued_small (issued id (by simp))).1)
  rcases outgoing_eq s grantedQoS ops fit.topicValid fit.qosValid settable with
    ⟨properties, built, run⟩
  have zero := qos_outgoingPacket_eq_zero grantedQoS ops fit.qosValid properties
  rcases publish_packet s grantedQoS ops run (by rwa [Ne, zero]) with ⟨handed, handing, held⟩
  refine ⟨handed, _, handing, held, fun order id => ?_⟩
  have length := compatible.2
  refine (decodesAs_outgoingPacket_iff grantedQoS ops built fit issued ?_ (by omega) order id).mpr
    compatible
  intro five
  rw [wireLength, if_pos five] at length
  omega

/-- Conversely a message is delivered to compatible clients only, as long as the number of
subscription identifiers does not overflow the length of the property block. -/
theorem compatible_of_delivers (fit : Inbound.Forwarded v msg) {grantedQoS : QosType}
    {ops : SubscriptionOptions} (issued : ∀ id ∈ ids, s.Issued id) (few : ids.length < 2 ^ 26)
    (delivers : s.Delivers msg grantedQoS ops ids) : s.Compatible msg ids := by
  rcases delivers with ⟨handed, pkt, handing, held, decoded⟩
  have run := outgoing_of_publish s grantedQoS ops handing held
  by_cases settable : ids = [] ∨ msg.version = ProtocolV50
  · rcases outgoing_eq s grantedQoS ops fit.topicValid fit.qosValid settable with
      ⟨properties, built, same⟩
    rw [same, Except.ok.injEq] at run
    subst run
    have total := fit.bounded
    have topic := fit.topicFits
    have entries := @weight_outgoingEntries_le s msg ids
    have width := uvarintCalc_le (UInt32.ofNat (weight (s.outgoingEntries msg ids)))
    rw [MaxLPString] at topic
    refine (decodesAs_outgoingPacket_iff grantedQoS ops built fit issued (fun _ => by omega) ?_
      (.insertion _) 0).mp (decoded (.insertion _) 0)
    unfold wireLength
    split <;> split <;> omega
  · rw [not_or] at settable
    rw [outgoing_of_unsettable s grantedQoS ops settable.1 settable.2] at run
    simp at run

end Encoding

theorem supported_cases {u : ProtocolVersion} (supported : u ∈ SupportedVersions) :
    u < ProtocolV50 ∨ u = ProtocolV50 := by
  simp only [SupportedVersions, List.mem_cons, List.not_mem_nil, or_false] at supported
  rcases supported with rfl | rfl | rfl
  · exact .inl (by decide)
  · exact .inl (by decide)
  · exact .inr rfl

/-- What a connection has forwarded, whatever it received. -/
theorem forwarded_of_received {ρ : Type} {u : ProtocolVersion} (supported : u ∈ SupportedVersions)
    {RetainAvailable : Bool} {MaxRxTopicAlias : UInt16} {hash : ℕ} {inputs : List (Inbound.Rx ρ)}
    {m : Marked ρ} (received : m ∈ (inputs.foldl Inbound.rx
      (Inbound.new u RetainAvailable MaxRxTopicAlias hash)).published) :
    Inbound.Forwarded u m.packet := by
  have start := @Inbound.sound_new ρ u (supported_cases supported) RetainAvailable
    MaxRxTopicAlias hash
  have fit := (Inbound.sound_run start inputs).forwarded m received
  rwa [Inbound.version_run] at fit

/-- A message received from a client of version `u` reaches the client of a subscriber intact
exactly when both or neither of them speak V5.0 and the packet is not too long. The number of
subscription identifiers matters only for the converse, where the length of the property block
could overflow. -/
theorem received_delivers_iff {ρ : Type} {u : ProtocolVersion} (supported : u ∈ SupportedVersions)
    (RetainAvailable : Bool) (MaxRxTopicAlias : UInt16) (hash : ℕ) (inputs : List (Inbound.Rx ρ))
    {m : Marked ρ} (received : m ∈ (inputs.foldl Inbound.rx
      (Inbound.new u RetainAvailable MaxRxTopicAlias hash)).published)
    (s : Subscriber) (grantedQoS : QosType) (ops : SubscriptionOptions) {ids : List UInt32}
    (issued : ∀ id ∈ ids, s.Issued id)
    (accepts : s.isOnline = true ∨ s.offlineQoS0 = true ∨ m.packet.qos ≠ QoS0) :
    ((u = ProtocolV50 ↔ s.version = ProtocolV50) ∧ s.wireLength m.packet ids ≤ 268435455 →
        s.Delivers m.packet grantedQoS ops ids) ∧
      (ids.length < 2 ^ 26 → s.Delivers m.packet grantedQoS ops ids →
        (u = ProtocolV50 ↔ s.version = ProtocolV50) ∧ s.wireLength m.packet ids ≤ 268435455) := by
  have fit := forwarded_of_received supported received
  have version := fit.version
  subst version
  exact ⟨delivers_of_compatible fit grantedQoS ops issued accepts,
    compatible_of_delivers fit issued⟩

/-- A V5.0 PUBLISH of QoS 0 to the topic `a` with payload `h` and no properties. -/
def sampleV50 : Bytes := [0x30, 0x05, 0x00, 0x01, 0x61, 0x00, 0x68]

/-- The connection of a V5.0 client that has sent it. -/
def receivedV50 : Inbound Unit :=
  [Inbound.Rx.publish () sampleV50 (fun _ => false) 0].foldl Inbound.rx
    (Inbound.new ProtocolV50 true 0 1)

/-- The message as forwarded. -/
def messageV50 : Packet.Publish :=
  { Publish.new ProtocolV50 with topic := [0x61], payload := [0x68], publishID := 1 }

theorem published_receivedV50 : receivedV50.published = [⟨(), messageV50⟩] := rfl

theorem issued_seven : Issued ⟨ProtocolV50, false, true⟩ 7 :=
  ⟨by decide, ⟨ProtocolV50, some 1, ⟨AList.singleton PropertySubscriptionIdentifier (.int 7), 2⟩,
    [([0x61], 0)]⟩, [0x02, 0x0B, 0x07], 3, rfl, rfl, rfl⟩

/-- Another V5.0 client gets the message intact, here with a subscription identifier. -/
theorem received_delivers_V50 :
    (⟨ProtocolV50, false, true⟩ : Subscriber).wireLength messageV50 [7] = 7 ∧
      (⟨ProtocolV50, false, true⟩ : Subscriber).Delivers messageV50 QoS1 0 [7] := by
  have length : (⟨ProtocolV50, false, true⟩ : Subscriber).wireLength messageV50 [7] = 7 := by decide
  have issued : ∀ id ∈ [(7 : UInt32)], Issued ⟨ProtocolV50, false, true⟩ id := by
    intro id member
    rw [List.mem_singleton] at member
    exact member ▸ issued_seven
  refine ⟨length, (received_delivers_iff (by decide) true 0 1
    [Inbound.Rx.publish () sampleV50 (fun _ => false) 0] (show (⟨(), messageV50⟩ : Marked Unit) ∈
      receivedV50.published by simp [published_receivedV50]) _ QoS1 0 issued (.inl rfl)).1
    ⟨Iff.rfl, by rw [length]; decide⟩⟩

/-- The client of a V3.1.1 subscriber takes the empty property block for a byte of the payload. -/
theorem received_corrupted_V311 :
    receivedV50.published = [⟨(), messageV50⟩] ∧
      (∃ pkt next : Packet.Publish,
        (⟨ProtocolV311, false, true⟩ : Subscriber).publish messageV50 QoS0 0 [] = .ok (.online pkt) ∧
          pkt.encode (.insertion _) = .ok sampleV50 ∧
          decodePublish ProtocolV311 sampleV50 = .ok (next, 7) ∧ next.payload = [0x00, 0x68]) ∧
      ¬(⟨ProtocolV311, false, true⟩ : Subscriber).Delivers messageV50 QoS0 0 [] := by
  refine ⟨rfl, ⟨_, _, rfl, rfl, rfl, rfl⟩, fun delivers => ?_⟩
  have fit : Inbound.Forwarded ProtocolV50 messageV50 :=
    forwarded_of_received (by decide) (show (⟨(), messageV50⟩ : Marked Unit) ∈
      receivedV50.published by simp [published_receivedV50])
  have compatible := compatible_of_delivers fit (by simp) (by decide) delivers
  exact absurd (compatible.1.mp rfl) (by decide)

end VolantMQ.Subscriber
