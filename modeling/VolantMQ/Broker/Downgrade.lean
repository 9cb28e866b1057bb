import VolantMQ.Broker.System
import VolantMQ.Subscriber.Delivery

/-!
# The QoS of deliveries

A message published with QoS `q` to a subscription that was granted QoS `g` is to be queued with
the smaller of the two. There are two ways from a message to a client: `Subscriber.Publish` for
live messages, which lowers QoS 2 to QoS 1 and nothing else, and `onSubscribe` for retained ones,
which does not lower anything.
-/

namespace VolantMQ

open Lib Packet Connection Topics

/-- What `Clone` needs to keep the QoS of a message. The packets of `systree` values have a topic
that nobody checks, but no QoS to lose. -/
def Clonable (msg : Publish) : Prop :=
  msg.qos.isValid = true ∧
    (validTopic msg.topic = true ∨ (msg.version = ProtocolV311 ∧ msg.qos = QoS0))

/-- What can be retained. -/
def Retainable : RetainObject → Prop
  | .publish packet => validTopic packet.topic = true ∧ packet.qos.isValid = true
  | .dynamic _ => True

theorem clonable_of_retainable {obj : RetainObject} (good : Retainable obj) (now : Time) :
    Clonable (obj.packetAt now) := by
  cases obj with
  | publish packet => exact ⟨good.2, .inl good.1⟩
  | dynamic value =>
      have spec := DynamicValue.retained_spec value now
      refine ⟨?_, .inr spec⟩
      change QosType.isValid (value.retained now).qos = true
      rw [spec.2]
      rfl

/-- A clone has the QoS of the message. -/
theorem clone_qos {msg : Publish} (clonable : Clonable msg) (v : ProtocolVersion) :
    ∃ pkt, msg.clone v = .ok pkt ∧ pkt.qos = msg.qos := by
  by_cases topicValid : validTopic msg.topic = true
  · rcases Publish.clone_eq msg v topicValid clonable.1 with ⟨properties, -, run⟩
    have flags := Subscriber.flagsQoS_clone clonable.1 msg.retain true
    exact ⟨_, run, flags⟩
  · have plain := clonable.2.resolve_left topicValid
    refine ⟨{ Publish.new msg.version with expireAt := msg.expireAt }, ?_, ?_⟩
    · have refused : (Publish.new msg.version).set msg.topic msg.payload msg.qos msg.retain false =
          .error .ErrInvalidTopic := by simp [Publish.set, topicValid]
      have old : ¬(msg.version = ProtocolV50 ∧ v = ProtocolV50) := by
        rw [plain.1]
        exact fun both => absurd both.1 (by decide)
      simp only [Publish.clone, refused, if_neg old]
    · have zero : Subscriber.flagsQoS 0 = QoS0 := by decide
      rw [plain.2]
      exact zero

theorem retainedClone_qos {msg : Publish} (clonable : Clonable msg) (v : ProtocolVersion) :
    ∃ pkt, Broker.retainedClone v msg = some pkt ∧ pkt.qos = msg.qos := by
  rcases clone_qos clonable v with ⟨pkt, run, same⟩
  refine ⟨pkt.setRetain true, by simp [Broker.retainedClone, run], ?_⟩
  rw [← same]
  have keeps : ∀ flags : UInt8, Subscriber.flagsQoS
      (Publish.putFlag flags Publish.maskPublishFlagRetain true) = Subscriber.flagsQoS flags := by
    intro flags
    have mask : (flags ||| Publish.maskPublishFlagRetain) &&& Publish.maskPublishFlagQoS =
        flags &&& Publish.maskPublishFlagQoS := by
      rw [← UInt8.toBitVec_inj, UInt8.toBitVec_and, UInt8.toBitVec_or,
        BitVec.and_or_distrib_right]
      exact BitVec.or_zero
    rw [Subscriber.flagsQoS, Publish.putFlag, if_pos rfl, mask, Subscriber.flagsQoS]
  exact keeps pkt.mFlags

namespace Broker

/-- The subscriptions of a broker: what was granted to a subscriber. -/
def Held (b : Broker) (s : Hash) (params : SubscriptionParams) : Prop :=
  (s, params.Granted) ∈ b.granted

/-- What holds of a broker at all times. -/
structure Inv (b : Broker) : Prop where
  sound : ∀ s client conn, b.clients.lookup s = some client → client.conn = some conn → conn.Sound
  inbound : ∀ msg ∈ b.inbound, validTopic msg.topic = true ∧ msg.qos.isValid = true
  inRetained : ∀ obj ∈ b.inRetained, Retainable obj
  topics : b.topics.Holds Retainable b.Held
  known : ∀ grant ∈ b.granted, (b.clients.lookup grant.1).isSome = true
  queued : ∀ d ∈ b.queued, (d.subscriber, d.granted) ∈ b.granted

theorem inv_new (allowOverlapping : Bool) : (new allowOverlapping).Inv where
  sound := by simp [new]
  inbound := by simp [new]
  inRetained := by simp [new]
  topics := Topics.Provider.holds_empty allowOverlapping
  known := by simp [new]
  queued := by simp [new]

/-- Replacing a client by one whose connection is sound. -/
theorem Inv.setClient {b : Broker} (inv : b.Inv) (s : Hash) {client : Client}
    (sound : ∀ conn, client.conn = some conn → conn.Sound) :
    ({ b with clients := b.clients.insert s client } : Broker).Inv := by
  refine ⟨?_, inv.inbound, inv.inRetained, inv.topics, ?_, inv.queued⟩
  · intro other found conn look held
    by_cases same : other = s
    · subst other
      rw [AList.lookup_insert, Option.some.injEq] at look
      subst look
      exact sound conn held
    · rw [AList.lookup_insert_ne same] at look
      exact inv.sound other found conn look held
  · intro grant member
    have there := inv.known grant member
    rw [AList.lookup_isSome] at there ⊢
    exact (AList.mem_insert _).mpr (.inr there)

theorem Inv.connect {b : Broker} (inv : b.Inv) (s : Hash) {version : ProtocolVersion}
    (supported : version ∈ SupportedVersions) (RetainAvailable : Bool) (MaxRxTopicAlias : UInt16)
    (offlineQoS0 : Bool) :
    (b.connect s version RetainAvailable MaxRxTopicAlias offlineQoS0).Inv := by
  refine inv.setClient s ?_
  intro conn same
  have fresh := Option.some.inj same
  rw [← fresh]
  exact Inbound.sound_new (Subscriber.supported_cases supported) _ _ _

theorem Inv.receive {b : Broker} (inv : b.Inv) {s : Hash} {client : Client} {conn : Inbound Unit}
    (look : b.clients.lookup s = some client) (held : client.conn = some conn)
    (input : Inbound.Rx Unit) : (b.receive s client conn input).Inv := by
  have next : (conn.rx input).Sound := Inbound.sound_rx (inv.sound s client conn look held) input
  have cleared : ({ conn.rx input with retained := [], published := [] } : Inbound Unit).Sound :=
    ⟨next.supported, next.aliases, next.queued, by simp, by simp⟩
  have set := @Inv.setClient b inv s
    { client with conn := some { conn.rx input with retained := [], published := [] } }
    (fun other same => Option.some.inj same ▸ cleared)
  refine ⟨set.sound, ?_, ?_, set.topics, set.known, set.queued⟩
  · intro msg member
    rcases List.mem_append.mp member with before | new
    · exact inv.inbound msg before
    · rcases List.mem_map.mp new with ⟨m, there, rfl⟩
      have fit := next.forwarded m there
      exact ⟨fit.topicValid, fit.qosValid⟩
  · intro obj member
    rcases List.mem_append.mp member with before | new
    · exact inv.inRetained obj before
    · rcases List.mem_map.mp new with ⟨m, there, rfl⟩
      have fit := next.kept m there
      exact ⟨fit.topicValid, fit.qosValid⟩

theorem granted_subscribe (mT : Topics.Provider) (t : GoString) (s : Hash) (p : SubscriptionParams)
    (now : Time) : (mT.subscribe t s p now).2.granted = SubscriptionOptions.qos p.Ops := by
  unfold Topics.Provider.subscribe
  simp only
  split <;> rfl

/-- Every filter of a SUBSCRIBE is granted the QoS that it asks for. -/
theorem codes_subscribeTopics (s : Hash) (subsID : UInt32) (now : Time)
    (topics : List (GoString × SubscriptionOptions)) (mT : Topics.Provider) :
    (subscribeTopics s subsID now topics mT).2.map Prod.fst =
      topics.map fun topic => SubscriptionOptions.qos topic.2 := by
  induction topics generalizing mT with
  | nil => rfl
  | cons topic topics ih =>
      simp only [subscribeTopics, List.map_cons, ih, granted_subscribe]

/-- The loop over the filters of a SUBSCRIBE. -/
theorem subscribeTopics_spec {s : Hash} {subsID : UInt32} {now : Time}
    {kept : RetainObject → Prop} {held : Hash → SubscriptionParams → Prop}
    {topics : List (GoString × SubscriptionOptions)} {mT : Topics.Provider}
    (holds : mT.Holds kept held)
    (mine : ∀ topic ∈ topics, held s ⟨subsID, topic.2, SubscriptionOptions.qos topic.2⟩) :
    (subscribeTopics s subsID now topics mT).1.Holds kept held ∧
      ∀ answer ∈ (subscribeTopics s subsID now topics mT).2, ∀ rp ∈ answer.2,
        ∃ obj, kept obj ∧ rp = obj.packetAt now := by
  induction topics generalizing mT with
  | nil => exact ⟨holds, by simp [subscribeTopics]⟩
  | cons topic topics ih =>
      rcases topic with ⟨t, ops⟩
      have first : held s { (⟨subsID, ops, 0⟩ : SubscriptionParams) with
          Granted := SubscriptionOptions.qos ops } := mine (t, ops) (by simp)
      rcases ih (holds.subscribe t first now) (fun other member => mine other (by simp [member])) with
        ⟨rest, found⟩
      refine ⟨rest, ?_⟩
      intro answer member
      rcases List.mem_cons.mp member with rfl | later
      · exact fun rp there => holds.of_mem_subscribe first there
      · exact found answer later

theorem addReturnCodes_ok (msg : SubAck) {codes : List ReasonCode}
    (valid : ∀ code ∈ codes, QosType.isValid code = true) :
    msg.addReturnCodes codes = .ok { msg with returnCodes := msg.returnCodes ++ codes } := by
  induction codes generalizing msg with
  | nil => simp [SubAck.addReturnCodes]
  | cons code codes ih =>
      have accepted : code ∈ SubAck.validCodes ∧ QosType.isValidFull code = true := by
        rcases Subscriber.eq_of_isValid (valid code (by simp)) with rfl | rfl | rfl <;> decide
      rw [SubAck.addReturnCodes, if_neg (fun refused => refused.2 accepted.1),
        if_neg (by rw [accepted.2]; decide), ih _ fun other member => valid other (by simp [member])]
      simp

/-- The answers to the filters of a SUBSCRIBE in a state of the broker. -/
def answers (b : Broker) (s : Hash) (msg : Subscribe) (now : Time) : List (QosType × List Publish) :=
  (subscribeTopics s msg.subscriptionID now msg.topics b.topics).2

/-- `onSubscribe` on a packet with valid QoS. -/
theorem onSubscribe_eq (b : Broker) (v : ProtocolVersion) (s : Hash) {msg : Subscribe} (now : Time)
    (valid : ∀ code ∈ (b.answers s msg now).map Prod.fst, QosType.isValid code = true) :
    b.onSubscribe v s msg now =
      ({ b with
        topics := (subscribeTopics s msg.subscriptionID now msg.topics b.topics).1
        granted := b.granted ++ ((b.answers s msg now).map Prod.fst).map fun code => (s, code)
        queued := b.queued ++ retainedDeliveries v s (b.answers s msg now) },
        some ⟨v, some (idOrZero msg.packetID), (b.answers s msg now).map Prod.fst⟩) := by
  have run := addReturnCodes_ok ((SubAck.new v).setPacketID (idOrZero msg.packetID)) valid
  unfold answers at run ⊢
  simp only [onSubscribe, run]
  rfl

theorem Inv.onSubscribe {b : Broker} (inv : b.Inv) (v : ProtocolVersion) {s : Hash}
    {msg : Subscribe} (now : Time) (there : (b.clients.lookup s).isSome = true)
    (valid : ∀ topic ∈ msg.topics, QosType.isValid (SubscriptionOptions.qos topic.2) = true) :
    (b.onSubscribe v s msg now).1.Inv ∧
      (∀ code ∈ (b.answers s msg now).map Prod.fst, QosType.isValid code = true) ∧
      ∀ answer ∈ b.answers s msg now, ∀ rp ∈ answer.2, Clonable rp := by
  -- what is granted by this packet counts as granted from the first filter on
  have larger : ∀ id params, b.Held id params → (id, params.Granted) ∈ b.granted ++
      msg.topics.map fun topic => (s, SubscriptionOptions.qos topic.2) :=
    fun id params held => List.mem_append_left _ held
  rcases @subscribeTopics_spec s msg.subscriptionID now _ _ msg.topics b.topics
    (inv.topics.mono larger) (fun topic member => List.mem_append_right _
      (List.mem_map.mpr ⟨topic, member, rfl⟩)) with ⟨holds, found⟩
  have codes := codes_subscribeTopics s msg.subscriptionID now msg.topics b.topics
  have codesValid : ∀ code ∈ (b.answers s msg now).map Prod.fst, QosType.isValid code = true := by
    intro code member
    rw [answers, codes] at member
    rcases List.mem_map.mp member with ⟨topic, topicMem, rfl⟩
    exact valid topic topicMem
  refine ⟨?_, codesValid, ?_⟩
  · rw [onSubscribe_eq b v s now codesValid]
    refine ⟨inv.sound, inv.inbound, inv.inRetained, ?_, ?_, ?_⟩
    · unfold Held answers
      simp only [codes, List.map_map]
      exact holds
    · intro grant member
      rcases List.mem_append.mp member with before | new
      · exact inv.known grant before
      · rcases List.mem_map.mp new with ⟨code, _, rfl⟩
        exact there
    · intro d member
      rcases List.mem_append.mp member with before | new
      · exact List.mem_append_left _ (inv.queued d before)
      · refine List.mem_append_right _ ?_
        simp only [retainedDeliveries, List.mem_flatMap, List.mem_filterMap,
          Option.map_eq_some_iff] at new
        rcases new with ⟨answer, answerMem, rp, _, pkt, _, rfl⟩
        exact List.mem_map.mpr ⟨answer.1, List.mem_map.mpr ⟨answer, answerMem, rfl⟩, rfl⟩
  · intro answer member rp rpMem
    rcases found answer member rp rpMem with ⟨obj, good, rfl⟩
    exact clonable_of_retainable good now

theorem Inv.publisher {b : Broker} (inv : b.Inv) : b.publisher.Inv := by
  unfold Broker.publisher
  split
  · exact inv
  · rename_i msg rest waiting
    refine ⟨inv.sound, ?_, inv.inRetained, inv.topics, inv.known, ?_⟩
    · intro other member
      exact inv.inbound other (by rw [waiting]; exact List.mem_cons_of_mem _ member)
    · intro d member
      rcases List.mem_append.mp member with before | new
      · exact inv.queued d before
      · rcases List.mem_filterMap.mp new with ⟨e, found, sent⟩
        rcases inv.topics.of_mem_subscriptionSearch found with ⟨params, held, same⟩
        have record : d.subscriber = e.s ∧ d.granted = e.qos := by
          unfold publishTo at sent
          split at sent
          · simp at sent
          · split at sent
            · simp at sent
            · rcases Option.map_eq_some_iff.mp sent with ⟨packet, _, rfl⟩
              exact ⟨rfl, rfl⟩
        rw [record.1, record.2, same]
        exact held

theorem Inv.retainer {b : Broker} (inv : b.Inv) : b.retainer.Inv := by
  unfold Broker.retainer
  split
  · exact inv
  · rename_i obj rest waiting
    have good : Retainable obj := inv.inRetained obj (by rw [waiting]; simp)
    refine ⟨inv.sound, inv.inbound, ?_, inv.topics.retain good, inv.known, inv.queued⟩
    intro other member
    exact inv.inRetained other (by rw [waiting]; exact List.mem_cons_of_mem _ member)

theorem holds_unSubscribe {kept : RetainObject → Prop} {held : Hash → SubscriptionParams → Prop}
    {mT : Topics.Provider} (holds : mT.Holds kept held) (s : Hash) (topics : List GoString) :
    (topics.foldl (fun mT t => (mT.unSubscribe t (some s)).1) mT).Holds kept held :=
  invariant_run (Topics.Provider.Holds kept held) (fun _ t before => before.unSubscribe t (some s))
    holds topics

/-- A SUBSCRIBE that is handled: the client is connected and the QoS of all filters is valid. -/
def Accepts (b : Broker) (s : Hash) (msg : Subscribe) : Prop :=
  (∃ conn subscriber, b.clients.lookup s = some ⟨some conn, subscriber⟩) ∧
    ∀ topic ∈ msg.topics, QosType.isValid (SubscriptionOptions.qos topic.2) = true

/-- The step of a SUBSCRIBE. -/
theorem step_subscribe (b : Broker) (s : Hash) (msg : Subscribe) (now : Time) :
    (∃ v, b.Accepts s msg ∧ b.step (.subscribe s msg now) = (b.onSubscribe v s msg now).1) ∨
      (¬b.Accepts s msg ∧ b.step (.subscribe s msg now) = b) := by
  simp only [step]
  split
  · rename_i conn subscriber look
    split
    · rename_i valid
      exact .inl ⟨conn.Version, ⟨⟨conn, subscriber, look⟩, by simpa using valid⟩, rfl⟩
    · rename_i invalid
      exact .inr ⟨fun accepted => invalid (by simpa using accepted.2), rfl⟩
  · rename_i absent
    refine .inr ⟨?_, rfl⟩
    rintro ⟨⟨conn, subscriber, look⟩, -⟩
    exact absent conn subscriber look

theorem Inv.step {b : Broker} (inv : b.Inv) (op : Op) : (b.step op).Inv := by
  cases op with
  | connect s version RetainAvailable MaxRxTopicAlias offlineQoS0 =>
      simp only [Broker.step]
      split
      · rename_i supported
        exact inv.connect s supported RetainAvailable MaxRxTopicAlias offlineQoS0
      · exact inv
  | disconnect s =>
      simp only [Broker.step]
      split
      · exact inv
      · exact inv.setClient s (by simp)
  | receive s input =>
      simp only [Broker.step]
      split
      · rename_i conn subscriber look
        exact inv.receive look rfl input
      · exact inv
  | subscribe s msg now =>
      rcases b.step_subscribe s msg now with ⟨v, ⟨⟨conn, subscriber, look⟩, valid⟩, run⟩ | ⟨-, run⟩
      · rw [run]
        exact (inv.onSubscribe v now (by rw [look]; rfl) valid).1
      · rw [run]
        exact inv
  | unSubscribe s topics =>
      exact ⟨inv.sound, inv.inbound, inv.inRetained, holds_unSubscribe inv.topics s topics, inv.known,
        inv.queued⟩
  | systree value =>
      refine ⟨inv.sound, inv.inbound, ?_, inv.topics, inv.known, inv.queued⟩
      intro obj member
      rcases List.mem_append.mp member with before | new
      · exact inv.inRetained obj before
      · rw [List.mem_singleton] at new
        exact new ▸ trivial
  | publisher => exact inv.publisher
  | retainer => exact inv.retainer

/-- The packet has the smaller of the published and the granted QoS. -/
def Downgraded (d : Delivery) : Prop := d.packet.qos = min d.message.qos d.granted

/-- What a step of the broker must meet: no retained message found for a SUBSCRIBE has a larger
QoS than is granted, and no message that is published has a larger QoS than any of its receivers
was granted, unless it has QoS 2 and the receiver QoS 1. -/
def Fine (b : Broker) : Op → Prop
  | .subscribe s msg now =>
      b.Accepts s msg → ∀ answer ∈ b.answers s msg now, ∀ rp ∈ answer.2, rp.qos ≤ answer.1
  | .publisher =>
      ∀ msg ∈ b.inbound.head?, ∀ e ∈ receivers b.topics msg,
        (e.ids = [] ∨ msg.version = ProtocolV50) →
          msg.qos ≤ e.qos ∨ (e.qos = QoS1 ∧ msg.qos = QoS2)
  | _ => True

theorem min_eq_left_iff (q g : QosType) : q = min q g ↔ q ≤ g := by
  change q = (if q ≤ g then q else g) ↔ q ≤ g
  by_cases le : q ≤ g
  · simp [le]
  · rw [if_neg le]
    exact ⟨fun same => same ▸ UInt8.le_refl _, fun other => absurd other le⟩

/-- The `switch` of `Publish` gives the smaller QoS exactly in these cases. -/
theorem lowered_eq_min_iff (q g : QosType) :
    (if g = QoS1 ∧ q = QoS2 then QoS1 else q) = min q g ↔ q ≤ g ∨ (g = QoS1 ∧ q = QoS2) := by
  by_cases lowered : g = QoS1 ∧ q = QoS2
  · rw [if_pos lowered, lowered.1, lowered.2]
    decide
  · rw [if_neg lowered, min_eq_left_iff]
    simp [lowered]

theorem publishTo_downgraded_iff {clients : AList fun _ : Hash => Client} {msg : Publish}
    {e : PublishEntry} (topicValid : validTopic msg.topic = true)
    (qosValid : msg.qos.isValid = true) (there : (clients.lookup e.s).isSome = true) :
    (∀ d, publishTo clients msg e = some d → Downgraded d) ↔
      ((e.ids = [] ∨ msg.version = ProtocolV50) →
        msg.qos ≤ e.qos ∨ (e.qos = QoS1 ∧ msg.qos = QoS2)) := by
  rcases Option.isSome_iff_exists.mp there with ⟨client, look⟩
  by_cases settable : e.ids = [] ∨ msg.version = ProtocolV50
  · rcases Subscriber.outgoing_eq client.subscriber e.qos e.ops topicValid qosValid settable with
      ⟨properties, -, built⟩
    have lowered := Subscriber.qos_outgoingPacket e.qos e.ops qosValid properties
    have zero := Subscriber.qos_outgoingPacket_eq_zero e.qos e.ops qosValid properties
    constructor
    · intro all _
      by_cases plain : msg.qos = QoS0
      · exact .inl (by rw [plain]; exact UInt8.zero_le)
      · rcases Subscriber.publish_packet client.subscriber e.qos e.ops built
          (.inr (.inr (zero.not.mpr plain))) with ⟨handed, run, held⟩
        have sent : publishTo clients msg e = some ⟨e.s, e.qos, msg,
            Subscriber.outgoingPacket msg e.qos e.ops properties⟩ := by
          simp only [publishTo, look, run, held, Option.map_some]
        have down := all _ sent
        rw [Downgraded, lowered] at down
        exact (lowered_eq_min_iff _ _).mp down
    · intro condition d sent
      simp only [publishTo, look] at sent
      split at sent
      · simp at sent
      · rename_i handed run
        rcases Option.map_eq_some_iff.mp sent with ⟨packet, held, rfl⟩
        have same := Subscriber.outgoing_of_publish client.subscriber e.qos e.ops run held
        rw [built, Except.ok.injEq] at same
        rw [Downgraded, ← same, lowered]
        exact (lowered_eq_min_iff _ _).mpr (condition settable)
  · have refused := settable
    rw [not_or] at refused
    have failed : client.subscriber.publish msg e.qos e.ops e.ids = .error .ErrNotSupported := by
      rw [Subscriber.publish, Subscriber.outgoing_of_unsettable client.subscriber e.qos e.ops
        refused.1 refused.2]
    refine ⟨fun _ other => absurd other settable, fun _ d sent => ?_⟩
    simp [publishTo, look, failed] at sent

theorem retainedDeliveries_downgraded_iff {answers : List (QosType × List Publish)}
    (clonable : ∀ answer ∈ answers, ∀ rp ∈ answer.2, Clonable rp) (v : ProtocolVersion) (s : Hash) :
    (∀ d ∈ retainedDeliveries v s answers, Downgraded d) ↔
      ∀ answer ∈ answers, ∀ rp ∈ answer.2, rp.qos ≤ answer.1 := by
  constructor
  · intro all answer answerMem rp rpMem
    rcases retainedClone_qos (clonable answer answerMem rp rpMem) v with ⟨pkt, cloned, same⟩
    have down := all ⟨s, answer.1, rp, pkt⟩ (List.mem_flatMap.mpr ⟨answer, answerMem,
      List.mem_filterMap.mpr ⟨rp, rpMem, by rw [cloned]; rfl⟩⟩)
    rw [Downgraded, same] at down
    exact (min_eq_left_iff _ _).mp down
  · intro small d member
    rcases List.mem_flatMap.mp member with ⟨answer, answerMem, inner⟩
    rcases List.mem_filterMap.mp inner with ⟨rp, rpMem, made⟩
    rcases retainedClone_qos (clonable answer answerMem rp rpMem) v with ⟨pkt, cloned, same⟩
    rw [cloned, Option.map_some, Option.some.injEq] at made
    rw [← made, Downgraded, same]
    exact (min_eq_left_iff _ _).mpr (small answer answerMem rp rpMem)

/-- A step keeps the law exactly when it meets the condition. -/
theorem step_downgraded_iff {b : Broker} (inv : b.Inv) (op : Op) :
    (∀ d ∈ (b.step op).queued, Downgraded d) ↔ (∀ d ∈ b.queued, Downgraded d) ∧ b.Fine op := by
  have unchanged : ∀ other : Broker, other.queued = b.queued → b.Fine op = True →
      ((∀ d ∈ other.queued, Downgraded d) ↔ (∀ d ∈ b.queued, Downgraded d) ∧ b.Fine op) := by
    intro other same fine
    rw [same, fine, and_true]
  cases op with
  | connect s version RetainAvailable MaxRxTopicAlias offlineQoS0 =>
      refine unchanged _ ?_ rfl
      simp only [step]
      split <;> rfl
  | disconnect s =>
      refine unchanged _ ?_ rfl
      simp only [step]
      split <;> rfl
  | receive s input =>
      refine unchanged _ ?_ rfl
      simp only [step]
      split <;> rfl
  | unSubscribe s topics => exact unchanged _ rfl rfl
  | systree value => exact unchanged _ rfl rfl
  | retainer =>
      refine unchanged _ ?_ rfl
      simp only [step, Broker.retainer]
      split <;> rfl
  | subscribe s msg now =>
      rcases b.step_subscribe s msg now with ⟨v, accepted, run⟩ | ⟨refused, run⟩
      · rcases accepted with ⟨⟨conn, subscriber, look⟩, valid⟩
        rcases inv.onSubscribe v now (by rw [look]; rfl) valid with ⟨-, codes, clonable⟩
        have law := retainedDeliveries_downgraded_iff clonable v s
        rw [run, onSubscribe_eq b v s now codes]
        simp only [List.forall_mem_append, Fine, ← law,
          show b.Accepts s msg from ⟨⟨conn, subscriber, look⟩, valid⟩, true_imp_iff]
      · rw [run]
        simp [Fine, refused]
  | publisher =>
      simp only [step, Broker.publisher, Fine]
      split
      · rename_i idle
        simp [idle]
      · rename_i msg rest waiting
        have fit := inv.inbound msg (by rw [waiting]; simp)
        have each : ∀ e ∈ receivers b.topics msg,
            ((∀ d, publishTo b.clients msg e = some d → Downgraded d) ↔
              ((e.ids = [] ∨ msg.version = ProtocolV50) →
                msg.qos ≤ e.qos ∨ (e.qos = QoS1 ∧ msg.qos = QoS2))) := by
          intro e found
          rcases inv.topics.of_mem_subscriptionSearch found with ⟨params, held, -⟩
          exact publishTo_downgraded_iff fit.1 fit.2 (inv.known _ held)
        simp only [List.forall_mem_append, waiting, List.head?_cons, Option.mem_some_iff, forall_eq']
        refine and_congr_right fun _ => ?_
        constructor
        · intro all e found
          exact (each e found).mp fun d sent => all d (List.mem_filterMap.mpr ⟨e, found, sent⟩)
        · intro all d member
          rcases List.mem_filterMap.mp member with ⟨e, found, sent⟩
          exact (each e found).mpr (all e found) d sent

/-- In every run of the broker, every delivery is made for a QoS that was granted to the
subscriber, and all of them have the smaller of the published and the granted QoS exactly when
every step of the run meets the condition. -/
theorem queued_downgraded_iff (allowOverlapping : Bool) (ops : List Op) :
    (∀ d ∈ (ops.foldl step (new allowOverlapping)).queued,
        (d.subscriber, d.granted) ∈ (ops.foldl step (new allowOverlapping)).granted) ∧
      ((∀ d ∈ (ops.foldl step (new allowOverlapping)).queued, Downgraded d) ↔
        Along step Fine (new allowOverlapping) ops) := by
  have inv := invariant_run Inv (fun _ op before => before.step op) (inv_new allowOverlapping) ops
  refine ⟨inv.queued, ?_⟩
  have law := run_iff_along Inv (fun b => ∀ d ∈ b.queued, Downgraded d)
    (fun _ op before => before.step op) (fun _ op before => step_downgraded_iff before op)
    (inv_new allowOverlapping) ops
  simpa [new] using law

/-- A SUBSCRIBE of a V3.1.1 client to the topic `a` with QoS 0. -/
def sampleSubscribe : Subscribe := ⟨ProtocolV311, some 1, .empty, [([0x61], 0)]⟩

/-- A client subscribes to `a` with QoS 0, a second one publishes a retained message of QoS 1 to
it, and then subscribes to it with QoS 0 as well. -/
def sampleRun : List Op :=
  [.connect 1 ProtocolV311 true 0 false, .connect 2 ProtocolV311 true 0 false,
    .subscribe 1 sampleSubscribe 0,
    .receive 2 (.publish () [0x33, 0x06, 0x00, 0x01, 0x61, 0x00, 0x01, 0x68] (fun _ => false) 0),
    .publisher, .retainer, .subscribe 2 sampleSubscribe 0]

/-- Both get the message with QoS 1: the first one live, the second one as a retained message. -/
theorem queued_above_granted :
    ∃ live retained, (sampleRun.foldl step (new false)).queued = [live, retained] ∧
      (live.subscriber = 1 ∧ live.granted = QoS0 ∧ live.message.qos = QoS1 ∧
        live.packet.qos = QoS1 ∧ ¬Downgraded live) ∧
      (retained.subscriber = 2 ∧ retained.granted = QoS0 ∧ retained.message.qos = QoS1 ∧
        retained.packet.qos = QoS1 ∧ ¬Downgraded retained) := by
  refine ⟨_, _, rfl, ⟨rfl, rfl, rfl, rfl, ?_⟩, ⟨rfl, rfl, rfl, rfl, ?_⟩⟩
  · unfold Downgraded
    decide
  · unfold Downgraded
    decide

end Broker

end VolantMQ
