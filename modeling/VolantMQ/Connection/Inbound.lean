import VolantMQ.Lib.Run
import VolantMQ.Packet.Ack
import VolantMQ.Packet.Arrival

/-!
# The receiving side of a connection

How a connection handles the PUBLISH and PUBREL packets of its client: `onPublish`, the PUBREL
case of `onAck`, the ack queue `pubIn` between them, and `publishToTopic`, which hands a message
to the topics manager. The messages handed over are recorded in the state.

The source keeps pointers to packets. A packet that arrives is therefore carried together with
a mark `ref` that says which packet it is; the handlers do not look at it.
-/

namespace VolantMQ.Connection

open Lib Packet

/-- `ackQueue.messages` -/
abbrev AckQueue (α : Type) := AList fun _ : IDType => α

/-- A packet as it arrived, with a mark that tells it from others of the same contents. -/
structure Marked (ρ : Type) where
  ref : ρ
  packet : Publish

/-- The parts of `connection.Type` that the receiving side uses. -/
structure Inbound (ρ : Type) where
  Version : ProtocolVersion
  RetainAvailable : Bool
  MaxRxTopicAlias : UInt16
  /-- `Subscriber.Hash()` -/
  hash : ℕ
  rxTopicAlias : AList fun _ : UInt16 => GoString
  pubIn : AckQueue (Marked ρ)
  /-- The calls of `Messenger.Retain`, in order. -/
  retained : List (Marked ρ)
  /-- The calls of `Messenger.Publish`, in order. -/
  published : List (Marked ρ)

namespace Inbound

variable {ρ : Type}

/-- A connection that has just been created by `New`. -/
def new (Version : ProtocolVersion) (RetainAvailable : Bool) (MaxRxTopicAlias : UInt16)
    (hash : ℕ) : Inbound ρ :=
  { Version, RetainAvailable, MaxRxTopicAlias, hash
    rxTopicAlias := ∅
    pubIn := ∅
    retained := []
    published := [] }

def preProcessPublishV50 (s : Inbound ρ) (p : Publish) : Except PacketError Unit :=
  if ProtocolV50 ≤ s.Version ∧ !s.RetainAvailable ∧ p.retain then
    .error (.reason CodeRetainNotSupported)
  else
    match p.propertyGet PropertyTopicAlias with
    | none => .ok ()
    | some prop =>
        match prop.asShort with
        | .ok val =>
            if val = 0 ∨ s.MaxRxTopicAlias < val then .error (.reason CodeInvalidTopicAlias)
            else .ok ()
        | .error _ => .ok ()

/-- The method value `preProcessPublish`, chosen by the version in `New`. -/
def preProcessPublish (s : Inbound ρ) (p : Publish) : Except PacketError Unit :=
  if ProtocolV50 ≤ s.Version then s.preProcessPublishV50 p else .ok ()

/-- The topic alias part of `postProcessPublishV50`. -/
def resolveAlias (s : Inbound ρ) (p : Publish) : Except PacketError (Inbound ρ × Publish) :=
  match p.propertyGet PropertyTopicAlias with
  | none => .ok (s, p)
  | some prop =>
      match prop.asShort with
      | .error _ => .error (.reason CodeInvalidTopicAlias)
      | .ok val =>
          if p.topic.length ≠ 0 then
            .ok ({ s with rxTopicAlias := s.rxTopicAlias.insert val p.topic }, p)
          else
            match s.rxTopicAlias.lookup val with
            | none => .error (.reason CodeInvalidTopicAlias)
            | some topic =>
                match p.setTopic topic with
                | .ok p => .ok (s, p)
                | .error _ => .ok (s, p)

/-- The expiry part of `postProcessPublishV50`. -/
def setExpiry (now : Time) (p : Publish) : Except PacketError Publish :=
  match p.propertyGet PropertyPublicationExpiry with
  | none => .ok p
  | some prop =>
      match prop.asInt with
      | .error e => .error e
      | .ok val => .ok { p with expireAt := some (now + val.toNat * 1000000000) }

/-- The method value `postProcessPublish`: for V5.0 `postProcessPublishV50`. An alias bound
before an error stays bound. -/
def postProcessPublish (s : Inbound ρ) (now : Time) (p : Publish) :
    Inbound ρ × Except PacketError Publish :=
  if ProtocolV50 ≤ s.Version then
    match s.resolveAlias p with
    | .error e => (s, .error e)
    | .ok (s, p) => (s, setExpiry now p)
  else (s, .ok p)

/-- The calls of `Messenger.Retain`, if the retain flag is set, and `Messenger.Publish`. -/
def handOver (s : Inbound ρ) (m : Marked ρ) : Inbound ρ :=
  { s with
    retained := if m.packet.retain then s.retained ++ [m] else s.retained
    published := s.published ++ [m] }

/-- `publishToTopic`: the connection afterwards and the error returned. -/
def publishToTopic (s : Inbound ρ) (now : Time) (m : Marked ρ) : Inbound ρ × Option PacketError :=
  match s.postProcessPublish now m.packet with
  | (s, .error e) => (s, some e)
  | (s, .ok p) => (s.handOver { m with packet := { p with publishID := s.hash } }, none)

/-- The acknowledgement of a PUBLISH. -/
def reply (s : Inbound ρ) (mType : PacketType) (p : Publish) (reason : ReasonCode) : Ack :=
  ((Ack.new s.Version mType).setPacketID (idOrZero p.packetID)).setReason reason

/-- The reason code of `onPublish`; `deny` is whether `Auth.ACL` denies writing to a topic. -/
def reasonFor (deny : GoString → Bool) (topic : GoString) : ReasonCode :=
  if deny topic then CodeAdministrativeAction else CodeSuccess

/-- `pubIn.store` -/
def store (s : Inbound ρ) (m : Marked ρ) : Inbound ρ :=
  { s with pubIn := s.pubIn.insert (idOrZero m.packet.packetID) m }

/-- `onPublish`: the connection afterwards, the response and the error. -/
def onPublish (s : Inbound ρ) (deny : GoString → Bool) (now : Time) (m : Marked ρ) :
    Inbound ρ × Option Ack × Option PacketError :=
  match s.preProcessPublish m.packet with
  | .error e => (s, none, some e)
  | .ok () =>
      let reason := reasonFor deny m.packet.topic
      let qos := m.packet.qos
      if qos = QoS2 then
        let resp := s.reply .PUBREC m.packet reason
        if reason < CodeUnspecifiedError then (s.store m, some resp, none)
        else (s, some resp, none)
      else if qos = QoS1 then
        let resp := s.reply .PUBACK m.packet reason
        if reason < CodeUnspecifiedError then
          let (s, err) := s.publishToTopic now m
          (s, some resp, err)
        else (s, some resp, none)
      else if qos = QoS0 then
        if reason < CodeUnspecifiedError then
          let (s, err) := s.publishToTopic now m
          (s, none, err)
        else (s, none, none)
      else (s, none, none)

/-- `pubIn.release` with `onReleaseIn` -/
def release (s : Inbound ρ) (now : Time) (id : IDType) : Inbound ρ :=
  match s.pubIn.lookup id with
  | none => s
  | some orig =>
      let s := (s.publishToTopic now orig).1
      { s with pubIn := s.pubIn.erase id }

/-- `onAck` for a PUBREL: the connection afterwards and the PUBCOMP. -/
def onPubRel (s : Inbound ρ) (now : Time) (msg : Ack) : Inbound ρ × Ack :=
  let id := idOrZero msg.packetID
  (s.release now id, (Ack.new s.Version .PUBCOMP).setPacketID id)

/-- What a connection receives, with the clock and the access rules at that moment. -/
inductive Rx (ρ : Type) where
  | publish (ref : ρ) (buf : Bytes) (deny : GoString → Bool) (now : Time)
  | pubRel (msg : Ack) (now : Time)

/-- `readPacket` followed by `processIncoming` for one packet; a packet that does not decode
is dropped with the connection. -/
def rx (s : Inbound ρ) : Rx ρ → Inbound ρ
  | .publish ref buf deny now =>
      match decodePublish s.Version buf with
      | .error _ => s
      | .ok (packet, _) => (s.onPublish deny now ⟨ref, packet⟩).1
  | .pubRel msg now => (s.onPubRel now msg).1

/-- What a message satisfies when a connection of version `v` hands it to the topics manager:
what it satisfied on arrival, and it has a topic. -/
structure Forwarded (v : ProtocolVersion) (msg : Publish) : Prop where
  version : msg.version = v
  topicValid : validTopic msg.topic = true
  topicFits : msg.topic.length ≤ MaxLPString
  topicPresent : msg.topic.length ≠ 0
  flags : msg.mFlags.toNat < 16
  qosValid : msg.qos.isValid = true
  shaped : ∀ id val, msg.properties.properties.lookup id = some val →
    WellShaped (propertyTypeMap id) val
  known : ∀ id val, msg.properties.properties.lookup id = some val → id ∈ publishPropertyIDs
  bounded : weight msg.properties.properties.entries + msg.payload.length < 2 ^ 31

/-- What holds of a connection at all times: aliases stand for topics that arrived, the ack
queue holds packets that arrived, and what was handed over was fit for it. -/
structure Sound (s : Inbound ρ) : Prop where
  supported : s.Version < ProtocolV50 ∨ s.Version = ProtocolV50
  aliases : ∀ number topic, s.rxTopicAlias.lookup number = some topic →
    validTopic topic = true ∧ topic.length ≤ MaxLPString ∧ topic.length ≠ 0
  queued : ∀ id m, s.pubIn.lookup id = some m → m.packet.Arrived s.Version
  forwarded : ∀ m ∈ s.published, Forwarded s.Version m.packet
  kept : ∀ m ∈ s.retained, Forwarded s.Version m.packet

theorem forwarded_of_arrived {v : ProtocolVersion} {msg : Publish} (arrived : msg.Arrived v)
    (present : msg.topic.length ≠ 0) : Forwarded v msg where
  version := arrived.version
  topicValid := arrived.topicValid
  topicFits := arrived.topicFits
  topicPresent := present
  flags := arrived.flags
  qosValid := arrived.qosValid
  shaped := arrived.shaped
  known := arrived.known
  bounded := by
    have := arrived.bounded
    omega

/-- Resolving the alias of a packet that arrived gives it a topic, or fails. -/
theorem resolveAlias_spec {s next : Inbound ρ} (sound : s.Sound) {p q : Publish}
    (arrived : p.Arrived s.Version) (run : s.resolveAlias p = .ok (next, q)) :
    Forwarded s.Version q ∧ ∃ table, next = { s with rxTopicAlias := table } ∧
      ∀ number topic, table.lookup number = some topic →
        validTopic topic = true ∧ topic.length ≤ MaxLPString ∧ topic.length ≠ 0 := by
  unfold resolveAlias at run
  cases found : p.propertyGet PropertyTopicAlias with
  | none =>
      simp only [found, Except.ok.injEq, Prod.mk.injEq] at run
      rcases run with ⟨rfl, rfl⟩
      refine ⟨forwarded_of_arrived arrived ?_, s.rxTopicAlias, rfl, sound.aliases⟩
      intro empty
      rcases (arrived.named empty).2 with ⟨number, held⟩
      simp [found] at held
  | some prop =>
      simp only [found] at run
      cases short : prop.asShort with
      | error e => simp [short] at run
      | ok val =>
          simp only [short] at run
          split at run
          · rename_i present
            simp only [Except.ok.injEq, Prod.mk.injEq] at run
            rcases run with ⟨rfl, rfl⟩
            refine ⟨forwarded_of_arrived arrived present, _, rfl, ?_⟩
            intro number topic look
            by_cases same : number = val
            · subst number
              rw [AList.lookup_insert, Option.some.injEq] at look
              exact look ▸ ⟨arrived.topicValid, arrived.topicFits, present⟩
            · rw [AList.lookup_insert_ne same] at look
              exact sound.aliases number topic look
          · rename_i empty
            cases bound : s.rxTopicAlias.lookup val with
            | none => simp [bound] at run
            | some topic =>
                have known := sound.aliases val topic bound
                have accepted : p.setTopic topic = .ok { p with topic := topic } := by
                  simp [Publish.setTopic, known.1, known.2.2]
                simp only [bound, accepted, Except.ok.injEq, Prod.mk.injEq] at run
                rcases run with ⟨rfl, rfl⟩
                have size := arrived.bounded
                refine ⟨⟨arrived.version, known.1, known.2.1, known.2.2, arrived.flags,
                  arrived.qosValid, arrived.shaped, arrived.known, ?_⟩, s.rxTopicAlias, rfl,
                  sound.aliases⟩
                simp only
                omega

theorem setExpiry_spec {now : Time} {p q : Publish} (run : setExpiry now p = .ok q) :
    ∃ expireAt, q = { p with expireAt } := by
  unfold setExpiry at run
  split at run
  · exact ⟨p.expireAt, (Except.ok.inj run).symm⟩
  · split at run
    · simp at run
    · exact ⟨_, (Except.ok.inj run).symm⟩

theorem Forwarded.congr {v : ProtocolVersion} {msg : Publish} (fit : Forwarded v msg)
    (publishID : ℕ) (expireAt : Option Time) :
    Forwarded v { msg with publishID := publishID, expireAt := expireAt } :=
  ⟨fit.version, fit.topicValid, fit.topicFits, fit.topicPresent, fit.flags, fit.qosValid,
    fit.shaped, fit.known, fit.bounded⟩

/-- `publishToTopic` on a packet that arrived: aliases apart, it either fails without effect or
hands over one packet that is fit for it. -/
theorem publishToTopic_spec {s : Inbound ρ} (sound : s.Sound) (now : Time) {m : Marked ρ}
    (arrived : m.packet.Arrived s.Version) :
    ∃ table, (∀ number topic, table.lookup number = some topic →
        validTopic topic = true ∧ topic.length ≤ MaxLPString ∧ topic.length ≠ 0) ∧
      ((∃ e, s.publishToTopic now m = ({ s with rxTopicAlias := table }, some e)) ∨
        ∃ packet, Forwarded s.Version packet ∧
          s.publishToTopic now m =
            (({ s with rxTopicAlias := table } : Inbound ρ).handOver ⟨m.ref, packet⟩, none)) := by
  unfold publishToTopic postProcessPublish
  by_cases five : ProtocolV50 ≤ s.Version
  · rw [if_pos five]
    cases resolved : s.resolveAlias m.packet with
    | error e => exact ⟨s.rxTopicAlias, sound.aliases, .inl ⟨e, rfl⟩⟩
    | ok result =>
        rcases result with ⟨next, p⟩
        rcases resolveAlias_spec sound arrived resolved with ⟨fit, table, rfl, aliases⟩
        refine ⟨table, aliases, ?_⟩
        simp only
        cases expiry : setExpiry now p with
        | error e => exact .inl ⟨e, rfl⟩
        | ok q =>
            rcases setExpiry_spec expiry with ⟨expireAt, rfl⟩
            exact .inr ⟨_, fit.congr s.hash expireAt, rfl⟩
  · rw [if_neg five]
    have present : m.packet.topic.length ≠ 0 := by
      intro empty
      rw [(arrived.named empty).1] at five
      exact five (by decide)
    exact ⟨s.rxTopicAlias, sound.aliases, .inr ⟨_,
      (forwarded_of_arrived arrived present).congr s.hash m.packet.expireAt, rfl⟩⟩

theorem sound_publishToTopic {s : Inbound ρ} (sound : s.Sound) (now : Time) {m : Marked ρ}
    (arrived : m.packet.Arrived s.Version) :
    (s.publishToTopic now m).1.Sound ∧ (s.publishToTopic now m).1.pubIn = s.pubIn ∧
      (s.publishToTopic now m).1.Version = s.Version := by
  rcases publishToTopic_spec sound now arrived with ⟨table, aliases, ⟨e, run⟩ | ⟨q, fit, run⟩⟩
  · rw [run]
    exact ⟨⟨sound.supported, aliases, sound.queued, sound.forwarded, sound.kept⟩, rfl, rfl⟩
  · rw [run]
    refine ⟨⟨sound.supported, aliases, sound.queued, ?_, ?_⟩, rfl, rfl⟩
    · intro other member
      rcases List.mem_append.mp member with before | new
      · exact sound.forwarded other before
      · rw [List.mem_singleton] at new
        subst new
        exact fit
    · intro other member
      simp only [handOver] at member
      split at member
      · rcases List.mem_append.mp member with before | new
        · exact sound.kept other before
        · rw [List.mem_singleton] at new
          subst new
          exact fit
      · exact sound.kept other member

theorem sound_store {s : Inbound ρ} (sound : s.Sound) {m : Marked ρ}
    (arrived : m.packet.Arrived s.Version) : (s.store m).Sound := by
  refine ⟨sound.supported, sound.aliases, ?_, sound.forwarded, sound.kept⟩
  intro id held look
  by_cases same : id = idOrZero m.packet.packetID
  · subst id
    rw [store, AList.lookup_insert, Option.some.injEq] at look
    exact look ▸ arrived
  · rw [store, AList.lookup_insert_ne same] at look
    exact sound.queued id held look

/-- `onPublish` either leaves the connection as it is, or stores a QoS 2 packet, or hands over
any other one. -/
theorem onPublish_cases (s : Inbound ρ) (deny : GoString → Bool) (now : Time) (m : Marked ρ) :
    (s.onPublish deny now m).1 = s ∨
      (m.packet.qos = QoS2 ∧ (s.onPublish deny now m).1 = s.store m) ∨
      (m.packet.qos ≠ QoS2 ∧ (s.onPublish deny now m).1 = (s.publishToTopic now m).1) := by
  unfold onPublish
  cases s.preProcessPublish m.packet with
  | error e => exact .inl rfl
  | ok done =>
      simp only
      split
      · rename_i two
        split
        · exact .inr (.inl ⟨two, rfl⟩)
        · exact .inl rfl
      · rename_i notTwo
        split
        · split
          · exact .inr (.inr ⟨notTwo, rfl⟩)
          · exact .inl rfl
        · split
          · split
            · exact .inr (.inr ⟨notTwo, rfl⟩)
            · exact .inl rfl
          · exact .inl rfl

theorem sound_onPublish {s : Inbound ρ} (sound : s.Sound) (deny : GoString → Bool) (now : Time)
    {m : Marked ρ} (arrived : m.packet.Arrived s.Version) :
    (s.onPublish deny now m).1.Sound := by
  rcases s.onPublish_cases deny now m with same | ⟨_, stored⟩ | ⟨_, handed⟩
  · rw [same]
    exact sound
  · rw [stored]
    exact sound_store sound arrived
  · rw [handed]
    exact (sound_publishToTopic sound now arrived).1

theorem sound_release {s : Inbound ρ} (sound : s.Sound) (now : Time) (id : IDType) :
    (s.release now id).Sound := by
  unfold release
  cases look : s.pubIn.lookup id with
  | none => exact sound
  | some orig =>
      rcases sound_publishToTopic sound now (sound.queued _ orig look) with ⟨next, _, _⟩
      refine ⟨next.supported, next.aliases, ?_, next.forwarded, next.kept⟩
      intro other held found
      by_cases same : other = id
      · subst other
        simp at found
      · simp only [AList.lookup_erase_ne same] at found
        exact next.queued other held found

theorem sound_rx {s : Inbound ρ} (sound : s.Sound) (input : Rx ρ) : (s.rx input).Sound := by
  cases input with
  | publish ref buf deny now =>
      simp only [rx]
      cases decoded : decodePublish s.Version buf with
      | error e => exact sound
      | ok result =>
          exact sound_onPublish sound deny now
            (Publish.arrived_of_decodePublish sound.supported decoded)
  | pubRel msg now => exact sound_release sound now _

theorem sound_new {Version : ProtocolVersion}
    (supported : Version < ProtocolV50 ∨ Version = ProtocolV50) (RetainAvailable : Bool)
    (MaxRxTopicAlias : UInt16) (hash : ℕ) :
    (new Version RetainAvailable MaxRxTopicAlias hash : Inbound ρ).Sound :=
  ⟨supported, by simp [new], by simp [new], by simp [new], by simp [new]⟩

theorem sound_run {s : Inbound ρ} (sound : s.Sound) (inputs : List (Rx ρ)) :
    (inputs.foldl rx s).Sound :=
  invariant_run Sound (fun _ input kept => sound_rx kept input) sound inputs

theorem resolveAlias_frame {s next : Inbound ρ} {p q : Publish}
    (run : s.resolveAlias p = .ok (next, q)) :
    ∃ table, next = { s with rxTopicAlias := table } := by
  unfold resolveAlias at run
  repeat' split at run
  all_goals first
    | exact ⟨_, (congrArg Prod.fst (Except.ok.inj run)).symm⟩
    | simp at run

/-- On any packet, `publishToTopic` hands over that packet or fails; aliases apart, it leaves the
rest of the connection as it is. -/
theorem publishToTopic_frame (s : Inbound ρ) (now : Time) (m : Marked ρ) :
    ∃ table, (∃ e, s.publishToTopic now m = ({ s with rxTopicAlias := table }, some e)) ∨
      ∃ packet, s.publishToTopic now m =
        (({ s with rxTopicAlias := table } : Inbound ρ).handOver ⟨m.ref, packet⟩, none) := by
  unfold publishToTopic postProcessPublish
  by_cases five : ProtocolV50 ≤ s.Version
  · rw [if_pos five]
    cases resolved : s.resolveAlias m.packet with
    | error e => exact ⟨s.rxTopicAlias, .inl ⟨e, rfl⟩⟩
    | ok result =>
        rcases result with ⟨next, p⟩
        rcases resolveAlias_frame resolved with ⟨table, rfl⟩
        simp only
        cases setExpiry now p with
        | error e => exact ⟨table, .inl ⟨e, rfl⟩⟩
        | ok q => exact ⟨table, .inr ⟨_, rfl⟩⟩
  · rw [if_neg five]
    exact ⟨s.rxTopicAlias, .inr ⟨_, rfl⟩⟩

theorem version_publishToTopic (s : Inbound ρ) (now : Time) (m : Marked ρ) :
    (s.publishToTopic now m).1.Version = s.Version := by
  rcases s.publishToTopic_frame now m with ⟨table, ⟨e, run⟩ | ⟨packet, run⟩⟩
  · rw [run]
  · rw [run]
    rfl

theorem version_onPublish (s : Inbound ρ) (deny : GoString → Bool) (now : Time) (m : Marked ρ) :
    (s.onPublish deny now m).1.Version = s.Version := by
  rcases s.onPublish_cases deny now m with same | ⟨_, stored⟩ | ⟨_, handed⟩
  · rw [same]
  · rw [stored]
    rfl
  · rw [handed]
    exact version_publishToTopic s now m

theorem version_release (s : Inbound ρ) (now : Time) (id : IDType) :
    (s.release now id).Version = s.Version := by
  unfold release
  split
  · rfl
  · exact version_publishToTopic s now _

theorem version_rx (s : Inbound ρ) (input : Rx ρ) : (s.rx input).Version = s.Version := by
  cases input with
  | publish ref buf deny now =>
      simp only [rx]
      split
      · rfl
      · exact version_onPublish s deny now _
  | pubRel msg now => exact version_release s now _

/-- The version of a connection never changes. -/
theorem version_run (s : Inbound ρ) (inputs : List (Rx ρ)) :
    (inputs.foldl rx s).Version = s.Version :=
  invariant_run (fun next => next.Version = s.Version)
    (fun next input same => (version_rx next input).trans same) rfl inputs

end Inbound

end VolantMQ.Connection
