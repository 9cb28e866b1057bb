import VolantMQ.Connection.Persist
import VolantMQ.Lib.Rebuild
import VolantMQ.Packet.Construct

/-!
# Saving a connection and loading it again

What `persist` stores, `loadPersistence` reads into the queue of the next connection of the session:
the packets that were sent and not acknowledged, which keep their identifiers, and those that were
never sent. The former have to be sent again first, and a PUBLISH among them with the DUP flag.

Every packet is written in the version it was made for and read in the version of the connection,
`persist` goes through `pubOut` last, and sets DUP for QoS 1 only. A packet that was sent is stored
as `setTopicAlias` has left it, which may be without its topic; what comes back is compared with the
topic from before.
-/

namespace VolantMQ.Connection

open Lib Packet

open Topics (parseRFC3339)

/-- The packet behind the interface, if it takes part in an acknowledgement cycle. -/
def provider? : Packet.Message → Option Provider
  | .publish msg => some (.publish msg)
  | .control h (.ack reasonCode) => some (.ack ⟨h.version, h.mType, h.packetID, reasonCode⟩)
  | .control _ _ => none

/-- `packet.Decode` on a stored packet. `persist` stores only packets of an acknowledgement cycle,
so others are left out here. -/
def StoredPacket.decode (Version : ProtocolVersion) (entry : StoredPacket) : Option Persisted :=
  match Packet.decode Version entry.Data with
  | .error _ => none
  | .ok (pkt, _) => (provider? pkt).map fun packet =>
      ⟨entry.UnAck, entry.ExpireAt.map parseRFC3339, packet⟩

/-- `loadPersistence` on the stored packets; `none` stands for `ErrPersistence`. -/
def Outbound.reload (Version : ProtocolVersion) (SendQuota : UInt16)
    (packets : List StoredPacket) : Option Outbound :=
  (packets.mapM (StoredPacket.decode Version)).map (loadPersistence Version SendQuota)

/-- What a packet puts into the queue. -/
def Persisted.toQueue (entry : Persisted) : Option Queued :=
  if entry.UnAck then some (.unacknowledged entry.packet)
  else
    match entry.packet with
    | .ack _ => none
    | .publish p => if p.qos = QoS0 then none else some (.publish (entry.setExpiry p))

namespace Queued

section Subject

/- The topic that a PUBLISH had before `setTopicAlias`. -/
variable (subject : Publish → GoString)

/-- The packet in the new queue is the one in the old: the same identifier, topic and payload, with
DUP set, if it was sent; and the same topic, payload and QoS if it was not. -/
def Reloaded : Queued → Queued → Prop
  | unacknowledged (.publish m), unacknowledged (.publish again) =>
      idOrZero again.packetID = idOrZero m.packetID ∧ again.topic = subject m ∧
        again.payload = m.payload ∧ again.dup = true
  | unacknowledged (.ack a), unacknowledged (.ack again) =>
      idOrZero again.packetID = idOrZero a.packetID ∧ again.mType = a.mType
  | publish m, publish again =>
      again.topic = m.topic ∧ again.payload = m.payload ∧ again.qos = m.qos
  | _, _ => False

/-- What a decoder makes of the stored packet has its identifier, topic and payload. -/
def Recovers : Queued → Packet.Message → Prop
  | unacknowledged (.publish m), .publish again =>
      idOrZero again.packetID = idOrZero m.packetID ∧ again.topic = subject m ∧
        again.payload = m.payload
  | unacknowledged (.ack a), .control h (.ack _) =>
      idOrZero h.packetID = idOrZero a.packetID ∧ h.mType = a.mType
  | publish m, .publish again => again.topic = m.topic ∧ again.payload = m.payload
  | _, _ => False

/-- The packet can be encoded, and a decoder of version `v` reads it back. -/
def Restorable (v : ProtocolVersion) (order : MapOrder PropertyEntry) (p : Queued) : Prop :=
  ∃ Data msg n, p.toStore.encode order = .ok Data ∧ decode v Data = .ok (msg, n) ∧
    p.Recovers subject msg

/-- A PUBLISH that was sent still has its topic. -/
def Titled : Queued → Prop
  | unacknowledged (.publish m) => m.topic = subject m
  | _ => True

/-- A PUBLISH that was sent and is stored with DUP. -/
def Flagged : Queued → Prop
  | unacknowledged (.publish m) => m.qos = QoS1 ∨ m.dup = true
  | _ => True

/-- A PUBLISH of QoS 1 or 2 that can be written out. -/
structure Sound (m : Publish) : Prop where
  writable : m.Writable
  acknowledged : m.qos ≠ QoS0
  bounded : m.size < 2 ^ 32

/-- One that has its topic. -/
structure Whole (m : Publish) : Prop extends Sound m where
  present : m.topic.length ≠ 0

/-- A packet as the broker makes them; an alias may have taken the place of its topic when it was
sent. A PUBREL is that of `onAck`. -/
def Formed : Queued → Prop
  | publish m => Whole m
  | unacknowledged (.publish m) => Sound m ∧ (subject m).length ≠ 0
  | unacknowledged (.ack a) => ∃ id, a = (Ack.new a.version .PUBREL).setPacketID id

end Subject

/-- A PUBLISH is not too long, and its version has a property block exactly if that of the
connection has one. -/
def Fits (v : ProtocolVersion) : Queued → Prop
  | publish m | unacknowledged (.publish m) =>
      (m.version = ProtocolV50 ↔ v = ProtocolV50) ∧ m.size ≤ 268435455
  | unacknowledged (.ack _) => True

end Queued

namespace Transmitter

section Subject

variable (subject : Publish → GoString)

/-- The queue of the new connection has the packets that were sent and not acknowledged, in the
order in which they are stored, and then those that were never sent, in theirs; and the identifiers
in use are those of the former. -/
structure Rebuilt (s : Transmitter) (range : MapOrder (Σ _ : IDType, Provider)) (next : Outbound) :
    Prop where
  queue : ∃ sent fresh, next.txQMessages = sent ++ fresh ∧
    List.Forall₂ (Queued.Reloaded subject) ((s.toPersist range).filter Queued.isUnacknowledged)
      sent ∧
    List.Forall₂ (Queued.Reloaded subject)
      ((s.toPersist range).filter fun p => !p.isUnacknowledged) fresh
  inUse : ∀ id, id ∈ next.flow.flowInUse ↔ ∃ pkt, s.Holds (.unacknowledged pkt) ∧ pkt.id = id

/-- `persist` and then `loadPersistence` on a new connection of the same version rebuild the
queue. -/
def Survives (s : Transmitter) (OfflineQoS0 : Bool) (now : Time) (order : MapOrder PropertyEntry)
    (range : MapOrder (Σ _ : IDType, Provider)) (SendQuota : UInt16) : Prop :=
  ∃ packets next, s.persist OfflineQoS0 now order range = .ok packets ∧
    Outbound.reload s.out.Version SendQuota packets = some next ∧ s.Rebuilt subject range next

end Subject

/-- No packet that was never sent stands before one that was: neither in the queue, nor, since
`pubOut` is stored last, anywhere while `pubOut` is not empty. -/
def InOrder (s : Transmitter) : Prop :=
  (s.out.txQMessages.Pairwise fun p q => q.isUnacknowledged = true → p.isUnacknowledged = true) ∧
    (s.out.pubOut ≠ ∅ → ∀ tp, ¬s.Holds (.publish tp))

end Transmitter

section Packets

variable {subject : Publish → GoString} {v : ProtocolVersion} {order : MapOrder PropertyEntry}
  {p q : Queued}

/-- What becomes of a packet in the queue: it is stored, decoded and loaded. -/
def Queued.passOn (v : ProtocolVersion) (order : MapOrder PropertyEntry) (p : Queued) :
    Option Queued :=
  match p.toStore.encode order with
  | .error _ => none
  | .ok Data => (StoredPacket.decode v (p.stored Data)).bind Persisted.toQueue

theorem Persisted.isUnacknowledged_toQueue {entry : Persisted} (loaded : entry.toQueue = some q) :
    q.isUnacknowledged = entry.UnAck := by
  unfold toQueue at loaded
  cases flag : entry.UnAck with
  | true =>
      rw [if_pos flag, Option.some.injEq] at loaded
      rw [← loaded]
      rfl
  | false =>
      rw [if_neg (by simp [flag])] at loaded
      split at loaded
      · simp at loaded
      · split at loaded
        · simp at loaded
        · rw [Option.some.injEq] at loaded
          rw [← loaded]
          rfl

theorem StoredPacket.decode_eq_some {entry : StoredPacket} {loaded : Persisted} :
    entry.decode v = some loaded ↔ ∃ msg n packet, Packet.decode v entry.Data = .ok (msg, n) ∧
      provider? msg = some packet ∧
      loaded = ⟨entry.UnAck, entry.ExpireAt.map parseRFC3339, packet⟩ := by
  unfold decode
  cases Packet.decode v entry.Data with
  | error e => simp
  | ok pair =>
      rcases pair with ⟨msg, n⟩
      simp only [Option.map_eq_some_iff, Except.ok.injEq, Prod.mk.injEq]
      constructor
      · rintro ⟨packet, found, same⟩
        exact ⟨msg, n, packet, ⟨rfl, rfl⟩, found, same.symm⟩
      · rintro ⟨_, _, packet, ⟨rfl, rfl⟩, found, same⟩
        exact ⟨packet, found, same.symm⟩

theorem Queued.passOn_eq_some : p.passOn v order = some q ↔ ∃ Data msg n packet,
    p.toStore.encode order = .ok Data ∧ decode v Data = .ok (msg, n) ∧
      provider? msg = some packet ∧
      Persisted.toQueue ⟨p.isUnacknowledged, p.expireAt.map parseRFC3339, packet⟩ = some q := by
  unfold passOn
  cases p.toStore.encode order with
  | error fault => simp
  | ok Data =>
      simp only [Option.bind_eq_some_iff, StoredPacket.decode_eq_some, Except.ok.injEq]
      constructor
      · rintro ⟨_, ⟨msg, n, packet, decoded, found, rfl⟩, loaded⟩
        exact ⟨Data, msg, n, packet, rfl, decoded, found, loaded⟩
      · rintro ⟨_, msg, n, packet, rfl, decoded, found, loaded⟩
        exact ⟨_, ⟨msg, n, packet, decoded, found, rfl⟩, loaded⟩

/-- A packet that is passed on keeps its kind. -/
theorem Queued.isUnacknowledged_passOn (passed : p.passOn v order = some q) :
    q.isUnacknowledged = p.isUnacknowledged := by
  rcases passOn_eq_some.mp passed with ⟨_, _, _, _, _, _, _, loaded⟩
  exact Persisted.isUnacknowledged_toQueue loaded

theorem Queued.isUnacknowledged_of_reloaded (same : p.Reloaded subject q) :
    q.isUnacknowledged = p.isUnacknowledged := by
  unfold Reloaded at same
  split at same
  · rfl
  · rfl
  · rfl
  · exact absurd same id

/-- The flags of a PUBLISH go onto the wire and come back. -/
theorem flags_of_decode {msg again : Publish} {Data : Bytes} {n : ℕ}
    (encoded : msg.encode order = .ok Data) (decoded : decode v Data = .ok (.publish again, n)) :
    again.dup = msg.dup ∧ again.qos = msg.qos := by
  rcases Publish.encode_starts encoded with ⟨rest, starts⟩
  rw [starts] at decoded
  have flags : again.mFlags = ((0x30 : UInt8) ||| msg.mFlags) &&& 0x0F := decode_mFlags decoded
  have masked : ∀ mask : UInt8, 0x0F &&& mask = mask → 0x30 &&& mask = 0 →
      again.mFlags &&& mask = msg.mFlags &&& mask := by
    intro mask inside outside
    have distributes : ((0x30 : UInt8) ||| msg.mFlags) &&& mask =
        0x30 &&& mask ||| msg.mFlags &&& mask := UInt8.toBitVec_inj.1 BitVec.and_or_distrib_right
    rw [flags, UInt8.and_assoc, inside, distributes, outside, UInt8.zero_or]
  constructor
  · rw [Publish.dup, Publish.dup, masked Publish.maskPublishFlagDup rfl rfl]
  · rw [Publish.qos, Publish.qos, masked Publish.maskPublishFlagQoS rfl rfl]

theorem dup_setDup (msg : Publish) : (msg.setDup true).dup = true := by
  have masked : (msg.mFlags ||| Publish.maskPublishFlagDup) &&& Publish.maskPublishFlagDup =
      Publish.maskPublishFlagDup := by
    apply UInt8.toBitVec_inj.1
    ext i bound
    simpa using fun set => Or.inr set
  simp only [Publish.dup, Publish.setDup, Publish.putFlag, if_true, masked]
  rfl

theorem Persisted.setExpiry_keeps (entry : Persisted) (m : Publish) :
    (entry.setExpiry m).topic = m.topic ∧ (entry.setExpiry m).payload = m.payload ∧
      (entry.setExpiry m).qos = m.qos := by
  unfold setExpiry
  split <;> exact ⟨rfl, rfl, rfl⟩

theorem provider?_eq_publish {msg : Packet.Message} {m : Publish} :
    provider? msg = some (.publish m) ↔ msg = .publish m := by
  unfold provider?
  split <;> simp

theorem provider?_eq_ack {msg : Packet.Message} {a : Ack} :
    provider? msg = some (.ack a) ↔ ∃ h reasonCode, msg = .control h (.ack reasonCode) ∧
      a = ⟨h.version, h.mType, h.packetID, reasonCode⟩ := by
  unfold provider?
  split <;> simp_all [eq_comm]

theorem Queued.passOn_publish_iff {m : Publish} (acknowledged : m.qos ≠ QoS0) :
    (∃ q, (Queued.publish m).passOn v order = some q ∧ (Queued.publish m).Reloaded subject q) ↔
      (Queued.publish m).Restorable subject v order := by
  have stored : (Queued.publish m).toStore = .publish (m.setPacketID 0) := by
    rw [toStore, if_pos acknowledged]
  constructor
  · rintro ⟨q, passed, same⟩
    rcases passOn_eq_some.mp passed with ⟨Data, msg, n, packet, encoded, decoded, found, loaded⟩
    refine ⟨Data, msg, n, encoded, decoded, ?_⟩
    cases packet with
    | ack a => simp [Persisted.toQueue, isUnacknowledged] at loaded
    | publish again =>
        rw [provider?_eq_publish.mp found]
        simp only [Persisted.toQueue, isUnacknowledged, Bool.false_eq_true, if_false] at loaded
        split at loaded
        · simp at loaded
        · rw [Option.some.injEq] at loaded
          rw [← loaded] at same
          rcases same with ⟨topic, payload, -⟩
          have kept := Persisted.setExpiry_keeps
            ⟨false, (Queued.publish m).expireAt.map parseRFC3339, .publish again⟩ again
          exact ⟨kept.1.symm.trans topic, kept.2.1.symm.trans payload⟩
  · rintro ⟨Data, msg, n, encoded, decoded, recovers⟩
    cases msg with
    | control h body => exact absurd recovers id
    | publish again =>
        have flags := flags_of_decode (stored ▸ encoded) decoded
        have qos : again.qos = m.qos := flags.2
        have kept := Persisted.setExpiry_keeps
          ⟨false, (Queued.publish m).expireAt.map parseRFC3339, .publish again⟩ again
        refine ⟨.publish _, passOn_eq_some.mpr
          ⟨Data, _, n, .publish again, encoded, decoded, rfl, ?_⟩,
          kept.1.trans recovers.1, kept.2.1.trans recovers.2, kept.2.2.trans qos⟩
        simp only [Persisted.toQueue, isUnacknowledged, Bool.false_eq_true, if_false]
        rw [if_neg (by rw [qos]; exact acknowledged)]

/-- A packet that was sent is loaded as it was decoded. -/
theorem Queued.passOn_unacknowledged {pkt : Provider} :
    (Queued.unacknowledged pkt).passOn v order = some q ↔ ∃ Data msg n packet,
      (Queued.unacknowledged pkt).toStore.encode order = .ok Data ∧ decode v Data = .ok (msg, n) ∧
      provider? msg = some packet ∧ .unacknowledged packet = q := by
  rw [passOn_eq_some]
  simp only [Persisted.toQueue, isUnacknowledged, if_true, Option.some.injEq]

theorem Queued.passOn_sent_iff {m : Publish} :
    (∃ q, (Queued.unacknowledged (.publish m)).passOn v order = some q ∧
        (Queued.unacknowledged (.publish m)).Reloaded subject q) ↔
      (Queued.unacknowledged (.publish m)).Restorable subject v order ∧
        (m.qos = QoS1 ∨ m.dup = true) := by
  -- DUP comes back as it was stored
  have flagged : (if m.qos = QoS1 then m.setDup true else m).dup = true ↔
      m.qos = QoS1 ∨ m.dup = true := by
    split
    · rename_i one
      simp [one, dup_setDup]
    · rename_i other
      simp [other]
  constructor
  · rintro ⟨q, passed, same⟩
    rcases passOn_unacknowledged.mp passed with ⟨Data, msg, n, packet, encoded, decoded, found, rfl⟩
    cases packet with
    | ack a => exact absurd same id
    | publish again =>
        have whole := provider?_eq_publish.mp found
        rcases same with ⟨id, topic, payload, dup⟩
        rw [whole] at decoded
        refine ⟨⟨Data, _, n, encoded, decoded, id, topic, payload⟩, flagged.mp ?_⟩
        exact (flags_of_decode encoded decoded).1.symm.trans dup
  · rintro ⟨⟨Data, msg, n, encoded, decoded, recovers⟩, set⟩
    cases msg with
    | control h body => exact absurd recovers id
    | publish again =>
        refine ⟨_, passOn_unacknowledged.mpr
          ⟨Data, _, n, .publish again, encoded, decoded, rfl, rfl⟩, recovers.1, recovers.2.1,
          recovers.2.2, ?_⟩
        rw [← flagged.mpr set]
        exact (flags_of_decode encoded decoded).1

theorem Queued.passOn_ack_iff {a : Ack} :
    (∃ q, (Queued.unacknowledged (.ack a)).passOn v order = some q ∧
        (Queued.unacknowledged (.ack a)).Reloaded subject q) ↔
      (Queued.unacknowledged (.ack a)).Restorable subject v order := by
  constructor
  · rintro ⟨q, passed, same⟩
    rcases passOn_unacknowledged.mp passed with ⟨Data, msg, n, packet, encoded, decoded, found, rfl⟩
    cases packet with
    | publish again => exact absurd same id
    | ack again =>
        rcases provider?_eq_ack.mp found with ⟨h, reasonCode, rfl, rfl⟩
        exact ⟨Data, _, n, encoded, decoded, same⟩
  · rintro ⟨Data, msg, n, encoded, decoded, recovers⟩
    cases msg with
    | publish again => exact absurd recovers id
    | control h body =>
        cases body with
        | ack reasonCode =>
            exact ⟨_, passOn_unacknowledged.mpr ⟨Data, _, n, _, encoded, decoded, rfl, rfl⟩,
              recovers⟩
        | _ => exact absurd recovers id

/-- A packet arrives as it should exactly when it can be read back and is stored with DUP if it has
to be. -/
theorem Queued.passOn_reloaded_iff (acknowledged : ∀ m, p = .publish m → m.qos ≠ QoS0) :
    (∃ q, p.passOn v order = some q ∧ p.Reloaded subject q) ↔
      p.Restorable subject v order ∧ p.Flagged := by
  match p with
  | .publish m =>
      rw [passOn_publish_iff (acknowledged m rfl)]
      exact iff_of_eq (and_true _).symm
  | .unacknowledged (.publish m) => exact passOn_sent_iff
  | .unacknowledged (.ack a) =>
      rw [passOn_ack_iff]
      exact iff_of_eq (and_true _).symm

/-- `Decode` on what `Encode` has made of a PUBLISH. -/
theorem decode_encoded_iff {m again : Publish} {Data : Bytes} {n : ℕ} (small : m.mFlags.toNat < 16)
    (encoded : m.encode order = .ok Data) :
    decode v Data = .ok (.publish again, n) ↔ decodePublish v Data = .ok (again, n) := by
  rcases Publish.encode_starts encoded with ⟨rest, rfl⟩
  have announced : PacketType.ofFirstByte (Packet.Message.publish m).firstByte = .PUBLISH :=
    (firstByte_fields .PUBLISH small).1
  rw [decode_publish v _ announced]
  cases decodePublish v _ with
  | error e => simp [Except.map]
  | ok result => simp [Except.map, Prod.ext_iff]

namespace Queued

variable {m : Publish}

/-- A PUBLISH is read back by a decoder of a version that agrees on the property block. -/
theorem Whole.recovered_iff (whole : Whole m) :
    (∃ Data again n, m.encode order = .ok Data ∧ decode v Data = .ok (.publish again, n) ∧
        again.topic = m.topic ∧ again.payload = m.payload) ↔
      (m.version = ProtocolV50 ↔ v = ProtocolV50) ∧ m.size ≤ 268435455 := by
  rw [← Publish.decodesAs_encode_iff order v whole.writable whole.present whole.bounded]
  constructor
  · rintro ⟨Data, again, n, encoded, decoded, same⟩
    have read := (decode_encoded_iff whole.writable.flags encoded).mp decoded
    exact ⟨Data, encoded, again, n, read, same⟩
  · rintro ⟨Data, encoded, again, n, read, same⟩
    have decoded := (decode_encoded_iff whole.writable.flags encoded).mpr read
    exact ⟨Data, again, n, encoded, decoded, same⟩

/-- What is read is the frame that was written. -/
theorem Sound.header_of_decode (sound : Sound m) {again : Publish} {Data : Bytes} {n : ℕ}
    (encoded : m.encode order = .ok Data) (decoded : decode v Data = .ok (.publish again, n)) :
    m.size ≤ 268435455 ∧ Publish.decodeHeader v
      (Publish.frame m.mFlags m.topic m.idBytes (m.tailBytes order)) = .ok (again, n) := by
  have short : m.size ≤ 268435455 := by
    by_contra long
    rcases Publish.encode_eq_error order (Nat.lt_of_not_le long) sound.bounded with ⟨e, failed⟩
    rw [encoded] at failed
    cases failed
  have read := (decode_encoded_iff sound.writable.flags encoded).mp decoded
  rw [Publish.encode_eq_frame order sound.writable short, Except.ok.injEq] at encoded
  refine ⟨short, ?_⟩
  rw [encoded]
  unfold decodePublish at read
  split at read
  · rename_i result found
    rw [found, Except.ok.inj read]
  · cases read
  · cases read

/-- The topic comes back as it was written. -/
theorem Sound.topic_of_decode (sound : Sound m) {again : Publish} {Data : Bytes} {n : ℕ}
    (encoded : m.encode order = .ok Data) (decoded : decode v Data = .ok (.publish again, n)) :
    again.topic = m.topic := by
  rcases sound.header_of_decode encoded decoded with ⟨short, header⟩
  have length := Publish.length_body order sound.writable
  exact Publish.topic_of_decodeHeader sound.writable.topicFits (by rw [length]; exact short) header

/-- Its identifier comes back too. -/
theorem Whole.packetID_of_decode (whole : Whole m) {again : Publish} {Data : Bytes} {n : ℕ}
    (encoded : m.encode order = .ok Data) (decoded : decode v Data = .ok (.publish again, n)) :
    again.packetID = m.packetID := by
  rcases whole.toSound.header_of_decode encoded decoded with ⟨short, header⟩
  have length := Publish.length_body order whole.writable
  rw [Publish.packetID_of_decodeHeader v whole.writable whole.present (by rw [length]; exact short)
    header, Publish.wireID, if_pos whole.acknowledged]

theorem Whole.setPacketID (whole : Whole m) (id : IDType) : Whole (m.setPacketID id) where
  writable := { whole.writable with identified := fun _ => rfl }
  present := whole.present
  acknowledged := whole.acknowledged
  bounded := whole.bounded

theorem Sound.setDup (sound : Sound m) : Sound (m.setDup true) ∧ (m.setDup true).size = m.size := by
  have kept := Publish.putFlag_keeps sound.writable.flags (.inl rfl) true
  have qos : (m.setDup true).qos = m.qos := by
    unfold Publish.qos
    exact congrArg (fun bits : UInt8 => bits >>> 1) kept.2
  have size : (m.setDup true).size = m.size := by
    unfold Publish.size
    rw [qos]
    rfl
  have acknowledged : (m.setDup true).qos ≠ QoS0 := by
    rw [qos]
    exact sound.acknowledged
  refine ⟨⟨?_, acknowledged, by rw [size]; exact sound.bounded⟩, size⟩
  exact
    { sound.writable with
      flags := kept.1
      qosValid := by
        rw [qos]
        exact sound.writable.qosValid
      notDup := fun zero => absurd zero acknowledged
      identified := fun _ => sound.writable.identified sound.acknowledged }

/-- The packet that is stored for one that was sent. -/
theorem Sound.toStore (sound : Sound m) : ∃ kept : Publish,
    (unacknowledged (.publish m)).toStore = .publish kept ∧ Sound kept ∧ kept.size = m.size ∧
      kept.version = m.version ∧ kept.topic = m.topic ∧ kept.payload = m.payload ∧
      kept.packetID = m.packetID := by
  by_cases one : m.qos = QoS1
  · refine ⟨m.setDup true, ?_, sound.setDup.1, sound.setDup.2, rfl, rfl, rfl, rfl⟩
    rw [Queued.toStore, if_pos one]
  · refine ⟨m, ?_, sound, rfl, rfl, rfl, rfl, rfl⟩
    rw [Queued.toStore, if_neg one]

/-- A packet that is stored as the PUBLISH `m`. -/
theorem restorable_of_whole (whole : Whole m) (stored : p.toStore = .publish m)
    (recovers : ∀ msg, p.Recovers subject msg →
      ∃ again, msg = .publish again ∧ again.topic = m.topic ∧ again.payload = m.payload)
    (recovered : ∀ again : Publish, again.packetID = m.packetID → again.topic = m.topic →
      again.payload = m.payload → p.Recovers subject (.publish again)) :
    p.Restorable subject v order ↔
      (m.version = ProtocolV50 ↔ v = ProtocolV50) ∧ m.size ≤ 268435455 := by
  rw [← @Whole.recovered_iff v order m whole, Restorable, stored]
  constructor
  · rintro ⟨Data, msg, n, encoded, decoded, same⟩
    rcases recovers msg same with ⟨again, rfl, topic, payload⟩
    exact ⟨Data, again, n, encoded, decoded, topic, payload⟩
  · rintro ⟨Data, again, n, encoded, decoded, topic, payload⟩
    have packetID := whole.packetID_of_decode encoded decoded
    exact ⟨Data, .publish again, n, encoded, decoded, recovered again packetID topic payload⟩

/-- A PUBREL is the same in all versions. -/
theorem restorable_pubrel (w : ProtocolVersion) (id : IDType) :
    (unacknowledged (.ack ((Ack.new w .PUBREL).setPacketID id))).Restorable subject v order := by
  have silent : ((Ack.new w .PUBREL).setPacketID id).reasonBytes = [] :=
    if_neg fun said => said.2 rfl
  have encoded : ((Ack.new w .PUBREL).setPacketID id).encode = .ok (0x62 :: 2 :: putUint16 id) := by
    have first : PacketType.PUBREL.code <<< 4 ||| PacketType.PUBREL.defaultFlags = 0x62 := by decide
    simp only [Ack.encode, Ack.setPacketID, Ack.new] at silent ⊢
    rw [silent, first, List.append_nil]
    rfl
  let again : Packet.Message :=
    .control { Header.new v .PUBREL with packetID := some id } (.ack CodeSuccess)
  have header : Header.decode v 0x62 (2 :: putUint16 id) = .ok (again, 4) := by
    change ((Ack.decodeMessage (Header.new v .PUBREL)).run (putUint16 id)).map _ = _
    rw [Ack.run_putUint16]
    rfl
  have created : newMessage v (.ofFirstByte 0x62) =
      .ok (.control (Header.new v .PUBREL) (.ack 0)) := rfl
  have decoded : decode v (0x62 :: 2 :: putUint16 id) = .ok (again, 4) := by
    simp only [decode, created, header]
  exact ⟨_, again, 4, encoded, decoded, rfl, rfl⟩

/-- A packet that was sent can be restored as long as it fits and has its topic. -/
theorem restorable_sent_iff (sound : Sound m) (present : (subject m).length ≠ 0) :
    (unacknowledged (.publish m)).Restorable subject v order ↔
      (unacknowledged (.publish m)).Fits v ∧ m.topic = subject m := by
  rcases sound.toStore with ⟨kept, stored, keptSound, size, version, topic, payload, packetID⟩
  by_cases titled : m.topic = subject m
  · have whole : Whole kept := ⟨keptSound, by rw [topic, titled]; exact present⟩
    rw [and_iff_left titled, restorable_of_whole whole stored, version, size]
    · rfl
    · rintro msg same
      cases msg with
      | control h body => exact absurd same id
      | publish again =>
          rw [topic, payload, titled]
          exact ⟨again, rfl, same.2⟩
    · intro again sameID sameTopic samePayload
      refine ⟨by rw [sameID, packetID], ?_, samePayload.trans payload⟩
      rw [sameTopic, topic, titled]
  · refine iff_of_false ?_ fun both => titled both.2
    rintro ⟨Data, msg, n, encoded, decoded, same⟩
    cases msg with
    | control h body => exact absurd same id
    | publish again =>
        rw [stored] at encoded
        have written := keptSound.topic_of_decode encoded decoded
        exact titled (topic.symm.trans (written.symm.trans same.2.1))

/-- Packets that are well formed can be restored as long as they fit and have their topic. -/
theorem restorable_iff (formed : p.Formed subject) :
    p.Restorable subject v order ↔ p.Fits v ∧ p.Titled subject := by
  match p, formed with
  | .publish m, whole =>
      have whole : Whole m := whole
      rw [restorable_of_whole (whole.setPacketID 0)]
      · exact (and_iff_left trivial).symm
      · rw [toStore, if_pos whole.acknowledged]
      · rintro msg same
        cases msg with
        | control h body => exact absurd same id
        | publish again => exact ⟨again, rfl, same⟩
      · exact fun again _ topic payload => ⟨topic, payload⟩
  | .unacknowledged (.publish m), formed => exact restorable_sent_iff formed.1 formed.2
  | .unacknowledged (.ack a), ⟨id, made⟩ =>
      rw [made]
      exact iff_of_true (restorable_pubrel a.version id) ⟨trivial, trivial⟩

end Queued

end Packets

section Queues

variable {v : ProtocolVersion} {order : MapOrder PropertyEntry} {OfflineQoS0 : Bool} {now : Time}

/-- The queue of a connection after loading. -/
theorem txQMessages_load (s : Outbound) (entries : List Persisted) :
    (entries.foldl Outbound.loadPacket s).txQMessages =
      s.txQMessages ++ entries.filterMap Persisted.toQueue := by
  induction entries generalizing s with
  | nil => simp
  | cons entry entries ih =>
      rw [List.foldl_cons, ih]
      unfold Outbound.loadPacket
      cases flag : entry.UnAck with
      | true => simp [Persisted.toQueue, flag, Outbound.qPush]
      | false =>
          simp only [Bool.false_eq_true, if_false, List.filterMap_cons, Persisted.toQueue, flag]
          split
          · simp_all
          · split <;> simp_all [Outbound.qPush]

/-- What the loop of `persist` stores. -/
theorem persist_eq {items : List Queued} {packets after : List StoredPacket}
    (run : items.foldlM (persistAppend OfflineQoS0 now order) packets = .ok after) :
    after = packets ++ items.filterMap fun p =>
      (p.toStore.encode order).toOption.map p.stored := by
  induction items generalizing packets with
  | nil =>
      have same : packets = after := Except.ok.inj run
      simp [same]
  | cons p items ih =>
      have wanted := Transmitter.wanted_of_persist run p List.mem_cons_self
      rw [List.foldlM_cons, Transmitter.persistAppend_of_wanted wanted] at run
      rcases encoded : p.toStore.encode order with (_ | _) | Data
      · rw [encoded] at run
        cases run
      · rw [encoded] at run
        rw [ih run]
        simp [encoded, Except.toOption]
      · rw [encoded] at run
        rw [ih run]
        simp [encoded, Except.toOption]

theorem filterMap_of_mapM {α β γ : Type} {f : α → Option β} {l : List α} {m : List β}
    (run : l.mapM f = some m) (g : β → Option γ) :
    m.filterMap g = l.filterMap fun a => (f a).bind g := by
  induction l generalizing m with
  | nil =>
      have same : [] = m := by simpa using run
      simp [← same]
  | cons a l ih =>
      rw [List.mapM_cons] at run
      cases first : f a with
      | none => simp [first] at run
      | some b =>
          cases rest : l.mapM f with
          | none => simp [first, rest] at run
          | some bs =>
              have same : b :: bs = m := by simpa [first, rest] using run
              rw [← same, List.filterMap_cons, List.filterMap_cons, ih rest, first]
              rfl

/-- The queue of the new connection, in terms of the old. -/
theorem txQMessages_reload {items : List Queued} {packets : List StoredPacket} {SendQuota : UInt16}
    {next : Outbound}
    (stored : items.foldlM (persistAppend OfflineQoS0 now order) [] = .ok packets)
    (loaded : Outbound.reload v SendQuota packets = some next) :
    next.txQMessages = items.filterMap (Queued.passOn v order) := by
  rcases Option.map_eq_some_iff.mp loaded with ⟨entries, decoded, rfl⟩
  rw [Outbound.loadPersistence, txQMessages_load, filterMap_of_mapM decoded, persist_eq stored,
    List.nil_append, List.filterMap_filterMap]
  refine List.nil_append _ |>.trans (List.filterMap_congr fun p _ => ?_)
  unfold Queued.passOn
  cases p.toStore.encode order <;> rfl

/-- The identifiers in use after loading are those of the packets in the queue. -/
theorem flowInUse_reload {packets : List StoredPacket} {SendQuota : UInt16} {next : Outbound}
    (loaded : Outbound.reload v SendQuota packets = some next) (id : IDType) :
    id ∈ next.flow.flowInUse ↔ ∃ pkt, .unacknowledged pkt ∈ next.txQMessages ∧ pkt.id = id := by
  rcases Option.map_eq_some_iff.mp loaded with ⟨entries, -, rfl⟩
  rw [Outbound.loadPersistence, Transmitter.flowInUse_load, txQMessages_load]
  simp only [Outbound.new, Flow.new, Finset.empty_union, List.mem_toFinset, List.mem_map,
    List.mem_filter, List.nil_append, List.mem_filterMap]
  constructor
  · rintro ⟨entry, ⟨member, flag⟩, same⟩
    exact ⟨entry.packet, ⟨entry, member, by rw [Persisted.toQueue, if_pos flag]⟩, same⟩
  · rintro ⟨pkt, ⟨entry, member, queued⟩, same⟩
    have flag : entry.UnAck = true := (Persisted.isUnacknowledged_toQueue queued).symm
    rw [Persisted.toQueue, if_pos flag, Option.some.injEq, Queued.unacknowledged.injEq] at queued
    exact ⟨entry, ⟨member, flag⟩, by rw [queued, same]⟩

theorem Queued.reloaded_unacknowledged {pkt : Provider} {q : Queued}
    (same : (Queued.unacknowledged pkt).Reloaded subject q) :
    ∃ again, q = .unacknowledged again ∧ again.id = pkt.id := by
  match pkt, q, same with
  | .publish _, .unacknowledged (.publish again), same => exact ⟨_, rfl, same.1⟩
  | .ack _, .unacknowledged (.ack again), same => exact ⟨_, rfl, same.1⟩

theorem mapM_isSome {α β : Type} {f : α → Option β} {l : List α}
    (all : ∀ a ∈ l, ∃ b, f a = some b) : ∃ m, l.mapM f = some m := by
  induction l with
  | nil => exact ⟨[], by simp⟩
  | cons a l ih =>
      rcases List.forall_mem_cons.mp all with ⟨⟨b, first⟩, rest⟩
      rcases ih rest with ⟨m, run⟩
      exact ⟨b :: m, by simp [List.mapM_cons, first, run]⟩

/-- If all packets arrive, `persist` and `loadPersistence` return. -/
theorem reload_of_passOn {items : List Queued} (SendQuota : UInt16)
    (wanted : ∀ p ∈ items, p.wanted OfflineQoS0 now = true)
    (arrive : ∀ p ∈ items, ∃ q, p.passOn v order = some q) :
    ∃ packets next, items.foldlM (persistAppend OfflineQoS0 now order) [] = .ok packets ∧
      Outbound.reload v SendQuota packets = some next := by
  have encodes : ∀ p ∈ items, ∃ Data, p.toStore.encode order = .ok Data := by
    intro p member
    rcases arrive p member with ⟨q, passed⟩
    rcases Queued.passOn_eq_some.mp passed with ⟨Data, _, _, _, encoded, -⟩
    exact ⟨Data, encoded⟩
  rcases Transmitter.persist_of_encodes wanted encodes [] with ⟨packets, stored, matched⟩
  have decodes : ∀ d ∈ packets, ∃ entry, StoredPacket.decode v d = some entry := by
    intro d member
    rcases exists_of_forall₂ matched d member with ⟨p, source, encoded, same⟩
    rcases arrive p source with ⟨q, passed⟩
    simp only [Queued.passOn, encoded, ← same] at passed
    rcases Option.bind_eq_some_iff.mp passed with ⟨entry, decoded, -⟩
    exact ⟨entry, decoded⟩
  rcases mapM_isSome decodes with ⟨entries, run⟩
  refine ⟨packets, Outbound.loadPersistence v SendQuota entries, stored, ?_⟩
  rw [Outbound.reload, run]
  rfl

/-- If they arrive as they should, the identifiers of the unacknowledged ones come with them. -/
theorem unacknowledged_passOn_iff {items : List Queued}
    (arrive : ∀ p ∈ items, ∃ q, p.passOn v order = some q ∧ p.Reloaded subject q) (id : IDType) :
    (∃ pkt, .unacknowledged pkt ∈ items.filterMap (Queued.passOn v order) ∧ pkt.id = id) ↔
      ∃ pkt, .unacknowledged pkt ∈ items ∧ pkt.id = id := by
  constructor
  · rintro ⟨again, member, same⟩
    rcases List.mem_filterMap.mp member with ⟨p, source, passed⟩
    have kind : true = p.isUnacknowledged := Queued.isUnacknowledged_passOn passed
    cases p with
    | publish tp => cases kind
    | unacknowledged pkt =>
        rcases arrive _ source with ⟨q, other, reloaded⟩
        rw [← Option.some.inj (passed.symm.trans other)] at reloaded
        rcases Queued.reloaded_unacknowledged reloaded with ⟨_, ⟨⟩, sameID⟩
        exact ⟨pkt, source, sameID.symm.trans same⟩
  · rintro ⟨pkt, source, same⟩
    rcases arrive _ source with ⟨q, passed, reloaded⟩
    rcases Queued.reloaded_unacknowledged reloaded with ⟨again, rfl, sameID⟩
    exact ⟨again, List.mem_filterMap.mpr ⟨_, source, passed⟩, sameID.trans same⟩

end Queues

namespace Transmitter

section Survives

variable {s : Transmitter} {range : MapOrder (Σ _ : IDType, Provider)}

/-- The order in which the packets are stored. -/
theorem pairwise_toPersist_iff :
    ((s.toPersist range).Pairwise fun p q =>
      q.isUnacknowledged = true → p.isUnacknowledged = true) ↔ s.InOrder := by
  let G := s.txGMessages.filterMap Outgoing.toPersist
  let sent := (range.range s.out.pubOut.entries).map fun entry => Queued.unacknowledged entry.2
  have general : ∀ p ∈ G, p.isUnacknowledged = false := by
    intro p member
    rcases List.mem_filterMap.mp member with ⟨pkt, -, same⟩
    match pkt, same with
    | .provider (.publish tp), rfl => rfl
  have unacknowledged : ∀ p ∈ sent, p.isUnacknowledged = true := by
    intro p member
    rcases List.mem_map.mp member with ⟨entry, -, rfl⟩
    rfl
  have inner : G.Pairwise fun p q => q.isUnacknowledged = true → p.isUnacknowledged = true := by
    refine List.pairwise_of_forall_mem_list fun p _ q member set => ?_
    rw [general q member] at set
    cases set
  have last : sent.Pairwise fun p q => q.isUnacknowledged = true → p.isUnacknowledged = true :=
    List.pairwise_of_forall_mem_list fun p member _ _ _ => unacknowledged p member
  have nonempty : (∃ p, p ∈ sent) ↔ s.out.pubOut ≠ ∅ := by
    have entries : s.out.pubOut = ∅ ↔ s.out.pubOut.entries = [] := AList.ext_iff
    rw [Ne, entries, ← List.perm_nil, ← (range.perm _).congr_left, List.perm_nil,
      ← List.map_eq_nil_iff (f := fun entry => Queued.unacknowledged entry.2)]
    exact ⟨fun ⟨p, member⟩ => List.ne_nil_of_mem member, List.exists_mem_of_ne_nil _⟩
  have held : ∀ tp, s.Holds (.publish tp) ↔ .publish tp ∈ s.out.txQMessages ++ G := by
    intro tp
    rw [← @mem_toPersist s range, toPersist, List.mem_append]
    refine or_iff_left fun member => ?_
    have wrong := unacknowledged _ member
    cases wrong
  change (s.out.txQMessages ++ G ++ sent).Pairwise _ ↔ _
  rw [List.pairwise_append, List.pairwise_append, InOrder, ← nonempty]
  constructor
  · rintro ⟨⟨queue, -, -⟩, -, before⟩
    refine ⟨queue, ?_⟩
    rintro ⟨p, member⟩ tp holds
    have wrong := before _ ((held tp).mp holds) p member (unacknowledged p member)
    cases wrong
  · rintro ⟨queue, absent⟩
    refine ⟨⟨queue, inner, fun p _ q member set => ?_⟩, last, fun p member q target _ => ?_⟩
    · rw [general q member] at set
      cases set
    · cases p with
      | unacknowledged pkt => rfl
      | publish tp => exact absurd ((held tp).mpr member) (absent ⟨q, target⟩ tp)

variable {OfflineQoS0 : Bool} {now : Time} {order : MapOrder PropertyEntry}

/-- The queue survives exactly when the packets are stored in the right order and each of them
arrives as it should. -/
theorem survives_iff_passOn (wanted : ∀ p ∈ s.toPersist range, p.wanted OfflineQoS0 now = true)
    (SendQuota : UInt16) :
    s.Survives subject OfflineQoS0 now order range SendQuota ↔ s.InOrder ∧ ∀ p ∈ s.toPersist range,
      ∃ q, p.passOn s.out.Version order = some q ∧ p.Reloaded subject q := by
  have core := @rebuild_iff _ _ (Queued.passOn s.out.Version order) (Queued.Reloaded subject) _ _
    (fun p q => Queued.isUnacknowledged_passOn) (fun p q => Queued.isUnacknowledged_of_reloaded)
    (s.toPersist range)
  rw [pairwise_toPersist_iff] at core
  constructor
  · rintro ⟨packets, next, stored, loaded, rebuilt⟩
    have queue := rebuilt.queue
    rw [txQMessages_reload stored loaded] at queue
    exact core.mp queue
  · rintro ⟨inOrder, arrive⟩
    have passed : ∀ p ∈ s.toPersist range, ∃ q, p.passOn s.out.Version order = some q :=
      fun p member => (arrive p member).imp fun _ => And.left
    rcases reload_of_passOn SendQuota wanted passed with ⟨packets, next, stored, loaded⟩
    have content := txQMessages_reload stored loaded
    refine ⟨packets, next, stored, loaded, ?_, fun id => ?_⟩
    · rw [content]
      exact core.mpr ⟨inOrder, arrive⟩
    · rw [flowInUse_reload loaded, content, unacknowledged_passOn_iff arrive]
      simp only [mem_toPersist]

/-- What this takes of each packet. -/
theorem survives_iff_restorable
    (queued : ∀ tp, s.Holds (.publish tp) → tp.qos ≠ QoS0 ∧ tp.expired now = false)
    (SendQuota : UInt16) :
    s.Survives subject OfflineQoS0 now order range SendQuota ↔
      s.InOrder ∧ ∀ p, s.Holds p → p.Restorable subject s.out.Version order ∧ p.Flagged := by
  have wanted : ∀ p ∈ s.toPersist range, p.wanted OfflineQoS0 now = true := by
    intro p member
    cases p with
    | unacknowledged pkt => rfl
    | publish tp =>
        have fresh := queued tp (mem_toPersist.mp member)
        simp [Queued.wanted, fresh.1, fresh.2]
  rw [survives_iff_passOn wanted]
  refine and_congr_right fun _ => forall_congr' fun p => ?_
  rw [mem_toPersist]
  refine imp_congr_right fun holds => Queued.passOn_reloaded_iff ?_
  rintro tp rfl
  exact (queued tp holds).1

end Survives

/-- When all queued PUBLISH packets have QoS 1 or 2 and none has expired, the queue survives exactly
when no packet that was never sent is stored before one that was, every PUBLISH that was sent has
QoS 1 or already carries DUP, and every packet is encoded such that a decoder of the version of the
connection reads it back with the topic it had before `setTopicAlias`. For well-formed packets the
last is a matter of their length, of the version of the client that published them, and of the topic
that those which were sent still have. -/
theorem survives_iff (s : Transmitter) (OfflineQoS0 : Bool) (now : Time)
    (order : MapOrder PropertyEntry) (range : MapOrder (Σ _ : IDType, Provider))
    (SendQuota : UInt16) (subject : Publish → GoString)
    (queued : ∀ tp, s.Holds (.publish tp) → tp.qos ≠ QoS0 ∧ tp.expired now = false) :
    (s.Survives subject OfflineQoS0 now order range SendQuota ↔
        s.InOrder ∧ ∀ p, s.Holds p → p.Restorable subject s.out.Version order ∧ p.Flagged) ∧
      ((∀ p, s.Holds p → p.Formed subject) →
        (s.Survives subject OfflineQoS0 now order range SendQuota ↔ s.InOrder ∧
          ∀ p, s.Holds p → (p.Fits s.out.Version ∧ p.Titled subject) ∧ p.Flagged)) := by
  have general := @survives_iff_restorable s range OfflineQoS0 now order subject queued SendQuota
  refine ⟨general, fun formed => ?_⟩
  rw [general]
  refine and_congr_right fun _ => forall_congr' fun p => imp_congr_right fun holds => ?_
  rw [Queued.restorable_iff (formed p holds)]

/-- A message to a topic. -/
def samplePublish (v : ProtocolVersion) (topic : GoString) (flags : UInt8) : Publish :=
  { Publish.new v with topic, mFlags := flags, packetID := some 0 }

/-- A V5.0 connection with one alias that has sent a QoS 1 message, which is not acknowledged. -/
def sampleSent : Transmitter :=
  [.qPush (samplePublish ProtocolV50 [0x61] 0x02), .popPackets, .send 0 0 (.insertion _)].foldl step
    (load ProtocolV50 10 1000 1 [])

/-- The message with its identifier and its alias. -/
def sampleAliased : Publish :=
  { samplePublish ProtocolV50 [0x61] 0x02 with
    packetID := some 1
    properties := ⟨(∅ : AList _).insert PropertyTopicAlias (.short 1), 3⟩ }

theorem sampleSent_survives :
    sampleSent.Survives (fun _ => [0x61]) false 0 (.insertion _) (.insertion _) 10 := by
  have only : ∀ p, sampleSent.Holds p → p = .unacknowledged (.publish sampleAliased) := by
    rintro p (member | member | member)
    · cases member
    · cases member
    · rename_i id pkt
      have held : sampleSent.out.pubOut.entries = [⟨1, .publish sampleAliased⟩] := rfl
      have here := AList.mem_lookup_iff.mp member
      rw [held] at here
      cases List.mem_singleton.mp here
      rfl
  have sound : Queued.Sound sampleAliased :=
    { writable :=
        { topicValid := by decide
          topicFits := by decide
          flags := by decide
          qosValid := rfl
          notDup := fun _ => rfl
          identified := fun _ => rfl
          properties := fun _ =>
            { shaped := by
                intro entry member
                cases List.mem_singleton.mp member
                exact .short 1
              exact := rfl
              bounded := by decide }
          known := by decide }
      acknowledged := by decide
      bounded := by decide }
  refine ((survives_iff _ _ _ _ _ _ _ ?_).2 ?_).mpr ⟨⟨?_, ?_⟩, ?_⟩
  · intro tp holds
    cases only _ holds
  · intro p holds
    rw [only p holds]
    exact ⟨sound, by decide⟩
  · exact List.Pairwise.nil
  · intro _ tp holds
    cases only _ holds
  · intro p holds
    rw [only p holds]
    exact ⟨⟨⟨by decide, by decide⟩, rfl⟩, .inl (by decide)⟩

/-- One message of QoS 2 was sent and not acknowledged, another was never sent. -/
def sampleInFlight : Transmitter :=
  [.qPush (samplePublish ProtocolV311 [0x61] 0x04), .popPackets,
    .qPush (samplePublish ProtocolV311 [0x62] 0x02)].foldl step (load ProtocolV311 10 1000 0 [])

/-- On the next connection the message that was never sent comes first. -/
theorem sampleInFlight_reordered :
    (∃ packets next, sampleInFlight.persist false 0 (.insertion _) (.insertion _) = .ok packets ∧
        Outbound.reload ProtocolV311 10 packets = some next ∧
        next.txQMessages.map Queued.isUnacknowledged = [false, true]) ∧
      ¬sampleInFlight.Survives Publish.topic false 0 (.insertion _) (.insertion _) 10 := by
  refine ⟨⟨_, _, rfl, rfl, rfl⟩, ?_⟩
  rintro ⟨packets, next, stored, loaded, rebuilt⟩
  rcases rebuilt.queue with ⟨sent, fresh, whole, front, -⟩
  rw [txQMessages_reload stored loaded] at whole
  have kinds : (sent ++ fresh).map Queued.isUnacknowledged = [false, true] := by
    rw [← whole]
    rfl
  rcases List.forall₂_cons_left_iff.mp front with ⟨first, rest, same, -, rfl⟩
  have kind : first.isUnacknowledged = true := Queued.isUnacknowledged_of_reloaded same
  simp [kind] at kinds

end Transmitter

end VolantMQ.Connection
