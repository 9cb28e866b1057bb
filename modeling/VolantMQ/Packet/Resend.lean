import VolantMQ.Packet.Reread
import VolantMQ.Packet.RoundTrip

/-!
# PUBLISH packets that are read back as they are

What `Encode` writes for a PUBLISH is read back by a decoder of the same version with the same
topic, payload, flags, packet identifier and property map. A packet that was decoded from a frame
without needlessly long integers can be sent again in this way.
-/

namespace VolantMQ.Packet

open Lib

section Types

variable {body : Bytes} {n : ℕ} (order : MapOrder PropertyEntry)

namespace Publish

/-- A PUBLISH that a decoder of its version reads back as it is. -/
structure Sendable (v : ProtocolVersion) (msg : Publish) : Prop where
  version : msg.version = v
  topicValid : validTopic msg.topic = true
  topicFits : msg.topic.length ≤ MaxLPString
  named : msg.topic.length = 0 → ¬v < ProtocolV50 ∧ (v = ProtocolV50 → msg.aliased = true)
  flags : msg.mFlags.toNat < 16
  qosValid : msg.qos.isValid = true
  notDup : msg.qos = QoS0 → msg.dup = false
  identified : msg.qos ≠ QoS0 → msg.packetID.isSome
  exact : msg.properties.Exact .PUBLISH
  old : v ≠ ProtocolV50 → msg.properties = .empty
  short : msg.size ≤ 268435455

/-- The properties of a PUBLISH on the wire. -/
def blockBytes (order : MapOrder PropertyEntry) (msg : Publish) : Bytes :=
  if msg.version = ProtocolV50 then msg.properties.bytes order else []

variable {v : ProtocolVersion} {msg : Publish}

theorem Sendable.writable (sendable : msg.Sendable v) : msg.Writable where
  topicValid := sendable.topicValid
  topicFits := sendable.topicFits
  flags := sendable.flags
  qosValid := sendable.qosValid
  notDup := sendable.notDup
  identified := sendable.identified
  properties := fun _ => sendable.exact.encodable
  known := fun _ held =>
    mem_publishPropertyIDs (sendable.exact.allowed _ _ (Property.get_of_mem held))

theorem lpBytes_append_tailBytes :
    lpBytes msg.topic ++ msg.idBytes ++ msg.tailBytes order =
      lpBytes msg.topic ++ (msg.idBytes ++ (msg.blockBytes order ++ msg.payload)) :=
  List.append_assoc _ _ _

theorem Sendable.emits (sendable : msg.Sendable v) :
    Emits Fresh (msg.encodeMessage order)
      (lpBytes msg.topic ++ (msg.idBytes ++ (msg.blockBytes order ++ msg.payload))) := by
  rw [← lpBytes_append_tailBytes]
  exact emits_encodeMessage order sendable.writable

theorem Sendable.length (sendable : msg.Sendable v) :
    (lpBytes msg.topic ++ (msg.idBytes ++ (msg.blockBytes order ++ msg.payload))).length =
      msg.size := by
  rw [← lpBytes_append_tailBytes]
  exact length_body order sendable.writable

theorem Sendable.reads_id (sendable : msg.Sendable v) :
    Reads (Reader.optional (msg.qos ≠ QoS0) (some <$> packetIDField) none) msg.idBytes
      msg.wireID := by
  unfold idBytes wireID
  refine Reads.optional ?_ ?_
  · intro ack
    rcases Option.isSome_iff_exists.mp (sendable.identified ack) with ⟨id, known⟩
    rw [if_pos ack, if_pos ack, known]
    exact (reads_packetIDField id).map some
  · intro plain
    rw [if_neg plain, if_neg plain]
    exact ⟨rfl, rfl⟩

/-- What a PUBLISH is read back as. -/
theorem Sendable.reads (sendable : msg.Sendable v) :
    ∃ done, msg.properties.Same done ∧
      Reads (readMessage { Publish.new v with mFlags := msg.mFlags }
          ((lpBytes msg.topic ++ (msg.idBytes ++ (msg.blockBytes order ++ msg.payload))).length : ℕ))
        (lpBytes msg.topic ++ (msg.idBytes ++ (msg.blockBytes order ++ msg.payload)))
        { Publish.new v with
          mFlags := msg.mFlags
          topic := msg.topic
          packetID := msg.wireID
          properties := done
          payload := msg.payload } := by
  have block : ∃ done, msg.properties.Same done ∧
      Reads (Reader.optional (v = ProtocolV50) (block true .PUBLISH) .empty)
        (msg.blockBytes order) done := by
    unfold blockBytes
    rw [sendable.version]
    by_cases five : v = ProtocolV50
    · rcases Property.reads_exact sendable.exact order with ⟨done, reads, -, same⟩
      refine ⟨done, same, ?_⟩
      rw [Reader.optional_of_present five, if_pos five]
      exact reads
    · refine ⟨.empty, by rw [sendable.old five]; exact fun _ => rfl, ?_⟩
      rw [Reader.optional_of_absent five, if_neg five]
      exact reads_pure _
  rcases block with ⟨done, same, readsBlock⟩
  refine ⟨done, same, ?_⟩
  have left : (((lpBytes msg.topic ++ (msg.idBytes ++ (msg.blockBytes order ++
      msg.payload))).length : ℕ) : Int) - ((lpBytes msg.topic).length + msg.idBytes.length +
        (msg.blockBytes order).length : ℕ) = msg.payload.length := by
    simp only [List.length_append]
    omega
  have fresh : ¬(msg.qos == QoS0 && msg.dup) = true := by
    intro repeated
    simp only [Bool.and_eq_true, beq_iff_eq] at repeated
    simp [sendable.notDup repeated.1] at repeated
  have present : ¬(msg.topic.length = 0 ∧ v < ProtocolV50) :=
    fun nameless => (sendable.named nameless.1).1 nameless.2
  have qosValid : ¬(!msg.qos.isValid) = true := by simp [sendable.qosValid]
  refine Reads.check qosValid (Reads.check fresh
    ((reads_lpField sendable.topicFits).counted.bind (Reads.check present (Reads.check
      (by simp [sendable.topicValid]) (sendable.reads_id.counted.bind
        (readsBlock.counted.bind ?_))))))
  have aliasHeld : ({ Publish.new v with
      mFlags := msg.mFlags, topic := msg.topic, packetID := msg.wireID, properties := done } :
        Publish).aliased = msg.aliased := by
    unfold aliased propertyGet
    rw [sendable.version, same PropertyTopicAlias]
    rfl
  have aliased : ¬(decide (v = ProtocolV50) && (msg.topic.length == 0) && !({ Publish.new v with
      mFlags := msg.mFlags, topic := msg.topic, packetID := msg.wireID, properties := done } :
        Publish).aliased) = true := by
    rw [aliasHeld]
    intro nameless
    simp only [Bool.and_eq_true, decide_eq_true_eq, beq_iff_eq] at nameless
    simp [(sendable.named nameless.1.2).2 nameless.1.1] at nameless
  simp only [left]
  refine Reads.check aliased (Reads.check (by omega) ?_)
  rw [Int.toNat_natCast]
  refine (reads_take _ msg.payload).finish ?_
  have kept : (if (0 : Int) < msg.payload.length then msg.payload else []) = msg.payload := by
    split
    · rfl
    · rename_i none
      rw [eq_comm, ← List.length_eq_zero_iff]
      omega
  change Reads (pure { Publish.new v with
    mFlags := msg.mFlags, topic := msg.topic, packetID := msg.wireID, properties := done,
    payload := if (0 : Int) < msg.payload.length then msg.payload else [] }) [] _
  rw [kept]
  exact reads_pure _

theorem read_id {ack : Prop} [Decidable ack] {id : Option IDType} {src : Bytes}
    (run : (Reader.optional ack (some <$> packetIDField) none).run src = .ok (id, n)) :
    (ack → id.isSome) ∧ (¬ack → id = none) ∧ src.drop n = src.drop (if ack then 2 else 0) ∧
      n = if ack then min 2 src.length else 0 := by
  by_cases holds : ack
  · rw [Reader.optional_of_present holds, Reader.run_map] at run
    rcases map_eq_ok.mp run with ⟨⟨value, k⟩, read, same⟩
    simp only [Prod.mk.injEq] at same
    rcases same with ⟨rfl, rfl⟩
    rw [if_pos holds, if_pos holds]
    exact ⟨fun _ => rfl, fun missing => absurd holds missing, drop_of_packetIDField read,
      packetIDField_consumes read⟩
  · rw [Reader.optional_of_absent holds] at run
    simp only [Reader.run_pure, Except.ok.injEq, Prod.mk.injEq] at run
    rcases run with ⟨rfl, rfl⟩
    rw [if_neg holds, if_neg holds]
    exact ⟨fun there => absurd there holds, fun _ => rfl, rfl, rfl⟩

/-- A PUBLISH that was decoded can be sent again. -/
theorem sendable_of_read {flags : UInt8} {next : Publish} (small : flags.toNat < 16)
    (short : body.length ≤ 268435455)
    (tidy : v = ProtocolV50 → Property.Tidy (body.drop (lpLength body +
      if ({ Publish.new v with mFlags := flags } : Publish).qos ≠ QoS0 then 2 else 0)))
    (run : (readMessage { Publish.new v with mFlags := flags } body.length).run body =
      .ok (next, n)) : next.Sendable v ∧ next.mFlags = flags ∧ next.wireID = next.packetID := by
  simp only [readMessage, reject, rejectFor, Reader.run_check_eq_ok, Reader.run_bind_eq_ok] at run
  rcases run with ⟨qosValid, fresh, ⟨topic, a⟩, _, _, topicRun, ⟨present, valid, ⟨id, b⟩, _, _, idRun,
    ⟨⟨p, c⟩, _, _, props, run, rfl⟩, rfl⟩, rfl⟩
  rcases Reader.run_counted_eq_ok.mp topicRun with ⟨topicRead, rfl⟩
  rcases Reader.run_counted_eq_ok.mp idRun with ⟨idRead, rfl⟩
  rcases Reader.run_counted_eq_ok.mp props with ⟨propsRead, rfl⟩
  rcases run with ⟨aliased, enough, payload, d, e, taken, done, rfl⟩
  have topicEnds := readLPBytes_eq_ok topicRead
  have topicLength := lpField_consumes topicRead
  rcases read_id idRead with ⟨identified, unidentified, idDrop, idEnds⟩
  rw [idDrop, List.drop_drop, topicLength] at propsRead
  rcases Property.exact_of_optional tidy (by rw [List.length_drop]; omega) propsRead with
    ⟨exact, absent, length⟩
  have count := (Reader.run_take_eq_ok.mp taken).2.1
  have room := (Reader.run_take_eq_ok.mp taken).1
  simp only [Reader.run_pure, Except.ok.injEq, Prod.mk.injEq] at done
  rcases done with ⟨rfl, rfl⟩
  have qos : ({ Publish.new v with mFlags := flags } : Publish).qos.isValid = true := by
    simpa using qosValid
  refine ⟨⟨rfl, by simpa using valid, topicEnds.1, ?_, small, qos, ?_, identified, exact, absent, ?_⟩,
    rfl, ?_⟩
  · intro nameless
    have five : ¬v < ProtocolV50 := fun older => present ⟨nameless, older⟩
    refine ⟨five, fun isFive => ?_⟩
    have held : ({ Publish.new v with
        mFlags := flags, topic := topic, packetID := id, properties := p } : Publish).aliased =
        true := by
      by_contra missing
      refine aliased ?_
      rw [Bool.not_eq_true] at missing
      have version : (Publish.new v).version = ProtocolV50 := isFive
      rw [missing, version, beq_iff_eq.mpr nameless]
      rfl
    exact held
  · intro zero
    have first : ({ Publish.new v with mFlags := flags } : Publish).qos = QoS0 := zero
    simp only [first, beq_self_eq_true, Bool.true_and, Bool.not_eq_true] at fresh
    exact fresh
  · have payloadLength : (if 0 < (body.length : Int) - (a + b + c : ℕ) then payload
        else []).length = body.length - (a + b + c) := by
      split
      · rw [count, List.length_take]
        omega
      · simp only [List.length_nil]
        omega
    change 2 + topic.length + (if 0 < (body.length : Int) - (a + b + c : ℕ) then payload
      else []).length + (if ({ Publish.new v with mFlags := flags } : Publish).qos ≠ 0 then 2 else 0) +
        (if v = ProtocolV50 then p.fullLen.toNat else 0) ≤ _
    change c = if v = ProtocolV50 then p.fullLen.toNat else 0 at length
    have fits : MaxLPString = 65535 := rfl
    rw [payloadLength, ← length]
    rw [List.length_drop] at idEnds
    simp only at enough
    by_cases ack : ({ Publish.new v with mFlags := flags } : Publish).qos ≠ QoS0
    · rw [if_pos ack] at idEnds
      rw [if_pos (QoS0_eq ▸ ack)]
      simp only [List.length_drop] at room
      omega
    · rw [if_neg (QoS0_eq ▸ ack)]
      omega
  · change (if ({ Publish.new v with mFlags := flags } : Publish).qos ≠ QoS0 then id else none) = id
    split
    · rfl
    · rename_i plain
      exact (unidentified plain).symm

end Publish

theorem Publish.rereads {v : ProtocolVersion} {msg : Publish} (sendable : msg.Sendable v)
    (wire : msg.wireID = msg.packetID) :
    (Message.publish msg).Rereads .PUBLISH msg.mFlags
      (fun remLen => .publish <$> readMessage { Publish.new v with mFlags := msg.mFlags } remLen)
      order := by
  rcases sendable.reads order with ⟨done, same, reads⟩
  have length := sendable.length order
  refine ⟨rfl, rfl, _, _, sendable.emits order, length, ?_, (reads.map Message.publish).run, ?_⟩
  · rw [length]
    exact sendable.short
  · exact ⟨sendable.version, rfl, wire.symm, rfl, rfl, same⟩

theorem Publish.Sendable.restored {v : ProtocolVersion} {msg : Publish}
    (sendable : msg.Sendable v) (wire : msg.wireID = msg.packetID) :
    (Message.publish msg).Restored v order := by
  refine (Publish.rereads order sendable wire).restored rfl sendable.flags ?_
  have valid : QosType.isValid ((msg.mFlags &&& Publish.maskPublishFlagQoS) >>> 1) = true :=
    sendable.qosValid
  simp [flagsRejected, valid]

/-- An identifier that does not go onto the wire makes no difference. -/
theorem Publish.encode_wireID (msg : Publish) :
    (Message.publish { msg with packetID := msg.wireID }).encode order =
      (Message.publish msg).encode order := by
  unfold wireID
  by_cases ack : msg.qos ≠ QoS0
  · rw [if_pos ack]
  · have plain : msg.qos = QoS0 := not_not.mp ack
    have blank : ({ msg with packetID := none } : Publish).qos = QoS0 := plain
    have body : ({ msg with packetID := none } : Publish).encodeMessage order =
        msg.encodeMessage order := by
      simp only [encodeMessage, blank, plain, bne_self_eq_false, Bool.false_and, ne_eq, not_true,
        if_false]
      rfl
    rw [if_neg ack]
    simp only [Message.encode, Message.encodeTo, Message.encodeMessage, body]
    rfl

end Types

end VolantMQ.Packet
