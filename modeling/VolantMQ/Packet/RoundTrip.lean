import VolantMQ.Packet.Publish
import VolantMQ.Packet.Block

/-!
# What an encoded PUBLISH decodes to

`Encode` followed by `Decode`. The encoder and the decoder of a PUBLISH each look at a protocol
version, and nothing forces the two to be the same, so the results name both: a packet keeps
its topic and its payload exactly when the two versions agree on whether there is a property
block and the packet is not too long for the length field.
-/

namespace VolantMQ.Packet

open Lib

namespace Publish

/-- A packet that `Encode` accepts unless it is too long. -/
structure Encodable (msg : Publish) : Prop where
  topicValid : validTopic msg.topic = true
  topicFits : msg.topic.length ≤ MaxLPString
  topicPresent : msg.topic.length ≠ 0
  flags : msg.mFlags.toNat < 16
  qosValid : msg.qos.isValid = true
  notDup : msg.dup = false
  identified : msg.qos ≠ QoS0 → msg.packetID.isSome
  properties : msg.version = ProtocolV50 → msg.properties.Encodable
  known : ∀ entry ∈ msg.properties.properties.entries, entry.1 ∈ publishPropertyIDs

/-- A packet that `Encode` writes out as it is if it is not too long. It may be sent again with DUP,
and an alias may stand for its topic. -/
structure Writable (msg : Publish) : Prop where
  topicValid : validTopic msg.topic = true
  topicFits : msg.topic.length ≤ MaxLPString
  flags : msg.mFlags.toNat < 16
  qosValid : msg.qos.isValid = true
  notDup : msg.qos = QoS0 → msg.dup = false
  identified : msg.qos ≠ QoS0 → msg.packetID.isSome
  properties : msg.version = ProtocolV50 → msg.properties.Encodable
  known : ∀ entry ∈ msg.properties.properties.entries, entry.1 ∈ publishPropertyIDs

theorem Encodable.writable {msg : Publish} (encodable : msg.Encodable) : msg.Writable where
  topicValid := encodable.topicValid
  topicFits := encodable.topicFits
  flags := encodable.flags
  qosValid := encodable.qosValid
  notDup := fun _ => encodable.notDup
  identified := encodable.identified
  properties := encodable.properties
  known := encodable.known

/-- The first byte of the fixed header. -/
def firstByte (flags : UInt8) : UInt8 := (PacketType.PUBLISH.code <<< 4) ||| flags

/-- The packet identifier on the wire. -/
def idBytes (msg : Publish) : Bytes :=
  if msg.qos ≠ QoS0 then (msg.packetID.map putUint16).getD [] else []

/-- What follows the packet identifier: the properties, if the version has them, and the
payload. -/
def tailBytes (order : MapOrder PropertyEntry) (msg : Publish) : Bytes :=
  (if msg.version = ProtocolV50 then msg.properties.bytes order else []) ++ msg.payload

/-- A frame with given topic, identifier bytes and tail. -/
def frame (flags : UInt8) (topic : GoString) (id tail : Bytes) : Bytes :=
  firstByte flags :: (putUvarint (lpBytes topic ++ id ++ tail).length ++
    (lpBytes topic ++ id ++ tail))

theorem QoS0_eq : QoS0 = 0 := rfl

theorem length_idBytes {msg : Publish} (identified : msg.qos ≠ QoS0 → msg.packetID.isSome) :
    msg.idBytes.length = if msg.qos ≠ 0 then 2 else 0 := by
  unfold idBytes
  by_cases ack : msg.qos ≠ QoS0
  · rcases Option.isSome_iff_exists.mp (identified ack) with ⟨id, known⟩
    rw [if_pos ack, if_pos (QoS0_eq ▸ ack), known]
    rfl
  · rw [if_neg ack, if_neg (QoS0_eq ▸ ack)]
    rfl

section Encode

variable {msg : Publish} (order : MapOrder PropertyEntry)

theorem length_body (writable : msg.Writable) :
    (lpBytes msg.topic ++ msg.idBytes ++ msg.tailBytes order).length = msg.size := by
  rw [List.length_append, List.length_append, length_lpBytes, length_idBytes writable.identified,
    tailBytes, List.length_append, size]
  by_cases five : msg.version = ProtocolV50
  · rw [if_pos five, if_pos five, Property.length_bytes order (writable.properties five)]
    omega
  · rw [if_neg five, if_neg five]
    simp only [List.length_nil]
    omega

theorem emits_encodeMessage (writable : msg.Writable) :
    Emits Fresh (msg.encodeMessage order)
      (lpBytes msg.topic ++ msg.idBytes ++ msg.tailBytes order) := by
  have inherited : ∀ dest count, Fresh dest → Fresh (dest.drop count) :=
    fun _ count isFresh => isFresh.drop count
  have ready : ¬(msg.qos != QoS0 && msg.packetID.isNone) = true := by
    intro missing
    simp only [Bool.and_eq_true, bne_iff_ne, Option.isNone_iff_eq_none] at missing
    have present := writable.identified missing.1
    simp [missing.2] at present
  have first : ¬(msg.qos == QoS0 && msg.dup) = true := by
    intro repeated
    simp only [Bool.and_eq_true, beq_iff_eq] at repeated
    simp [writable.notDup repeated.1] at repeated
  have idEmits : Emits Fresh
      (if msg.qos ≠ QoS0 then Writer.copy ((msg.packetID.map putUint16).getD [])
        else (Writer.skip : Writer PacketError)) msg.idBytes := by
    unfold idBytes
    split
    · exact emits_copy _
    · exact emits_skip
  have blockEmits : Emits Fresh
      (if msg.version = ProtocolV50 then msg.properties.encode order else Writer.skip)
      (if msg.version = ProtocolV50 then msg.properties.bytes order else []) := by
    split
    · rename_i five
      exact Property.emits_encode order (writable.properties five)
    · exact emits_skip
  rw [encodeMessage, writable.topicValid, writable.qosValid, if_neg ready, if_neg first,
    List.append_assoc]
  exact (emits_writeLPBytes writable.topicFits).seq inherited
    (idEmits.seq inherited (blockEmits.seq inherited (emits_copy _)))

theorem toInt32_of_small {x : ℕ} (small : x < 2 ^ 31) : toInt32 x = x := by
  have wrapped : (BitVec.ofNat 32 x).toNat = x := by
    rw [BitVec.toNat_ofNat]
    omega
  rw [toInt32, BitVec.toInt_eq_toNat_cond, wrapped, if_pos (by omega)]

theorem toInt32_of_large {x : ℕ} (large : 2 ^ 31 ≤ x) (bounded : x < 2 ^ 32) : toInt32 x < 0 := by
  have wrapped : (BitVec.ofNat 32 x).toNat = x := by
    rw [BitVec.toNat_ofNat, Nat.mod_eq_of_lt bounded]
  rw [toInt32, BitVec.toInt_eq_toNat_cond, wrapped, if_neg (by omega)]
  omega

/-- A packet that is not too long is encoded into its frame. -/
theorem encode_eq_frame (writable : msg.Writable) (short : msg.size ≤ 268435455) :
    msg.encode order =
      .ok (frame msg.mFlags msg.topic msg.idBytes (msg.tailBytes order)) := by
  have inherited : ∀ dest count, Fresh dest → Fresh (dest.drop count) :=
    fun _ count isFresh => isFresh.drop count
  have remaining : msg.remainingLength = .ok msg.size := by
    rw [remainingLength, toInt32_of_small (by omega), if_neg]
    · simp
    · rw [maxRemainingLength]
      omega
  have body := length_body order writable
  have small : (UInt32.ofNat msg.size).toNat = msg.size := by
    rw [UInt32.toNat_ofNat']
    omega
  have lengthField : uvarintCalc (UInt32.ofNat msg.size) = (putUvarint msg.size).length := by
    rw [uvarintCalc_eq_length, small]
  have emits : Emits Fresh (.seq (.put [firstByte msg.mFlags])
      (.seq (.put (putUvarint msg.size)) (msg.encodeMessage order))) _ :=
    (emits_put [firstByte msg.mFlags]).seq inherited
      ((emits_put (putUvarint msg.size)).seq inherited (emits_encodeMessage order writable))
  have frameEq : [firstByte msg.mFlags] ++ (putUvarint msg.size ++
      (lpBytes msg.topic ++ msg.idBytes ++ msg.tailBytes order)) =
      frame msg.mFlags msg.topic msg.idBytes (msg.tailBytes order) := by
    rw [frame, body]
    rfl
  have frameLength : (frame msg.mFlags msg.topic msg.idBytes (msg.tailBytes order)).length =
      1 + uvarintCalc (UInt32.ofNat msg.size) + msg.size := by
    rw [frame, List.length_cons, List.length_append, body, lengthField]
    omega
  rw [frameEq] at emits
  have run := emits (List.replicate (1 + uvarintCalc (UInt32.ofNat msg.size) + msg.size) 0)
    (fresh_replicate _) (by rw [frameLength, List.length_replicate])
  have sized : msg.fullSize = .ok (1 + uvarintCalc (UInt32.ofNat msg.size) + msg.size) := by
    rw [fullSize, remaining]
    rfl
  have roomy : ¬(List.replicate (1 + uvarintCalc (UInt32.ofNat msg.size) + msg.size)
      (0 : UInt8)).length < 1 + uvarintCalc (UInt32.ofNat msg.size) + msg.size := by simp
  rw [encode, sized]
  simp only [encodeTo, remaining, if_neg roomy]
  change Except.map Prod.fst (Writer.seq (.put [firstByte msg.mFlags])
    (.seq (.put (putUvarint msg.size)) (msg.encodeMessage order)) _) = _
  rw [run, frameLength]
  simp [Except.map]

/-- A packet that is too long is not encoded. -/
theorem encode_eq_error {msg : Publish} (order : MapOrder PropertyEntry)
    (long : 268435455 < msg.size) (bounded : msg.size < 2 ^ 32) :
    ∃ fault, msg.encode order = .error fault := by
  have outside : maxRemainingLength < toInt32 msg.size ∨ toInt32 msg.size < 0 := by
    by_cases small : msg.size < 2 ^ 31
    · left
      rw [toInt32_of_small small, maxRemainingLength]
      omega
    · exact .inr (toInt32_of_large (by omega) bounded)
  have remaining : msg.remainingLength = .error .ErrInvalidLength := by
    rw [remainingLength, if_pos outside]
  refine ⟨.error .ErrInvalidLength, ?_⟩
  rw [encode, fullSize, remaining]
  rfl

end Encode

section Decode

theorem firstByte_and_0x0F {flags : UInt8} (small : flags.toNat < 16) :
    firstByte flags &&& 0x0F = flags := by
  apply @forall_nibble (fun flags => firstByte flags &&& 0x0F = flags) _ flags small
  decide

theorem decodeProperties_keeps {msg next : Publish} {src : Bytes} {n : ℕ}
    (run : msg.decodeProperties src = .ok (next, n)) :
    next.payload = msg.payload ∧ next.topic = msg.topic ∧ next.packetID = msg.packetID := by
  simp only [decodeProperties] at run
  split at run
  · split at run
    · simp at run
    · split at run
      · split at run
        · split at run
          · simp only [Except.ok.injEq, Prod.mk.injEq] at run
            exact ⟨run.1 ▸ rfl, run.1 ▸ rfl, run.1 ▸ rfl⟩
          · simp at run
        · simp at run
      · simp only [Except.ok.injEq, Prod.mk.injEq] at run
        exact ⟨run.1 ▸ rfl, run.1 ▸ rfl, run.1 ▸ rfl⟩
  · simp only [Except.ok.injEq, Prod.mk.injEq] at run
    exact ⟨run.1 ▸ rfl, run.1 ▸ rfl, run.1 ▸ rfl⟩

/-- The bytes of a packet identifier as the header announces them. -/
def IdBytes (qos : QosType) (id : Option IDType) (bytes : Bytes) : Prop :=
  (qos ≠ QoS0 ∧ ∃ value, id = some value ∧ bytes = putUint16 value) ∨
    (qos = QoS0 ∧ id = none ∧ bytes = [])

theorem decodeMessageID_bytes {msg : Publish} {id : Option IDType} {bytes : Bytes}
    (blank : msg.packetID = none) (identified : IdBytes msg.qos id bytes) (tail : Bytes) :
    msg.decodeMessageID (bytes ++ tail) = ({ msg with packetID := id }, bytes.length) := by
  rcases identified with ⟨ack, value, rfl, rfl⟩ | ⟨plain, rfl, rfl⟩
  · simp [decodeMessageID, ack, putUint16, decodePacketID, uint16_putUint16]
  · rw [decodeMessageID, if_neg (fun ack => ack plain), ← blank]
    rfl

/-- All that is left of a message whose length is right is its payload. -/
theorem decodePayload_rest {msg : Publish} (blank : msg.payload = []) (src : Bytes) (offset : ℕ) :
    msg.decodePayload src.length offset src =
      if src.length < offset then rejectWith msg.version CodeMalformedPacket
      else .ok ({ msg with payload := src.drop offset }, src.length) := by
  unfold decodePayload
  by_cases beyond : src.length < offset
  · rw [if_pos beyond, if_pos (by omega)]
  · have there : ((src.length : Int) - (offset : Int)).toNat = src.length - offset := by omega
    rw [if_neg beyond, if_neg (by omega), if_neg (by omega)]
    split
    · rw [there, ← List.length_drop, List.take_length]
      simp only [List.length_drop, Except.ok.injEq, Prod.mk.injEq, true_and]
      omega
    · have done : offset = src.length := by omega
      rw [done, List.drop_length, ← blank]

/-- After topic and packet identifier, decoding a message is decoding the properties; whatever
they leave of the tail is the payload. -/
theorem decodeMessage_body {msg : Publish} {topic : GoString} {id : Option IDType}
    {bytes : Bytes} (tail : Bytes) (valid : validTopic topic = true)
    (fits : topic.length ≤ MaxLPString) (present : topic.length ≠ 0)
    (qosValid : msg.qos.isValid = true) (notDup : msg.qos = QoS0 → msg.dup = false)
    (blankPayload : msg.payload = []) (blankID : msg.packetID = none)
    (identified : IdBytes msg.qos id bytes) :
    msg.decodeMessage (lpBytes topic ++ bytes ++ tail).length (lpBytes topic ++ bytes ++ tail) =
      match ({ msg with topic := topic, packetID := id } : Publish).decodeProperties tail with
      | .error fault => .error fault
      | .ok (next, n) =>
          if tail.length < n then rejectWith next.version CodeMalformedPacket
          else .ok ({ next with payload := tail.drop n },
            (lpBytes topic ++ bytes ++ tail).length) := by
  have readTopic : readLPBytes (lpBytes topic ++ bytes ++ tail) = .ok (topic, 2 + topic.length) := by
    rw [List.append_assoc]
    exact readLPBytes_lpBytes fits _
  have afterTopic : (lpBytes topic ++ bytes ++ tail).drop (2 + topic.length) = bytes ++ tail := by
    rw [List.append_assoc, ← length_lpBytes, List.drop_left]
  have afterID : ∀ n, (lpBytes topic ++ bytes ++ tail).drop (2 + topic.length + bytes.length + n) =
      tail.drop n := by
    intro n
    rw [← List.drop_drop, ← List.drop_drop, afterTopic, List.drop_left]
  have afterIDZero := afterID 0
  have total : (lpBytes topic ++ bytes ++ tail).length =
      2 + topic.length + bytes.length + tail.length := by
    rw [List.length_append, List.length_append, length_lpBytes]
  rw [Nat.add_zero, List.drop_zero] at afterIDZero
  have idRead : ({ msg with topic := topic } : Publish).decodeMessageID (bytes ++ tail) =
      ({ msg with topic := topic, packetID := id }, bytes.length) :=
    @decodeMessageID_bytes { msg with topic := topic } id bytes blankID identified tail
  have first : ¬(msg.qos == QoS0 && msg.dup) = true := by
    intro repeated
    simp only [Bool.and_eq_true, beq_iff_eq] at repeated
    simp [notDup repeated.1] at repeated
  rw [decodeMessage, qosValid, if_neg first, readTopic]
  simp only [Bool.not_true, Bool.false_eq_true, if_false, present, false_and, valid, afterTopic,
    idRead, afterIDZero]
  cases props : ({ msg with topic := topic, packetID := id } : Publish).decodeProperties tail with
  | error fault => rfl
  | ok result =>
      rcases result with ⟨next, n⟩
      have payloadBlank : next.payload = [] := (decodeProperties_keeps props).1.trans blankPayload
      simp only
      rw [decodePayload_rest payloadBlank, afterID n, total]
      by_cases beyond : tail.length < n
      · rw [if_pos beyond, if_pos (by omega)]
      · rw [if_neg beyond, if_neg (by omega)]

theorem topic_decodeMessageID (msg : Publish) (src : Bytes) :
    (msg.decodeMessageID src).1.topic = msg.topic := by
  unfold decodeMessageID
  split <;> rfl

theorem topic_of_decodePayload {msg again : Publish} {remLen : Int} {offset n : ℕ} {src : Bytes}
    (decoded : msg.decodePayload remLen offset src = .ok (again, n)) :
    again.topic = msg.topic := by
  unfold decodePayload at decoded
  simp only [rejectWith] at decoded
  split at decoded
  · cases decoded
  · split at decoded
    · cases decoded
    · split at decoded
      · cases decoded
        rfl
      · cases decoded
        rfl

/-- The topic of a PUBLISH is the first field of its body, in all versions. -/
theorem topic_of_decodeMessage {msg again : Publish} {remLen : Int} {n : ℕ} {src : Bytes}
    (decoded : msg.decodeMessage remLen src = .ok (again, n)) :
    ∃ k, readLPBytes src = .ok (again.topic, k) := by
  unfold decodeMessage at decoded
  simp only [rejectWith] at decoded
  split at decoded
  · cases decoded
  · split at decoded
    · cases decoded
    · split at decoded
      · cases decoded
      · rename_i buf k read
        split at decoded
        · cases decoded
        · split at decoded
          · cases decoded
          · split at decoded
            · cases decoded
            · rename_i next propLen props
              have topic := (decodeProperties_keeps props).2.1
              rw [topic_decodeMessageID] at topic
              rw [topic_of_decodePayload decoded, topic]
              exact ⟨k, read⟩

/-- Decoding a frame in any version. -/
theorem decodeHeader_frame (v : ProtocolVersion) {flags : UInt8} {topic : GoString}
    {id : Option IDType} {bytes tail : Bytes} (flagsSmall : flags.toNat < 16)
    (valid : validTopic topic = true) (fits : topic.length ≤ MaxLPString)
    (present : topic.length ≠ 0)
    (qosValid : ({ Publish.new v with mFlags := flags } : Publish).qos.isValid = true)
    (notDup : ({ Publish.new v with mFlags := flags } : Publish).qos = QoS0 →
      ({ Publish.new v with mFlags := flags } : Publish).dup = false)
    (identified : IdBytes ({ Publish.new v with mFlags := flags } : Publish).qos id bytes)
    (short : (lpBytes topic ++ bytes ++ tail).length ≤ 268435455) :
    decodeHeader v (frame flags topic bytes tail) =
      match ({ Publish.new v with mFlags := flags, topic := topic, packetID := id } :
          Publish).decodeProperties tail with
      | .error fault => .error fault
      | .ok (next, n) =>
          if tail.length < n then rejectWith next.version CodeMalformedPacket
          else .ok ({ next with payload := tail.drop n }, (frame flags topic bytes tail).length) := by
  have body := decodeMessage_body tail valid fits present qosValid notDup rfl rfl identified
  generalize whole : lpBytes topic ++ bytes ++ tail = src at body short
  have lengthPos : ¬((putUvarint src.length).length : Int) ≤ 0 := by
    have small : (UInt32.ofNat src.length).toNat = src.length := by
      rw [UInt32.toNat_ofNat']
      omega
    rw [← small, ← uvarintCalc_eq_length]
    have := uvarintCalc_pos (UInt32.ofNat src.length)
    omega
  have remLen : toInt32 (UInt32.ofNat src.length).toNat = src.length := by
    rw [UInt32.toNat_ofNat', Nat.mod_eq_of_lt (by omega), toInt32_of_small (by omega)]
  rw [frame, whole]
  simp only [decodeHeader, firstByte_and_0x0F flagsSmall, qosValid, Bool.not_true,
    Bool.false_eq_true, if_false,
    uvarint_putUvarint (show src.length < 2 ^ 29 by omega), if_neg lengthPos, remLen,
    Int.toNat_natCast, List.drop_left, lt_irrefl, body]
  cases ({ Publish.new v with mFlags := flags, topic := topic, packetID := id } :
      Publish).decodeProperties tail with
  | error fault => rfl
  | ok result =>
      rcases result with ⟨next, n⟩
      simp only
      split
      · rfl
      · simp only [Except.map, List.length_cons, List.length_append, Except.ok.injEq,
          Prod.mk.injEq, true_and]
        omega

/-- A frame that is accepted has its topic, whatever the decoder makes of the rest. -/
theorem topic_of_decodeHeader {v : ProtocolVersion} {flags : UInt8} {topic : GoString}
    {bytes tail : Bytes} {again : Publish} {n : ℕ} (fits : topic.length ≤ MaxLPString)
    (short : (lpBytes topic ++ bytes ++ tail).length ≤ 268435455)
    (decoded : decodeHeader v (frame flags topic bytes tail) = .ok (again, n)) :
    again.topic = topic := by
  have readTopic : readLPBytes (lpBytes topic ++ bytes ++ tail) = .ok (topic, 2 + topic.length) := by
    rw [List.append_assoc]
    exact readLPBytes_lpBytes fits _
  generalize whole : lpBytes topic ++ bytes ++ tail = src at readTopic short
  rw [frame, whole] at decoded
  simp only [decodeHeader, rejectWith, uvarint_putUvarint (show src.length < 2 ^ 29 by omega),
    Int.toNat_natCast, List.drop_left] at decoded
  split at decoded
  · cases decoded
  · split at decoded
    · cases decoded
    · split at decoded
      · cases decoded
      · cases body : decodeMessage _ _ src with
        | error fault =>
            rw [body] at decoded
            cases decoded
        | ok result =>
            rw [body] at decoded
            cases decoded
            rcases topic_of_decodeMessage body with ⟨k, read⟩
            rw [readTopic] at read
            cases read
            rfl

end Decode

section RoundTrip

variable {msg : Publish}

/-- The packet identifier that goes on the wire. -/
def wireID (msg : Publish) : Option IDType := if msg.qos ≠ QoS0 then msg.packetID else none

theorem idBytes_wireID (writable : msg.Writable) :
    IdBytes msg.qos msg.wireID msg.idBytes := by
  unfold idBytes wireID
  by_cases ack : msg.qos ≠ QoS0
  · rcases Option.isSome_iff_exists.mp (writable.identified ack) with ⟨value, known⟩
    refine .inl ⟨ack, value, ?_, ?_⟩
    · rw [if_pos ack, known]
    · rw [if_pos ack, known]
      rfl
  · exact .inr ⟨not_not.mp ack, if_neg ack, if_neg ack⟩

/-- Bytes that a decoder of version `v` accepts with the topic and the payload of a message. -/
def DecodesAs (v : ProtocolVersion) (msg : Publish) (bytes : Bytes) : Prop :=
  ∃ next n, decodePublish v bytes = .ok (next, n) ∧ next.topic = msg.topic ∧
    next.payload = msg.payload

/-- The packet a decoder of version `v` has filled when it comes to the properties. -/
def beforeProperties (v : ProtocolVersion) (msg : Publish) : Publish :=
  { Publish.new v with mFlags := msg.mFlags, topic := msg.topic, packetID := msg.wireID }

section Frame

variable (v : ProtocolVersion) (writable : msg.Writable) (present : msg.topic.length ≠ 0)
  {tail : Bytes} (short : (lpBytes msg.topic ++ msg.idBytes ++ tail).length ≤ 268435455)

include writable present short

theorem decodeHeader_writable :
    decodeHeader v (frame msg.mFlags msg.topic msg.idBytes tail) =
      match (msg.beforeProperties v).decodeProperties tail with
      | .error fault => .error fault
      | .ok (next, n) =>
          if tail.length < n then rejectWith next.version CodeMalformedPacket
          else .ok ({ next with payload := tail.drop n },
            (frame msg.mFlags msg.topic msg.idBytes tail).length) :=
  decodeHeader_frame v writable.flags writable.topicValid writable.topicFits present
    writable.qosValid writable.notDup (idBytes_wireID writable) short

/-- The packet identifier comes back as it was written. -/
theorem packetID_of_decodeHeader {again : Publish} {n : ℕ}
    (decoded : decodeHeader v (frame msg.mFlags msg.topic msg.idBytes tail) = .ok (again, n)) :
    again.packetID = msg.wireID := by
  rw [decodeHeader_writable v writable present short] at decoded
  cases props : (msg.beforeProperties v).decodeProperties tail with
  | error fault => simp [props] at decoded
  | ok result =>
      rcases result with ⟨next, k⟩
      simp only [props] at decoded
      split at decoded
      · simp [rejectWith] at decoded
      · rw [Except.ok.injEq, Prod.mk.injEq] at decoded
        rw [← decoded.1]
        exact (decodeProperties_keeps props).2.2

/-- What a decoder makes of the frame of a packet is what it makes of the tail. -/
theorem decodesAs_frame_iff :
    DecodesAs v msg (frame msg.mFlags msg.topic msg.idBytes tail) ↔
      ∃ next n, (msg.beforeProperties v).decodeProperties tail = .ok (next, n) ∧
        n ≤ tail.length ∧ tail.drop n = msg.payload := by
  unfold DecodesAs decodePublish
  rw [decodeHeader_writable v writable present short]
  cases props : (msg.beforeProperties v).decodeProperties tail with
  | error fault =>
      constructor
      · rintro ⟨next, n, run, -⟩
        cases fault <;> simp at run
      · rintro ⟨next, n, run, -⟩
        simp at run
  | ok result =>
      rcases result with ⟨next, n⟩
      have sameTopic : next.topic = msg.topic := (decodeProperties_keeps props).2.1
      simp only [Except.ok.injEq, Prod.mk.injEq]
      constructor
      · rintro ⟨last, k, run, -, samePayload⟩
        by_cases beyond : tail.length < n
        · rw [if_pos beyond] at run
          simp [rejectWith] at run
        · rw [if_neg beyond] at run
          simp only [Except.ok.injEq, Prod.mk.injEq] at run
          refine ⟨next, n, ⟨rfl, rfl⟩, by omega, ?_⟩
          rw [← samePayload, ← run.1]
      · rintro ⟨_, _, ⟨rfl, rfl⟩, within, samePayload⟩
        rw [if_neg (by omega)]
        exact ⟨_, _, rfl, sameTopic, samePayload⟩

end Frame

theorem decodeProperties_of_old {msg : Publish} (old : msg.version ≠ ProtocolV50) (src : Bytes) :
    msg.decodeProperties src = .ok (msg, 0) := by
  rw [decodeProperties, if_neg old]

theorem decodeProperties_of_five {msg : Publish} (five : msg.version = ProtocolV50)
    (present : msg.topic.length ≠ 0) (src : Bytes) :
    msg.decodeProperties src =
      (msg.properties.decode .PUBLISH src).map fun result =>
        ({ msg with properties := result.1 }, result.2) := by
  rw [decodeProperties, if_pos five]
  cases msg.properties.decode .PUBLISH src with
  | error fault => rfl
  | ok result => simp only [if_neg present, Except.map]

theorem length_tail_five (order : MapOrder PropertyEntry) (writable : msg.Writable)
    (five : msg.version = ProtocolV50) : 0 < (msg.properties.bytes order).length := by
  rw [Property.length_bytes order (writable.properties five),
    Property.toNat_fullLen (writable.properties five)]
  have := uvarintCalc_pos msg.properties.len
  omega

/-- What a reader of version `v` makes of the tail of a packet. -/
theorem decodeProperties_tail_iff (order : MapOrder PropertyEntry) (v : ProtocolVersion)
    (writable : msg.Writable) (present : msg.topic.length ≠ 0) (short : msg.size ≤ 268435455) :
    (∃ next n, (msg.beforeProperties v).decodeProperties (msg.tailBytes order) = .ok (next, n) ∧
        n ≤ (msg.tailBytes order).length ∧ (msg.tailBytes order).drop n = msg.payload) ↔
      (msg.version = ProtocolV50 ↔ v = ProtocolV50) := by
  have present : (msg.beforeProperties v).topic.length ≠ 0 := present
  unfold tailBytes
  by_cases reader : v = ProtocolV50
  · have readerFive : (msg.beforeProperties v).version = ProtocolV50 := reader
    rw [decodeProperties_of_five readerFive present]
    by_cases writer : msg.version = ProtocolV50
    · rw [if_pos writer]
      have block : msg.properties.len.toNat < 2 ^ 29 := by
        have full := Property.toNat_fullLen (writable.properties writer)
        rw [size, if_pos writer] at short
        omega
      rcases Property.decode_bytes order (writable.properties writer) block writable.known
        msg.payload with ⟨done, run⟩
      refine ⟨fun _ => ⟨fun _ => reader, fun _ => writer⟩, fun _ => ?_⟩
      change ∃ next n, (Property.empty.decode .PUBLISH _).map _ = Except.ok (next, n) ∧ _
      rw [run]
      exact ⟨_, _, rfl, by simp, by simp⟩
    · -- the reader takes at least one byte of the payload for a property block
      rw [if_neg writer, List.nil_append]
      refine ⟨?_, fun agree => absurd (agree.mpr reader) writer⟩
      rintro ⟨next, n, run, within, same⟩
      have shorter := congrArg List.length same
      rw [List.length_drop] at shorter
      rcases map_eq_ok.mp run with ⟨result, decoded, same⟩
      have positive := Property.pos_of_decode decoded
      simp only [Prod.mk.injEq] at same
      omega
  · have readerOld : (msg.beforeProperties v).version ≠ ProtocolV50 := reader
    rw [decodeProperties_of_old readerOld]
    by_cases writer : msg.version = ProtocolV50
    · -- the reader takes the property block for the start of the payload
      rw [if_pos writer]
      refine ⟨?_, fun agree => absurd (agree.mp writer) reader⟩
      rintro ⟨next, n, run, -, same⟩
      simp only [Except.ok.injEq, Prod.mk.injEq] at run
      have longer := congrArg List.length same
      rw [← run.2, List.drop_zero, List.length_append] at longer
      have positive := length_tail_five order writable writer
      omega
    · rw [if_neg writer, List.nil_append]
      refine ⟨fun _ => ⟨fun five => absurd five writer, fun five => absurd five reader⟩, fun _ => ?_⟩
      exact ⟨_, 0, rfl, Nat.zero_le _, List.drop_zero⟩

/-- A packet survives encoding, in any iteration order, and decoding exactly when the two sides
agree on whether there is a property block and the packet is not too long. -/
theorem decodesAs_encode_iff (order : MapOrder PropertyEntry) (v : ProtocolVersion)
    (writable : msg.Writable) (present : msg.topic.length ≠ 0) (bounded : msg.size < 2 ^ 32) :
    (∃ bytes, msg.encode order = .ok bytes ∧ DecodesAs v msg bytes) ↔
      (msg.version = ProtocolV50 ↔ v = ProtocolV50) ∧ msg.size ≤ 268435455 := by
  by_cases short : msg.size ≤ 268435455
  · have body := length_body order writable
    rw [encode_eq_frame order writable short]
    simp only [Except.ok.injEq, exists_eq_left', short, and_true]
    rw [decodesAs_frame_iff v writable present (by rw [body]; exact short)]
    exact decodeProperties_tail_iff order v writable present short
  · rcases encode_eq_error order (Nat.lt_of_not_le short) bounded with ⟨fault, failed⟩
    simp [failed, short]

end RoundTrip

end Publish

end VolantMQ.Packet
