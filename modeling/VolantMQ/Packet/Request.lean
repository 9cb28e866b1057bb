import VolantMQ.Packet.Ack
import VolantMQ.Packet.Reread
import VolantMQ.Packet.Subscribe

/-!
# Requests and their acknowledgements

SUBSCRIBE and UNSUBSCRIBE packets as the handlers of a connection receive them from `Decode`, and
the packets that answer requests as they are given to `Encode`: acknowledgements, the `SubAck`
object, and the `UnSubAck` object of `unsuback.go`. An UNSUBACK has return codes as a SUBACK has,
but neither its encoder nor its decoder deals with them.
-/

namespace VolantMQ.Packet

open Lib

namespace Subscribe

/-- The object that is decoded as a SUBSCRIBE. -/
def ofBody (h : Header) (topics : List (GoString × SubscriptionOptions)) : Subscribe :=
  ⟨h.version, h.packetID, h.properties, topics⟩

/-- A SUBSCRIBE that a connection of version `v` has received. Every filter takes three bytes at
least. -/
structure Requested (v : ProtocolVersion) (h : Header)
    (topics : List (GoString × SubscriptionOptions)) : Prop where
  version : h.version = v
  identified : ∃ id, h.packetID = some id
  nonempty : topics ≠ []
  few : 3 * topics.length ≤ 2 ^ 29 + 1
  accepted : ∀ entry ∈ topics, Accepted v entry

theorem decodeTopics_few {version : ProtocolVersion} {rounds : ℕ} {remLen : Int}
    {topics all : List (GoString × SubscriptionOptions)} {src : Bytes} {n : ℕ}
    (run : (decodeTopics version rounds remLen topics).run src = .ok (all, n)) :
    3 * all.length ≤ 3 * topics.length + remLen.toNat + 2 := by
  induction rounds generalizing remLen topics src n with
  | zero =>
      simp only [decodeTopics, Reader.run_pure, Except.ok.injEq, Prod.mk.injEq] at run
      rw [run.1]
      omega
  | succ rounds ih =>
      rcases decodeTopics_eq_ok run with ⟨-, rfl, -⟩ |
        ⟨t, a, ops, m, more, topicRun, -, -, -, -, rest, -⟩
      · omega
      · have ends := readLPBytes_eq_ok topicRun
        have later := ih rest
        simp only [List.length_append, List.length_singleton] at later
        omega

theorem requested_of_decode {v : ProtocolVersion} {buf : Bytes} {h : Header}
    {topics : List (GoString × SubscriptionOptions)} {n : ℕ}
    (decoded : decode v buf = .ok (.control h (.subscribe topics), n)) : Requested v h topics := by
  cases buf with
  | nil => simp [decode] at decoded
  | cons first rest =>
      have type := decode_mType decoded
      have announced : PacketType.ofFirstByte first = .SUBSCRIBE :=
        type.1 ▸ List.mem_singleton.mp type.2
      refine @decode_gives v first rest _ n (fun m => ∀ h topics, m = .control h (.subscribe topics) →
        Requested v h topics) ?_ decoded h topics rfl
      rw [announced]
      rintro remLen small src m k run h topics rfl
      simp only [Packet.decodeMessage, decodeMessage, reject, Reader.run_bind_eq_ok,
        Reader.run_check_eq_ok, Reader.run_pure, Except.ok.injEq, Prod.mk.injEq,
        Message.control.injEq, Body.subscribe.injEq] at run
      rcases run with ⟨⟨id, a⟩, _, _, idRun, ⟨⟨p, b⟩, _, _, props, ⟨found, c, _, loop,
        ⟨nonempty, ⟨rfl, rfl⟩, rfl⟩, rfl⟩, rfl⟩, rfl⟩
      rcases decodeTopics_accepted loop with ⟨new, rfl, accepted, _⟩
      have few := decodeTopics_few loop
      refine ⟨rfl, ⟨id, rfl⟩, ?_, ?_, accepted⟩
      · exact fun none => nonempty (by rw [none]; rfl)
      · simp only [List.length_nil] at few
        omega

end Subscribe

/-- `packet.UnSubscribe`, as far as its handler reads it. -/
structure UnSubscribe where
  packetID : Option IDType
  topics : List GoString

structure UnSubAck where
  version : ProtocolVersion
  packetID : Option IDType
  returnCodes : List ReasonCode

namespace UnSubAck

/-- `New(v, UNSUBACK)` -/
def new (v : ProtocolVersion) : UnSubAck := ⟨v, none, []⟩

def setPacketID (msg : UnSubAck) (v : IDType) : UnSubAck := { msg with packetID := some v }

/-- `UnSubAck.AddReturnCodes`: the codes before the first that is refused have been added. -/
def addReturnCodes (msg : UnSubAck) : List ReasonCode → UnSubAck × Option PacketError
  | [] => (msg, none)
  | c :: ret =>
      if msg.version = ProtocolV50 ∧ !ReasonCode.isValidForType c .UNSUBACK then
        (msg, some .ErrInvalidReturnCode)
      else if !QosType.isValidFull c then (msg, some .ErrInvalidReturnCode)
      else addReturnCodes { msg with returnCodes := msg.returnCodes ++ [c] } ret

/-- Codes are added to the packet, and nothing else in it changes. -/
theorem addReturnCodes_spec (msg : UnSubAck) (codes : List ReasonCode) :
    ∃ added, (msg.addReturnCodes codes).1 =
      ⟨msg.version, msg.packetID, msg.returnCodes ++ added⟩ := by
  induction codes generalizing msg with
  | nil => exact ⟨[], by simp [addReturnCodes]⟩
  | cons c codes ih =>
      simp only [addReturnCodes]
      split
      · exact ⟨[], by simp⟩
      · split
        · exact ⟨[], by simp⟩
        · rcases ih { msg with returnCodes := msg.returnCodes ++ [c] } with ⟨added, eq⟩
          exact ⟨c :: added, by simp [eq]⟩

/-- A code that is no QoS ends the list. -/
theorem addReturnCodes_of_refused (msg : UnSubAck) {c : ReasonCode} (codes : List ReasonCode)
    (refused : QosType.isValidFull c = false) : (msg.addReturnCodes (c :: codes)).1 = msg := by
  simp only [addReturnCodes, refused, Bool.not_false, if_true]
  split <;> rfl

theorem addReturnCodes_of_taken (msg : UnSubAck) {c : ReasonCode} (codes : List ReasonCode)
    (valid : ReasonCode.isValidForType c .UNSUBACK = true) (taken : QosType.isValidFull c = true) :
    msg.addReturnCodes (c :: codes) =
      ({ msg with returnCodes := msg.returnCodes ++ [c] } : UnSubAck).addReturnCodes codes := by
  simp only [addReturnCodes, valid, taken, Bool.not_true, Bool.false_eq_true, and_false, if_false]

end UnSubAck

/-- The acknowledgement as it is given to `Encode`. -/
def Ack.message (msg : Ack) : Message :=
  .control { Header.new msg.version msg.mType with packetID := msg.packetID } (.ack msg.reasonCode)

/-- The SUBACK as it is given to `Encode`. -/
def SubAck.message (msg : SubAck) : Message :=
  .control { Header.new msg.version .SUBACK with packetID := msg.packetID }
    (.subAck msg.returnCodes)

/-- The UNSUBACK as it is given to `Encode`. -/
def UnSubAck.message (msg : UnSubAck) : Message :=
  .control { Header.new msg.version .UNSUBACK with packetID := msg.packetID }
    (.unSubAck msg.returnCodes)

namespace Message

/-- The reason code of an acknowledgement, or the return codes of a SUBACK or UNSUBACK. -/
def codes : Message → List ReasonCode
  | control _ (.ack reasonCode) => [reasonCode]
  | control _ (.subAck returnCodes) => returnCodes
  | control _ (.unSubAck returnCodes) => returnCodes
  | _ => []

/-- The packet is encoded, and a decoder of version `v` reads its identifier and codes from what
was written. -/
def WellFormed (v : ProtocolVersion) (order : MapOrder PropertyEntry) (m : Message) : Prop :=
  ∃ buf, m.encode order = .ok buf ∧
    ∃ again n, decode v buf = .ok (again, n) ∧ again.packetID = m.packetID ∧ again.codes = m.codes

theorem Restored.wellFormed {v : ProtocolVersion} {order : MapOrder PropertyEntry} {m : Message}
    (restored : m.Restored v order) : m.WellFormed v order := by
  rcases restored with ⟨buf, encoded, again, decoded, same⟩
  refine ⟨buf, encoded, again, _, decoded, ?_⟩
  cases m with
  | publish msg =>
      cases again with
      | control h body => exact same.elim
      | publish other => exact ⟨same.2.2.1.symm, rfl⟩
  | control h body =>
      cases again with
      | publish other => exact same.elim
      | control k other =>
          rcases same with ⟨_, _, _, identifier, rfl, _⟩
          refine ⟨identifier.symm, ?_⟩
          cases body <;> rfl

end Message

section Answers

variable {v : ProtocolVersion} {order : MapOrder PropertyEntry}

/-- The types of the acknowledgements of a PUBLISH. -/
def Ack.types : List PacketType := [.PUBACK, .PUBREC, .PUBREL, .PUBCOMP]

theorem Ack.accepted {t : PacketType} (isAck : t ∈ Ack.types) :
    newMessage v t = .ok (.control (.new v t) (.ack 0)) ∧ t.defaultFlags.toNat < 16 ∧
      flagsRejected t t.defaultFlags = false ∧
      ∀ remLen, Packet.decodeMessage v t t.defaultFlags remLen = decodeMessage (.new v t) := by
  simp only [Ack.types, List.mem_cons, List.not_mem_nil, or_false] at isAck
  rcases isAck with rfl | rfl | rfl | rfl <;>
    exact ⟨rfl, by decide, by decide, fun _ => rfl⟩

/-- The properties of a new packet are a block of a single byte. -/
theorem fullLen_empty : ¬1 < Property.empty.fullLen := by decide

/-- An acknowledgement without a reason is well formed in all versions. -/
theorem Ack.wellFormed_success {t : PacketType} (isAck : t ∈ Ack.types) (id : IDType) :
    (⟨v, t, some id, CodeSuccess⟩ : Ack).message.WellFormed v order := by
  rcases @Ack.accepted v t isAck with ⟨created, small, accepted, reader⟩
  have bytes : (Header.new v t).reasonBytes order CodeSuccess = [] := by
    simp [Header.reasonBytes, Header.new, fullLen_empty]
  have size : (Header.new v t).reasonSize CodeSuccess = 0 := by
    simp [Header.reasonSize, Header.new, fullLen_empty]
  have rereads := @Ack.rereads_written (.new v t) order id .empty CodeSuccess
    (Property.exact_empty t).encodable
    (.control { Header.new v t with packetID := some id } (.ack CodeSuccess))
    (by
      change 2 + (Header.new v t).reasonSize CodeSuccess ≤ _
      rw [size]
      decide)
    (by
      change (Ack.decodeMessage (.new v t)).run
        (putUint16 id ++ (Header.new v t).reasonBytes order CodeSuccess) = _
      rw [bytes, List.append_nil, Ack.run_putUint16]
      change _ = Except.ok (_, 2 + ((Header.new v t).reasonBytes order CodeSuccess).length)
      rw [bytes]
      rfl)
    ⟨rfl, rfl, rfl, rfl, rfl, fun _ => rfl⟩
  apply Message.Restored.wellFormed
  apply Message.Rereads.restored created small accepted
  simp only [reader]
  exact rereads

/-- A reason that its packet type may not have makes an acknowledgement of V5.0 unreadable. -/
theorem Ack.not_wellFormed {t : PacketType} (isAck : t ∈ Ack.types) (id : IDType)
    {code : ReasonCode} (said : code ≠ CodeSuccess)
    (invalid : ReasonCode.isValidForType code t = false) :
    ¬(⟨ProtocolV50, t, some id, code⟩ : Ack).message.WellFormed ProtocolV50 order := by
  rcases @Ack.accepted ProtocolV50 t isAck with ⟨created, small, accepted, reader⟩
  let h : Header := { Header.new ProtocolV50 t with packetID := some id }
  have encodable : h.properties.Encodable := (Property.exact_empty t).encodable
  have bytes : h.reasonBytes order code = [code] := by
    simp only [Header.reasonBytes, h, Header.new, fullLen_empty, false_or, ne_eq, said,
      not_false_eq_true, if_true, if_false]
  have emits : Emits Fresh (Message.encodeMessage order (.control h (.ack code)))
      (putUint16 id ++ h.reasonBytes order code) :=
    (emits_copy _).seq inherited_fresh (Header.emits_encodeReason order encodable code)
  have length : (putUint16 id ++ h.reasonBytes order code).length =
      (Message.control h (.ack code)).size := by
    rw [List.length_append, length_putUint16, Header.length_reasonBytes order encodable]
    rfl
  rw [bytes] at emits length
  have short : (putUint16 id ++ [code]).length ≤ 268435455 := by
    rw [List.length_append, length_putUint16, List.length_singleton]
    decide
  have refused : (Ack.decodeMessage (.new ProtocolV50 t)).run (putUint16 id ++ [code]) =
      .error (.error (.reason CodeMalformedPacket)) := by
    have run := @Ack.run_reason (.new ProtocolV50 t) rfl (UInt8.ofNat (id.toNat / 256))
      (UInt8.ofNat (id.toNat % 256)) code []
    rw [show ReasonCode.isValidForType code (Header.new ProtocolV50 t).mType = false from invalid]
      at run
    exact run
  rintro ⟨buf, encoded, again, n, decoded, _⟩
  have written : (Message.control h (.ack code)).encode order = .ok buf := encoded
  rw [Message.encode_eq_frame emits length short, Except.ok.injEq] at written
  rw [← written, @Message.decode_frame ProtocolV50 (.control h (.ack code)) _ created small
    accepted _ short] at decoded
  rcases Frame.settle_eq_ok.mp decoded with ⟨k, run, _⟩
  simp only [Message.mType, Message.mFlags] at run
  have reads := reader (putUint16 id ++ [code]).length
  rw [show h.mType = t from rfl, show h.mFlags = t.defaultFlags from rfl, reads, refused] at run
  cases run

theorem Header.blockSize_new_le (v : ProtocolVersion) (t : PacketType) :
    (Header.new v t).blockSize ≤ 1 := by
  have single : Property.empty.fullLen.toNat ≤ 1 := by decide
  unfold Header.blockSize
  split
  · exact single
  · exact Nat.zero_le 1

/-- A SUBACK with granted QoS only is well formed. -/
theorem SubAck.wellFormed (id : IDType) {codes : List ReasonCode}
    (valid : ∀ code ∈ codes, QosType.isValid code = true) (few : codes.length ≤ 268435452) :
    (⟨v, some id, codes⟩ : SubAck).message.WellFormed v order := by
  have checked : Reads (SubAck.checkCodes (.new v .SUBACK) codes) [] () := by
    clear few
    induction codes with
    | nil => exact reads_pure ()
    | cons code codes ih =>
        have fine : ReasonCode.isValidForType code .SUBACK = true ∧
            QosType.isValidFull code = true := by
          have granted : code = QoS0 ∨ code = QoS1 ∨ code = QoS2 := by
            simpa [QosType.isValid, or_assoc] using valid code List.mem_cons_self
          rcases granted with rfl | rfl | rfl <;> decide
        have later := ih fun other member => valid other (List.mem_cons_of_mem code member)
        exact Reads.check (fun refused => by simp [Header.new, fine.1] at refused)
          (Reads.check (by simp [fine.2]) later)
  have size := Header.blockSize_new_le v .SUBACK
  have rereads := @SubAck.rereads_codes (.new v .SUBACK) order rfl id .empty codes
    (Property.exact_empty _) (fun _ => rfl) checked (by
      change 2 + codes.length + (Header.new v .SUBACK).blockSize ≤ _
      omega)
  exact Message.Restored.wellFormed
    (@Message.Rereads.restored v order .SUBACK 0 _ _ rfl (by decide) (by decide) rereads)

/-- An UNSUBACK is well formed only without return codes. -/
theorem UnSubAck.wellFormed_iff (id : IDType) (codes : List ReasonCode) :
    (⟨v, some id, codes⟩ : UnSubAck).message.WellFormed v order ↔ codes = [] := by
  have size := Header.blockSize_new_le v .UNSUBACK
  have rereads := @UnSubAck.rereads_block (.new v .UNSUBACK) order rfl id .empty
    (Property.exact_empty _) (fun _ => rfl) (by
      change 2 + (Header.new v .UNSUBACK).blockSize ≤ _
      omega)
  have restored := @Message.Rereads.restored v order .UNSUBACK 0 _ _ rfl (by decide) (by decide)
    rereads
  constructor
  · rintro ⟨buf, encoded, again, n, decoded, _, same⟩
    -- the codes are not written, so they are read as those of a packet without any
    rcases restored.wellFormed with ⟨bare, bareEncoded, other, k, bareDecoded, _, bareSame⟩
    have written : (⟨v, some id, codes⟩ : UnSubAck).message.encode order = .ok bare := bareEncoded
    rw [written, Except.ok.injEq] at encoded
    rw [← encoded, bareDecoded, Except.ok.injEq, Prod.mk.injEq] at decoded
    rw [← decoded.1, bareSame] at same
    exact same.symm
  · rintro rfl
    exact restored.wellFormed

/-- The identifier of an UNSUBACK of V5.0, in front of its properties. -/
def UnSubAck.front : Reader PacketError IDType := do
  let id ← packetIDField
  let _ ← block true .UNSUBACK
  pure id

/-- What an UNSUBACK of V5.0 carries on the wire: behind the fixed header its identifier, its
properties, and one byte for each code up to the end of the packet. -/
def UnSubAck.wireCodes : Bytes → Option (IDType × List ReasonCode)
  | [] => none
  | first :: rest =>
      if PacketType.ofFirstByte first ≠ .UNSUBACK then none
      else
        let (remLen, m) := uvarint rest
        let body := (rest.drop m.toNat).take remLen.toNat
        match front.run body with
        | .ok (id, n) => some (id, body.drop n)
        | .error _ => none

theorem UnSubAck.wireCodes_bytes (f : Frame) (type : f.mType = .UNSUBACK) {id : IDType} {n : ℕ}
    (run : front.run f.body = .ok (id, n)) : wireCodes f.bytes = some (id, f.body.drop n) := by
  have announced : PacketType.ofFirstByte f.first = .UNSUBACK := type
  have body : ((f.lengthField ++ f.body).drop (uvarint f.lengthField).2.toNat).take
      (uvarint f.lengthField).1.toNat = f.body := by
    rw [f.ends, f.announces, Int.toNat_natCast, List.drop_left, List.take_length]
  simp only [Frame.bytes, wireCodes, announced, ne_eq, not_true, if_false, f.uvarint_field, body,
    run]

/-- No code goes on the wire. -/
theorem UnSubAck.wireCodes_encode (id : IDType) (codes : List ReasonCode) :
    ∃ buf, (⟨ProtocolV50, some id, codes⟩ : UnSubAck).message.encode order = .ok buf ∧
      UnSubAck.wireCodes buf = some (id, []) := by
  let h : Header := { Header.new ProtocolV50 .UNSUBACK with packetID := some id }
  have exact : h.properties.Exact .UNSUBACK := Property.exact_empty _
  have emits : Emits Fresh (Message.encodeMessage order (.control h (.unSubAck codes)))
      (putUint16 id ++ h.blockBytes order) :=
    (emits_copy _).seq inherited_fresh (Header.emits_encodeBlock order exact)
  have length : (putUint16 id ++ h.blockBytes order).length =
      (Message.control h (.unSubAck codes)).size := by
    rw [List.length_append, length_putUint16, Header.length_blockBytes order exact]
    rfl
  have size : h.blockSize ≤ 1 := Header.blockSize_new_le ProtocolV50 .UNSUBACK
  have short : (putUint16 id ++ h.blockBytes order).length ≤ 268435455 := by
    rw [List.length_append, length_putUint16, Header.length_blockBytes order exact]
    omega
  rcases Property.reads_exact exact order with ⟨done, block, _⟩
  have front : Reads UnSubAck.front (putUint16 id ++ h.blockBytes order) id :=
    (reads_packetIDField id).bind (block.finish (reads_pure id))
  have type : PacketType.ofFirstByte ((PacketType.UNSUBACK.code <<< 4) ||| 0) = .UNSUBACK := by
    decide
  have carried := UnSubAck.wireCodes_bytes
    (.of ((PacketType.UNSUBACK.code <<< 4) ||| 0) (putUint16 id ++ h.blockBytes order) short) type
    front.run
  refine ⟨_, Message.encode_eq_frame emits length short, carried.trans ?_⟩
  exact congrArg (fun rest => some (id, rest)) List.drop_length

end Answers

end VolantMQ.Packet
