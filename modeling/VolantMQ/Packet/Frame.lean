import VolantMQ.Packet.Message

/-!
# Frames

A frame is a type byte, a remaining-length field and as many bytes as that field announces. The
message decoders are handed everything that follows the field, also when more packets follow the
frame. This file relates `Decode` on a frame with more bytes behind it to the message decoder on
the body of the frame, and says when the bytes behind the frame make no difference.
-/

namespace VolantMQ.Packet

open Lib

/-- Exactly one frame. -/
structure Frame where
  first : UInt8
  lengthField : Bytes
  body : Bytes
  ends : (uvarint lengthField).2 = lengthField.length
  present : lengthField ≠ []
  announces : (uvarint lengthField).1.toNat = body.length

namespace Frame

variable (v : ProtocolVersion) (f : Frame)

def bytes : Bytes := f.first :: (f.lengthField ++ f.body)

def mType : PacketType := .ofFirstByte f.first

def mFlags : UInt8 := f.first &&& 0x0F

/-- What `Decode` does once it has read the remaining length. -/
def reader : MessageReader :=
  match newMessage v f.mType with
  | .error e => reject e
  | .ok _ =>
      if flagsRejected f.mType f.mFlags then rejectFor v CodeMalformedPacket
      else decodeMessage v f.mType f.mFlags f.body.length

/-- The result of `Decode` from the result of the message decoder. -/
def settle : Except (Fault PacketError) (Message × ℕ) → Except PacketError (Message × ℕ)
  | .ok (msg, n) => .ok (msg, 1 + f.lengthField.length + n)
  | .error (.error e) => .error e
  | .error .panic => .error .ErrPanicDetected

theorem length_bytes : f.bytes.length = 1 + f.lengthField.length + f.body.length := by
  simp only [bytes, List.length_cons, List.length_append]
  omega

theorem uvarint_field (more : Bytes) :
    uvarint (f.lengthField ++ more) = uvarint f.lengthField := by
  apply uvarintLoop_append
  have positive := List.length_pos_iff.mpr f.present
  have ends := f.ends
  rw [uvarint] at ends
  omega

theorem announces_lt : f.body.length < 2 ^ 29 := by
  have positive := List.length_pos_iff.mpr f.present
  have bound := @uvarint_bound f.lengthField _ _ rfl (by
    change 0 < (uvarint f.lengthField).2
    rw [f.ends]
    omega)
  rw [← f.announces]
  exact bound.1

theorem header_decode_eq (more : Bytes) :
    Header.decode v f.first (f.lengthField ++ (f.body ++ more)) =
      if flagsRejected f.mType f.mFlags then Publish.rejectWith v CodeMalformedPacket
      else ((decodeMessage v f.mType f.mFlags f.body.length).run (f.body ++ more)).map
        fun (msg, n) => (msg, 1 + f.lengthField.length + n) := by
  have positive := List.length_pos_iff.mpr f.present
  have read := f.uvarint_field (f.body ++ more)
  have ends := f.ends
  have small := f.announces_lt
  have remLen : Publish.toInt32 (uvarint f.lengthField).1.toNat = f.body.length := by
    rw [f.announces, Publish.toInt32, BitVec.toInt_eq_toNat_cond, BitVec.toNat_ofNat,
      Nat.mod_eq_of_lt (by omega), if_pos (by omega)]
  have ending : ¬(f.lengthField.length : Int) ≤ 0 := by omega
  have enough : ¬(((f.body ++ more).length : Int) < f.body.length) := by
    rw [List.length_append]
    omega
  simp only [Header.decode, read, if_neg ending, remLen, ends, Int.toNat_natCast, List.drop_left,
    if_neg enough]
  rfl

/-- `Decode` on a frame is the message decoder on its body and what follows. -/
theorem decode_eq (more : Bytes) :
    decode v (f.bytes ++ more) = f.settle ((f.reader v).run (f.body ++ more)) := by
  have announced : PacketType.ofFirstByte f.first = f.mType := rfl
  rw [bytes, List.cons_append, List.append_assoc]
  simp only [decode, reader, header_decode_eq, announced]
  cases newMessage v f.mType with
  | error e => rfl
  | ok made =>
      by_cases rejected : flagsRejected f.mType f.mFlags = true
      · simp only [if_pos rejected]
        rfl
      · simp only [if_neg rejected]
        rcases (decodeMessage v f.mType f.mFlags f.body.length).run (f.body ++ more) with
          (_ | _) | _ <;> rfl

/-- `Decode` treats a frame in the same way whatever follows it, and consumes exactly the frame
when it succeeds. -/
def Disciplined : Prop :=
  ∀ more, (decode v (f.bytes ++ more)).map Prod.fst = (decode v f.bytes).map Prod.fst ∧
    ∀ msg n, decode v (f.bytes ++ more) = .ok (msg, n) → n = f.bytes.length

/-- No field that the decoder reads is cut off by the end of the frame. -/
def Inside : Prop := (f.reader v).inside f.body

/-- `Decode` accepts the frame when nothing follows it. -/
def Accepted : Prop := ∃ msg n, decode v f.bytes = .ok (msg, n)

variable {v f}

theorem settle_eq_ok {result : Except (Fault PacketError) (Message × ℕ)} {msg : Message} {n : ℕ} :
    f.settle result = .ok (msg, n) ↔
      ∃ k, result = .ok (msg, k) ∧ n = 1 + f.lengthField.length + k := by
  rcases result with (_ | _) | ⟨found, k⟩
  · simp [settle]
  · simp [settle]
  · simp only [settle, Except.ok.injEq, Prod.mk.injEq]
    constructor
    · rintro ⟨rfl, rfl⟩
      exact ⟨k, ⟨rfl, rfl⟩, rfl⟩
    · rintro ⟨_, ⟨rfl, rfl⟩, rfl⟩
      exact ⟨rfl, rfl⟩

theorem decode_bytes : decode v f.bytes = f.settle ((f.reader v).run f.body) := by
  have whole := f.decode_eq v []
  rwa [List.append_nil, List.append_nil] at whole

theorem accepted_iff : f.Accepted v ↔ ∃ msg n, (f.reader v).run f.body = .ok (msg, n) := by
  unfold Accepted
  rw [decode_bytes]
  constructor
  · rintro ⟨msg, n, run⟩
    rcases settle_eq_ok.mp run with ⟨k, found, -⟩
    exact ⟨msg, k, found⟩
  · rintro ⟨msg, n, run⟩
    exact ⟨msg, _, settle_eq_ok.mpr ⟨n, run, rfl⟩⟩

/-- Where no field is cut, only the number of bytes consumed is in question. -/
theorem disciplined_iff_of_inside (within : f.Inside v) :
    f.Disciplined v ↔ ∀ msg n, (f.reader v).run f.body = .ok (msg, n) → n = f.body.length := by
  have same : ∀ more, decode v (f.bytes ++ more) = decode v f.bytes := by
    intro more
    rw [f.decode_eq v more, decode_bytes, (f.reader v).stable within more]
  constructor
  · intro disciplined msg n run
    have whole : decode v (f.bytes ++ []) = .ok (msg, 1 + f.lengthField.length + n) := by
      rw [same, decode_bytes]
      exact settle_eq_ok.mpr ⟨n, run, rfl⟩
    have count := (disciplined []).2 msg _ whole
    rw [f.length_bytes] at count
    omega
  · intro full more
    refine ⟨by rw [same more], ?_⟩
    intro msg n run
    rw [same more, decode_bytes] at run
    rcases settle_eq_ok.mp run with ⟨k, found, rfl⟩
    rw [f.length_bytes, full msg k found]

/-- A continuation that changes what the message decoder makes of the body breaks the
discipline. -/
theorem not_disciplined_of_differs {more : Bytes} {msg : Message} {n : ℕ}
    (run : (f.reader v).run f.body = .ok (msg, n))
    (differs : ∀ k, (f.reader v).run (f.body ++ more) ≠ .ok (msg, k)) : ¬f.Disciplined v := by
  intro disciplined
  have same := (disciplined more).1
  have first : decode v f.bytes = .ok (msg, 1 + f.lengthField.length + n) := by
    rw [decode_bytes]
    exact settle_eq_ok.mpr ⟨n, run, rfl⟩
  rw [first] at same
  rcases map_eq_ok.mp same with ⟨⟨found, k⟩, second, equal⟩
  simp only at equal
  rw [f.decode_eq v more, equal] at second
  rcases settle_eq_ok.mp second with ⟨k, again, -⟩
  exact differs k again

/-- The frame of a body with the shortest length field. -/
def of (first : UInt8) (body : Bytes) (short : body.length ≤ 268435455) : Frame where
  first := first
  lengthField := putUvarint body.length
  body := body
  ends := by
    have read := uvarint_putUvarint (show body.length < 2 ^ 29 by omega) []
    rw [List.append_nil] at read
    rw [read]
  present := by
    have positive := uvarintCalc_pos (UInt32.ofNat body.length)
    rw [uvarintCalc_eq_length, UInt32.toNat_ofNat', Nat.mod_eq_of_lt (by omega)] at positive
    exact List.ne_nil_of_length_pos positive
  announces := by
    have read := uvarint_putUvarint (show body.length < 2 ^ 29 by omega) []
    rw [List.append_nil] at read
    rw [read, UInt32.toNat_ofNat', Nat.mod_eq_of_lt (by omega)]

end Frame

open PacketType in
/-- The packet types that have a body of this form. -/
def Body.types : Body → List PacketType
  | connect _ => [CONNECT]
  | connAck _ _ => [CONNACK]
  | ack _ => [PUBACK, PUBREC, PUBREL, PUBCOMP]
  | subscribe _ => [SUBSCRIBE]
  | subAck _ => [SUBACK]
  | unSubscribe _ => [UNSUBSCRIBE]
  | unSubAck _ => [UNSUBACK]
  | pingReq => [PINGREQ]
  | pingResp => [PINGRESP]
  | disconnect _ => [DISCONNECT]
  | auth _ => [AUTH]

/-- The packet types that have packets of this form. -/
def Message.types : Message → List PacketType
  | publish _ => [.PUBLISH]
  | control _ body => body.types

section Typed

variable (h : Header) (remLen : Int)

/-- The packets of the type of a header. -/
def Header.Typed (m : Message) : Prop := m.mType = h.mType

open PacketType

theorem Connect.decodePayload_gives (keepAlive : UInt16) (flags : UInt8) :
    (Connect.decodePayload h keepAlive flags).Gives fun m => h.Typed m ∧ m.types = [CONNECT] := by
  refine .bind fun clientID => .ite (Reader.gives_fail _) (.ite (Reader.gives_fail _) ?_)
  exact .bind fun _ => .bind fun _ => .bind fun _ => .bind fun _ => Reader.gives_pure ⟨rfl, rfl⟩

theorem Connect.decodeMessage_gives :
    (Connect.decodeMessage h).Gives fun m => h.Typed m ∧ m.types = [CONNECT] := by
  refine .bind fun protoName => .ite (Reader.gives_fail _) (.bind fun version => ?_)
  refine .ite (Reader.gives_fail _) (.bind fun connectFlags => ?_)
  split
  · exact Reader.gives_fail _
  · exact .bind fun keepAlive => .bind fun properties =>
      decodePayload_gives { h with version, properties } keepAlive connectFlags

theorem ConnAck.decodeMessage_gives :
    (ConnAck.decodeMessage h).Gives fun m => h.Typed m ∧ m.types = [CONNACK] := by
  refine .bind fun flags => .ite (Reader.gives_fail _) (.bind fun returnCode => ?_)
  exact .ite (Reader.gives_fail _) (.bind fun _ => Reader.gives_pure ⟨rfl, rfl⟩)

theorem Ack.decodeMessage_gives : (Ack.decodeMessage h).Gives fun m =>
    h.Typed m ∧ m.types = [PUBACK, PUBREC, PUBREL, PUBCOMP] := by
  refine .bind fun id => .ite (.bind fun done => ?_) (Reader.gives_pure ⟨rfl, rfl⟩)
  refine .ite (Reader.gives_pure ⟨rfl, rfl⟩) (.bind fun reasonCode => ?_)
  exact .ite (Reader.gives_fail _) (.bind fun _ => .bind fun _ => Reader.gives_pure ⟨rfl, rfl⟩)

theorem Subscribe.decodeMessage_gives :
    (Subscribe.decodeMessage h remLen).Gives fun m => h.Typed m ∧ m.types = [SUBSCRIBE] := by
  refine .bind fun (id, idLen) => .bind fun (properties, propLen) => .bind fun topics => ?_
  exact .ite (Reader.gives_fail _) (Reader.gives_pure ⟨rfl, rfl⟩)

theorem SubAck.decodeMessage_gives :
    (SubAck.decodeMessage h remLen).Gives fun m => h.Typed m ∧ m.types = [SUBACK] := by
  refine .bind fun (id, idLen) => .bind fun (properties, propLen) => .ite (Reader.gives_fail _) ?_
  exact .bind fun _ => .bind fun _ => Reader.gives_pure ⟨rfl, rfl⟩

theorem UnSubscribe.decodeMessage_gives :
    (UnSubscribe.decodeMessage h remLen).Gives fun m => h.Typed m ∧ m.types = [UNSUBSCRIBE] := by
  refine .bind fun (id, total) => .bind fun topics => ?_
  exact .ite (Reader.gives_fail _) (Reader.gives_pure ⟨rfl, rfl⟩)

theorem UnSubAck.decodeMessage_gives :
    (UnSubAck.decodeMessage h remLen).Gives fun m => h.Typed m ∧ m.types = [UNSUBACK] :=
  .bind fun (_, _) => .bind fun _ => Reader.gives_pure ⟨rfl, rfl⟩

theorem Disconnect.decodeMessage_gives :
    (Disconnect.decodeMessage h remLen).Gives fun m => h.Typed m ∧ m.types = [DISCONNECT] := by
  refine .ite (.ite (Reader.gives_pure ⟨rfl, rfl⟩) (.bind fun reasonCode => ?_))
    (.ite (Reader.gives_fail _) (Reader.gives_pure ⟨rfl, rfl⟩))
  refine .ite (Reader.gives_fail _) (.ite (.bind fun done => ?_) ?_)
  · exact .ite (Reader.gives_fail _) (.bind fun _ => Reader.gives_pure ⟨rfl, rfl⟩)
  · exact .bind fun _ => Reader.gives_pure ⟨rfl, rfl⟩

theorem Auth.decodeMessage_gives :
    (Auth.decodeMessage h).Gives fun m => h.Typed m ∧ m.types = [AUTH] :=
  .bind fun _ => .ite (Reader.gives_fail _) (.bind fun _ => Reader.gives_pure ⟨rfl, rfl⟩)

end Typed

/-- A message decoder makes packets of its own type. -/
theorem decodeMessage_gives (v : ProtocolVersion) (t : PacketType) (mFlags : UInt8) (remLen : Int) :
    (decodeMessage v t mFlags remLen).Gives fun m => m.mType = t ∧ t ∈ m.types := by
  have one : ∀ {reader : MessageReader} {types : List PacketType}, t ∈ types →
      reader.Gives (fun m => m.mType = t ∧ m.types = types) →
      reader.Gives fun m => m.mType = t ∧ t ∈ m.types := by
    intro reader types member gives src m n run
    have made := gives src m n run
    exact ⟨made.1, made.2 ▸ member⟩
  cases t with
  | RESERVED => exact Reader.gives_fail _
  | CONNECT => exact one (by simp) (Connect.decodeMessage_gives _)
  | CONNACK => exact one (by simp) (ConnAck.decodeMessage_gives _)
  | PUBLISH => exact Reader.Gives.map fun _ => ⟨rfl, by simp [Message.types]⟩
  | PUBACK | PUBREC | PUBREL | PUBCOMP => exact one (by simp) (Ack.decodeMessage_gives _)
  | SUBSCRIBE => exact one (by simp) (Subscribe.decodeMessage_gives _ _)
  | SUBACK => exact one (by simp) (SubAck.decodeMessage_gives _ _)
  | UNSUBSCRIBE => exact one (by simp) (UnSubscribe.decodeMessage_gives _ _)
  | UNSUBACK => exact one (by simp) (UnSubAck.decodeMessage_gives _ _)
  | PINGREQ | PINGRESP => exact Reader.gives_pure ⟨rfl, List.mem_singleton_self _⟩
  | DISCONNECT => exact one (by simp) (Disconnect.decodeMessage_gives _ _)
  | AUTH => exact one (by simp) (Auth.decodeMessage_gives _)

section Decoded

variable {v : ProtocolVersion} {first : UInt8} {rest : Bytes} {m : Message} {n : ℕ}
  {good : Message → Prop}
  (gives : ∀ remLen : Int, remLen < 2 ^ 29 →
    (decodeMessage v (.ofFirstByte first) (first &&& 0x0F) remLen).Gives good)

include gives in
theorem Header.decode_gives (decoded : Header.decode v first rest = .ok (m, n)) : good m := by
  simp only [Header.decode] at decoded
  split at decoded
  · simp [Publish.rejectWith] at decoded
  · split at decoded
    · simp at decoded
    · rename_i present
      have small : Publish.toInt32 (uvarint rest).1.toNat < 2 ^ 29 := by
        have bound : (uvarint rest).1.toNat < 2 ^ 29 :=
          (@uvarint_bound rest _ _ rfl (not_le.mp present)).1
        simp only [Publish.toInt32, BitVec.toInt_eq_toNat_cond, BitVec.toNat_ofNat]
        split <;> omega
      split at decoded
      · simp at decoded
      · generalize (uvarint rest).2.toNat = width at decoded
        rcases map_eq_ok.mp decoded with ⟨pair, run, same⟩
        simp only [Prod.mk.injEq] at same
        exact same.1 ▸ gives _ small _ _ _ run

include gives in
/-- `Decode` returns what the message decoder for the announced type makes. -/
theorem decode_gives (decoded : decode v (first :: rest) = .ok (m, n)) : good m := by
  simp only [decode] at decoded
  split at decoded
  · simp at decoded
  · split at decoded
    · rename_i result found
      rw [Except.ok.injEq] at decoded
      exact Header.decode_gives gives (decoded ▸ found)
    · simp at decoded
    · simp at decoded

/-- `Decode` returns a packet of the type that the first byte announces, with a body of this
type. -/
theorem decode_mType (decoded : decode v (first :: rest) = .ok (m, n)) :
    m.mType = .ofFirstByte first ∧ m.mType ∈ m.types := by
  have made := decode_gives (fun remLen _ => decodeMessage_gives v _ _ remLen) decoded
  exact ⟨made.1, made.1 ▸ made.2⟩

theorem Publish.readMessage_gives (msg : Publish) (remLen : Int) :
    (msg.readMessage remLen).Gives fun next => next.mFlags = msg.mFlags :=
  .ite (Reader.gives_fail _) (.ite (Reader.gives_fail _) (.bind fun _ =>
    .ite (Reader.gives_fail _) (.ite (Reader.gives_fail _) (.bind fun _ => .bind fun _ =>
      .ite (Reader.gives_fail _) (.ite (Reader.gives_fail _) (.bind fun _ =>
        Reader.gives_pure rfl))))))

/-- A PUBLISH is decoded with the flags of its first byte. -/
theorem decode_mFlags {packet : Publish}
    (decoded : decode v (first :: rest) = .ok (.publish packet, n)) :
    packet.mFlags = first &&& 0x0F := by
  have announced : PacketType.PUBLISH = .ofFirstByte first := (decode_mType decoded).1
  refine @decode_gives v first rest _ n
    (fun m => ∀ packet, m = .publish packet → packet.mFlags = first &&& 0x0F) ?_ decoded packet rfl
  intro remLen _
  rw [← announced]
  refine Reader.Gives.map_of (Publish.readMessage_gives _ remLen) ?_
  rintro next flags other ⟨⟩
  exact flags

end Decoded

/-- The first byte of the fixed header. -/
def Message.firstByte (m : Message) : UInt8 := (m.mType.code <<< 4) ||| m.mFlags

/-- A packet whose remaining length is accepted is encoded as what its message encoder leaves in
a slice of its size, behind that length. -/
theorem Message.encode_of_remaining {m : Message} (order : MapOrder PropertyEntry) {remLen : ℕ}
    (remaining : m.remainingLength = .ok remLen) :
    m.encode order = (m.encodeMessage order (List.replicate m.size 0)).map
      fun (body, _) => m.firstByte :: (putUvarint remLen ++ body) := by
  have small : (UInt32.ofNat remLen).toNat = remLen := by
    simp only [remainingLength] at remaining
    split at remaining
    · simp at remaining
    · rename_i within
      have bound : maxRemainingLength = 268435455 := rfl
      simp only [Except.ok.injEq] at remaining
      rw [UInt32.toNat_ofNat']
      omega
  have lengthField : uvarintCalc (UInt32.ofNat remLen) = (putUvarint remLen).length := by
    rw [uvarintCalc_eq_length, small]
  have sized : m.fullSize = .ok (1 + (putUvarint remLen).length + m.size) := by
    rw [fullSize, remaining, ← lengthField]
    rfl
  have roomy : ¬(List.replicate (1 + (putUvarint remLen).length + m.size)
      (0 : UInt8)).length < 1 + (putUvarint remLen).length + m.size := by simp
  rw [encode, sized]
  simp only [encodeTo, remaining, lengthField, if_neg roomy]
  have fresh := fresh_replicate (1 + (putUvarint remLen).length + m.size)
  rw [(emits_put [(m.mType.code <<< 4) ||| m.mFlags]).run_seq _ fresh (by simp; omega),
    (emits_put (putUvarint remLen)).run_seq _ (fresh.drop _) (by simp; omega)]
  simp only [List.drop_replicate, List.length_singleton]
  rw [show 1 + (putUvarint remLen).length + m.size - 1 - (putUvarint remLen).length = m.size by
    omega]
  cases m.encodeMessage order (List.replicate m.size 0) <;> rfl

/-- The parts of an encoded packet. -/
theorem Message.encode_eq_ok {m : Message} {order : MapOrder PropertyEntry} {buf : Bytes}
    (encoded : m.encode order = .ok buf) :
    ∃ remLen body count, m.remainingLength = .ok remLen ∧
      m.encodeMessage order (List.replicate m.size 0) = .ok (body, count) ∧
      buf = m.firstByte :: (putUvarint remLen ++ body) := by
  cases remaining : m.remainingLength with
  | error e => simp [encode, fullSize, remaining, Except.map] at encoded
  | ok remLen =>
      rw [encode_of_remaining order remaining] at encoded
      rcases map_eq_ok.mp encoded with ⟨⟨body, count⟩, written, same⟩
      exact ⟨remLen, body, count, rfl, written, same.symm⟩

/-- A packet whose remaining length is accepted is encoded as its body behind that length. -/
theorem Message.encode_eq {m : Message} {order : MapOrder PropertyEntry} {bytes : Bytes}
    {remLen : ℕ} (remaining : m.remainingLength = .ok remLen)
    (emits : Emits Fresh (m.encodeMessage order) bytes) (length : bytes.length = m.size) :
    m.encode order = .ok (m.firstByte :: (putUvarint remLen ++ bytes)) := by
  rw [encode_of_remaining order remaining,
    emits _ (fresh_replicate m.size) (by rw [List.length_replicate, length]), length]
  simp [Except.map]

theorem Message.remainingLength_of_short {m : Message} (short : m.size ≤ 268435455) :
    m.remainingLength = .ok m.size := by
  have exact : Publish.toInt32 m.size = m.size := by
    rw [Publish.toInt32, BitVec.toInt_eq_toNat_cond, BitVec.toNat_ofNat,
      Nat.mod_eq_of_lt (by omega), if_pos (by omega)]
  rw [remainingLength, exact, if_neg (by rw [maxRemainingLength]; omega), Int.toNat_natCast]

/-- The remaining length is the size up to the width of its field. -/
theorem Message.remainingLength_eq_ok {m : Message} {remLen : ℕ}
    (remaining : m.remainingLength = .ok remLen) :
    remLen ≤ 268435455 ∧ remLen = m.size % 2 ^ 32 := by
  have value : Publish.toInt32 m.size = _ := BitVec.toInt_eq_toNat_cond (BitVec.ofNat 32 m.size)
  have bound : maxRemainingLength = 268435455 := rfl
  rw [BitVec.toNat_ofNat] at value
  by_cases outside : maxRemainingLength < Publish.toInt32 m.size ∨ Publish.toInt32 m.size < 0
  · rw [remainingLength, if_pos outside] at remaining
    simp at remaining
  · rw [remainingLength, if_neg outside, Except.ok.injEq] at remaining
    split at value <;> omega

/-- What `Decode` makes of a packet whose length field announces no more than there is. -/
theorem decode_announced (v : ProtocolVersion) {first : UInt8} {bytes : Bytes} {remLen : ℕ}
    (short : remLen ≤ 268435455) (within : remLen ≤ bytes.length) :
    ∃ f : Frame, f.first = first ∧ f.lengthField = putUvarint remLen ∧ f.body.length = remLen ∧
      decode v (first :: (putUvarint remLen ++ bytes)) = f.settle ((f.reader v).run bytes) := by
  have taken : (bytes.take remLen).length = remLen := by
    rw [List.length_take, Nat.min_eq_left within]
  refine ⟨.of first (bytes.take remLen) (by omega), rfl, congrArg putUvarint taken, taken, ?_⟩
  have split := Frame.decode_eq v (.of first (bytes.take remLen) (by omega)) (bytes.drop remLen)
  have whole : (Frame.of first (bytes.take remLen) (by omega)).bytes ++ bytes.drop remLen =
      first :: (putUvarint remLen ++ bytes) := by
    simp only [Frame.bytes, Frame.of, taken, List.cons_append, List.append_assoc,
      List.take_append_drop]
  have rejoined : (Frame.of first (bytes.take remLen) (by omega)).body ++ bytes.drop remLen =
      bytes := List.take_append_drop remLen bytes
  rwa [whole, rejoined] at split

theorem ofFirstByte_default (t : PacketType) :
    PacketType.ofFirstByte ((t.code <<< 4) ||| t.defaultFlags) = t ∧
      ((t.code <<< 4) ||| t.defaultFlags) &&& 0x0F = t.defaultFlags := by
  cases t <;> decide

/-- A packet that is not too long is encoded into a frame. -/
theorem Message.encode_eq_frame {m : Message} {order : MapOrder PropertyEntry} {bytes : Bytes}
    (emits : Emits Fresh (m.encodeMessage order) bytes) (length : bytes.length = m.size)
    (short : bytes.length ≤ 268435455) :
    m.encode order = .ok (Frame.of m.firstByte bytes short).bytes := by
  rw [length] at short
  rw [encode_eq (remainingLength_of_short short) emits length, ← length]
  rfl

/-- Where a field that is there only sometimes ends. -/
def past (present : Prop) [Decidable present] (length : Bytes → ℕ) (body : Bytes) (offset : ℕ) : ℕ :=
  if present then offset + length (body.drop offset) else offset

theorem optional_block_consumes {present : Prop} [Decidable present] {made : Bool} {t : PacketType}
    {absent p : Property} {body : Bytes} {offset n : ℕ} (short : body.length < 2 ^ 29)
    (run : (Reader.optional present (block made t) absent).run (body.drop offset) = .ok (p, n)) :
    offset + n = past present blockLength body offset := by
  unfold past
  by_cases there : present
  · rw [Reader.optional_of_present there] at run
    rw [if_pos there, block_consumes (by rw [List.length_drop]; omega) run]
  · rw [Reader.optional_of_absent there] at run
    simp only [Reader.run_pure, Except.ok.injEq, Prod.mk.injEq] at run
    rw [if_neg there, ← run.2, Nat.add_zero]

theorem optional_lp_consumes {present : Prop} [Decidable present] {absent field body : Bytes}
    {offset n : ℕ}
    (run : (Reader.optional present lpField absent).run (body.drop offset) = .ok (field, n)) :
    offset + n = past present lpLength body offset := by
  unfold past
  by_cases there : present
  · rw [Reader.optional_of_present there] at run
    rw [if_pos there, lpField_consumes run]
  · rw [Reader.optional_of_absent there] at run
    simp only [Reader.run_pure, Except.ok.injEq, Prod.mk.injEq] at run
    rw [if_neg there, ← run.2, Nat.add_zero]

namespace Connect

/-- Where the payload of a CONNECT ends that starts at an offset. -/
def payloadEnd (flags : UInt8) (body : Bytes) (offset : ℕ) : ℕ :=
  let clientID := offset + lpLength (body.drop offset)
  let willTopic := past (willFlag flags) lpLength body clientID
  let willMessage := past (willFlag flags) lpLength body willTopic
  let username := past (usernameFlag flags) lpLength body willMessage
  past (passwordFlag flags) lpLength body username

/-- Where the fields of a CONNECT end. -/
def length (body : Bytes) : ℕ :=
  let name := lpLength body
  let version := body.getD name 0
  let flags := body.getD (name + 1) 0
  payloadEnd flags body (past (ProtocolV50 ≤ version) blockLength body (name + 4))

end Connect

section Consumes

variable {h : Header} {body : Bytes} {msg : Message} {n : ℕ}

theorem Connect.decodePayload_consumes {keepAlive : UInt16} {flags : UInt8} {offset : ℕ}
    (run : (Connect.decodePayload h keepAlive flags).run (body.drop offset) = .ok (msg, n)) :
    offset + n = Connect.payloadEnd flags body offset := by
  simp only [Connect.decodePayload, reject, Reader.run_bind_eq_ok, Reader.run_check_eq_ok,
    Reader.run_pure, Except.ok.injEq, Prod.mk.injEq] at run
  rcases run with ⟨_, _, _, clientID, ⟨-, -, _, _, _, topic, ⟨_, _, _, message, ⟨_, _, _, username,
    ⟨_, _, _, password, ⟨-, rfl⟩, rfl⟩, rfl⟩, rfl⟩, rfl⟩, rfl⟩
  simp only [List.drop_drop] at topic message username password
  have clientEnds := lpField_consumes clientID
  have topicEnds := optional_lp_consumes topic
  have messageEnds := optional_lp_consumes message
  have usernameEnds := optional_lp_consumes username
  have passwordEnds := optional_lp_consumes password
  simp only [Connect.payloadEnd]
  rw [← clientEnds, ← topicEnds, ← messageEnds, ← usernameEnds, ← passwordEnds]
  omega

theorem Connect.decodeMessage_consumes (short : body.length < 2 ^ 29)
    (run : (Connect.decodeMessage h).run body = .ok (msg, n)) : n = Connect.length body := by
  simp only [Connect.decodeMessage, reject, Reader.run_bind_eq_ok, Reader.run_check_eq_ok,
    Reader.run_byte_eq_ok] at run
  rcases run with ⟨name, a, _, nameRun, ⟨-, version, _, _, ⟨⟨_, versionAt⟩, rfl⟩, ⟨-, flags, _, _,
    ⟨⟨_, flagsAt⟩, rfl⟩, run, rfl⟩, rfl⟩, rfl⟩
  split at run
  · simp at run
  · simp only [Reader.run_bind_eq_ok] at run
    rcases run with ⟨_, k, _, keepAlive, ⟨_, p, _, props, payload, rfl⟩, rfl⟩
    have nameEnds := lpField_consumes nameRun
    have keepAliveEnds := uint16Field_consumes keepAlive
    subst nameEnds keepAliveEnds
    simp only [List.drop_drop] at flagsAt props payload
    have versionEq : body.getD (lpLength body) 0 = version := by
      rw [List.getD_eq_getElem?_getD, ← List.head?_drop, versionAt]
      rfl
    have flagsEq : body.getD (lpLength body + 1) 0 = flags := by
      rw [List.getD_eq_getElem?_getD, ← List.head?_drop, flagsAt]
      rfl
    have propsEnd := optional_block_consumes short props
    have payloadEnds := Connect.decodePayload_consumes payload
    simp only [Connect.length, versionEq, flagsEq]
    rw [show lpLength body + 4 = lpLength body + 1 + 1 + 2 from rfl, ← propsEnd, ← payloadEnds]
    omega

theorem ConnAck.decodeMessage_consumes (short : body.length < 2 ^ 29)
    (run : (ConnAck.decodeMessage h).run body = .ok (msg, n)) :
    n = past (h.version = ProtocolV50) blockLength body 2 := by
  simp only [ConnAck.decodeMessage, reject, rejectFor, Reader.run_bind_eq_ok,
    Reader.run_check_eq_ok, Reader.run_byte_eq_ok, Reader.run_pure, Except.ok.injEq,
    Prod.mk.injEq] at run
  rcases run with ⟨_, _, _, ⟨-, rfl⟩, ⟨-, _, _, _, ⟨-, rfl⟩, ⟨-, p, e, _, props, ⟨-, rfl⟩, rfl⟩,
    rfl⟩, rfl⟩
  rw [List.drop_drop] at props
  rw [← optional_block_consumes short props]
  omega

/-- What an acknowledgement of V5.0 with a reason code is read as. -/
theorem Ack.run_reason (five : h.version = ProtocolV50) (high low code : UInt8) (rest : Bytes) :
    (Ack.decodeMessage h).run (high :: low :: code :: rest) =
      if !ReasonCode.isValidForType code h.mType then
        .error (.error (.reason CodeMalformedPacket))
      else if rest = [] then
        .ok (.control { h with packetID := some (uint16 high low) } (.ack code), 3)
      else ((block true h.mType).run rest).map fun (properties, n) =>
        (.control { h with packetID := some (uint16 high low), properties } (.ack code), 3 + n) := by
  by_cases valid : ReasonCode.isValidForType code h.mType = true
  · cases rest with
    | nil =>
        simp [Ack.decodeMessage, Reader.run_bind, five, valid, Reader.optional, Except.map]
    | cons byte rest =>
        simp only [Ack.decodeMessage, Reader.run_bind, run_packetIDField_cons, five, if_true,
          List.drop_succ_cons, List.drop_zero, Reader.run_atEnd_cons, Bool.false_eq_true, if_false,
          Reader.run_byte_cons, valid, Bool.not_true, Bool.not_false, reduceCtorEq]
        rw [Reader.optional_of_present trivial]
        cases (block true h.mType).run (byte :: rest) with
        | error fault => rfl
        | ok result =>
            simp only [Except.map, Reader.run_pure, Except.ok.injEq, Prod.mk.injEq, true_and]
            omega
  · simp [Ack.decodeMessage, Reader.run_bind, five, valid, reject, Except.map]

/-- An acknowledgement of V5.0 is read to its end only if something follows the reason code. -/
theorem Ack.decodeMessage_consumes (short : body.length < 2 ^ 29)
    (within : (Ack.decodeMessage h).inside body)
    (run : (Ack.decodeMessage h).run body = .ok (msg, n)) :
    n = past (h.version = ProtocolV50) blockLength body
      (if h.version = ProtocolV50 then 3 else 2) := by
  rcases body with _ | ⟨high, _ | ⟨low, rest⟩⟩
  · exact absurd within.1 (by simp [packetIDField])
  · exact absurd within.1 (by simp [packetIDField])
  · have within := within.2 _ _ (run_packetIDField_cons high low rest)
    by_cases five : h.version = ProtocolV50
    · simp only [if_pos five] at within ⊢
      rcases rest with _ | ⟨code, rest⟩
      · exact absurd within.1 (by simp [Reader.atEnd])
      · have within := within.2 false 0 rfl
        have within := within.2 code 1 rfl
        rw [Ack.run_reason five] at run
        split at run
        · simp at run
        · rename_i valid
          simp only [if_neg valid] at within
          have more : rest ≠ [] := within.1
          rw [if_neg more] at run
          rcases map_eq_ok.mp run with ⟨result, props, same⟩
          simp only [Prod.mk.injEq] at same
          simp only [List.length_cons] at short
          rw [past, if_pos five, ← same.2, block_consumes (by omega) props]
          rfl
    · simp only [Ack.decodeMessage, Reader.run_bind, run_packetIDField_cons, five, if_false,
        Reader.run_pure, Except.map, Except.ok.injEq, Prod.mk.injEq] at run
      rw [past, if_neg five, if_neg five]
      omega

theorem UnSubAck.decodeMessage_consumes (short : body.length < 2 ^ 29)
    (enough : 2 ≤ body.length)
    (run : (UnSubAck.decodeMessage h body.length).run body = .ok (msg, n)) :
    n = past (h.version = ProtocolV50 ∧ 2 < body.length) blockLength body 2 := by
  simp only [UnSubAck.decodeMessage, Reader.run_bind_eq_ok, Reader.run_pure, Except.ok.injEq,
    Prod.mk.injEq] at run
  rcases run with ⟨⟨id, count⟩, a, b, idRun, ⟨p, c, d, props, ⟨-, rfl⟩, rfl⟩, rfl⟩
  rcases Reader.run_counted_eq_ok.mp idRun with ⟨idRun, rfl⟩
  have two := packetIDField_consumes idRun
  rw [Nat.min_eq_left enough] at two
  subst two
  have ending := optional_block_consumes short props
  simp only [past] at ending ⊢
  rw [ending]
  refine if_congr (and_congr_right fun _ => ?_) rfl rfl
  omega

theorem Disconnect.decodeMessage_consumes (short : body.length < 2 ^ 29)
    (run : (Disconnect.decodeMessage h body.length).run body = .ok (msg, n)) :
    n = past (h.version = ProtocolV50 ∧ 0 < body.length) blockLength body
      (if h.version = ProtocolV50 ∧ 0 < body.length then 1 else 0) := by
  unfold Disconnect.decodeMessage at run
  by_cases five : h.version = ProtocolV50
  · simp only [five, true_and, if_true] at run ⊢
    rcases body with _ | ⟨code, rest⟩
    · simp only [List.length_nil, Nat.cast_zero, zero_lt_one, if_true, Reader.run_pure,
        Except.ok.injEq, Prod.mk.injEq] at run
      simp [past, run.2]
    · have long : ¬((code :: rest).length : Int) < 1 := by
        simp only [List.length_cons]
        omega
      simp only [if_neg long, reject, Reader.run_bind_eq_ok, Reader.run_check_eq_ok,
        Reader.run_byte_cons, Except.ok.injEq, Prod.mk.injEq] at run
      rcases run with ⟨_, _, b, ⟨rfl, rfl⟩, ⟨-, run⟩, rfl⟩
      rw [List.drop_succ_cons, List.drop_zero] at run
      split at run
      · rename_i alone
        have none : rest = [] := by
          rw [← List.length_eq_zero_iff]
          simp only [List.length_cons] at alone
          omega
        simp [none, Reader.run_bind, Except.map] at run
      · simp only [Reader.run_bind_eq_ok, Reader.run_pure, Except.ok.injEq, Prod.mk.injEq] at run
        rcases run with ⟨p, c, d, props, ⟨-, rfl⟩, rfl⟩
        simp only [List.length_cons] at short
        simp only [past, List.length_cons, Nat.zero_lt_succ, if_true, List.drop_succ_cons,
          List.drop_zero]
        rw [block_consumes (by omega) props]
  · simp only [five, false_and, past, if_false, reject, Reader.run_check_eq_ok,
      Reader.run_pure, Except.ok.injEq, Prod.mk.injEq] at run ⊢
    exact run.2.2.symm

theorem Auth.decodeMessage_consumes (short : body.length < 2 ^ 29)
    (run : (Auth.decodeMessage h).run body = .ok (msg, n)) : n = blockLength body := by
  simp only [Auth.decodeMessage, reject, Reader.run_bind_eq_ok, Reader.run_check_eq_ok,
    Reader.run_pure, Except.ok.injEq, Prod.mk.injEq] at run
  rcases run with ⟨code, a, b, peeked, ⟨-, p, c, d, props, ⟨-, rfl⟩, rfl⟩, rfl⟩
  rcases body with _ | ⟨first, rest⟩
  · simp [Reader.peek] at peeked
  · simp only [Reader.run_peek_cons, Except.ok.injEq, Prod.mk.injEq] at peeked
    rcases peeked with ⟨rfl, rfl⟩
    rw [List.drop_zero] at props
    have ending := block_consumes (by omega) props
    omega

/-- The payload of a PUBLISH reaches to the end of the frame. -/
theorem Publish.readMessage_consumes {packet next : Publish}
    (run : (packet.readMessage body.length).run body = .ok (next, n)) : n = body.length := by
  simp only [Publish.readMessage, reject, rejectFor, Reader.run_check_eq_ok,
    Reader.run_bind_eq_ok] at run
  rcases run with ⟨-, -, ⟨topic, a⟩, _, _, topicRun, ⟨-, -, ⟨id, b⟩, _, _, idRun, ⟨⟨p, c⟩, _, _,
    props, run, rfl⟩, rfl⟩, rfl⟩
  rcases Reader.run_counted_eq_ok.mp topicRun with ⟨-, rfl⟩
  rcases Reader.run_counted_eq_ok.mp idRun with ⟨-, rfl⟩
  rcases Reader.run_counted_eq_ok.mp props with ⟨-, rfl⟩
  rcases run with ⟨-, enough, payload, d, e, taken, done, rfl⟩
  have count := (Reader.run_take_eq_ok.mp taken).2.2
  simp only [Reader.run_pure, Except.ok.injEq, Prod.mk.injEq] at done
  omega

theorem SubAck.checkCodes_consumes {codes : List ReasonCode} {done : Unit}
    (run : (SubAck.checkCodes h codes).run body = .ok (done, n)) : n = 0 := by
  induction codes with
  | nil =>
      simp only [SubAck.checkCodes, Reader.run_pure, Except.ok.injEq, Prod.mk.injEq] at run
      exact run.2.symm
  | cons code codes ih =>
      simp only [SubAck.checkCodes, reject, Reader.run_check_eq_ok] at run
      exact ih run.2.2

/-- The return codes of a SUBACK reach to the end of the frame. -/
theorem SubAck.decodeMessage_consumes
    (run : (SubAck.decodeMessage h body.length).run body = .ok (msg, n)) : n = body.length := by
  simp only [SubAck.decodeMessage, Reader.run_bind_eq_ok, Reader.run_check_eq_ok] at run
  rcases run with ⟨⟨id, a⟩, _, _, idRun, ⟨⟨p, b⟩, _, _, props, ⟨enough, codes, c, _, taken, ⟨_, d, _,
    checked, done, rfl⟩, rfl⟩, rfl⟩, rfl⟩
  rcases Reader.run_counted_eq_ok.mp idRun with ⟨-, rfl⟩
  rcases Reader.run_counted_eq_ok.mp props with ⟨-, rfl⟩
  have count := (Reader.run_take_eq_ok.mp taken).2.2
  have nothing := SubAck.checkCodes_consumes checked
  simp only [Reader.run_pure, Except.ok.injEq, Prod.mk.injEq] at done
  omega

/-- What one round of the loop over the filters has read. -/
theorem Subscribe.decodeTopics_eq_ok {version : ProtocolVersion} {rounds : ℕ} {remLen : Int}
    {topics all : List (GoString × SubscriptionOptions)} {src : Bytes}
    (run : (Subscribe.decodeTopics version (rounds + 1) remLen topics).run src = .ok (all, n)) :
    (remLen ≤ 0 ∧ all = topics ∧ n = 0) ∨
      ∃ t a ops m, 0 < remLen ∧ readLPBytes src = .ok (t, a) ∧ utf8Valid t = true ∧
        (∃ rest, src.drop a = ops :: rest) ∧
        ¬(version = ProtocolV50 ∧ ops &&& SubscriptionOptions.maskSubscriptionReserved ≠ 0) ∧
        (SubscriptionOptions.qos ops).isValid = true ∧
        (Subscribe.decodeTopics version rounds (remLen - a - 1) (topics ++ [(t, ops)])).run
          ((src.drop a).drop 1) = .ok (all, m) ∧
        n = a + (1 + m) := by
  simp only [Subscribe.decodeTopics] at run
  split at run
  · rename_i none
    simp only [Reader.run_pure, Except.ok.injEq, Prod.mk.injEq] at run
    exact .inl ⟨none, run.1.symm, run.2.symm⟩
  · rename_i more
    simp only [reject, Reader.run_bind_eq_ok, Reader.run_check_eq_ok,
      Reader.run_byte_eq_ok] at run
    rcases run with ⟨⟨t, a⟩, _, _, topicRun, ⟨valid, ops, _, m, ⟨opsAt, rfl⟩,
      ⟨reserved, qos, run⟩, rfl⟩, rfl⟩
    rcases Reader.run_counted_eq_ok.mp topicRun with ⟨topicRun, rfl⟩
    exact .inr ⟨t, a, ops, m, by omega, topicRun, by simpa using valid, opsAt, reserved,
      by simpa using qos, run, rfl⟩

theorem Subscribe.decodeTopics_consumes {version : ProtocolVersion} {rounds : ℕ}
    {topics all : List (GoString × SubscriptionOptions)} {src : Bytes} (enough : src.length ≤ rounds)
    (run : (Subscribe.decodeTopics version rounds src.length topics).run src = .ok (all, n)) :
    n = src.length := by
  induction rounds generalizing src topics n with
  | zero =>
      simp only [Subscribe.decodeTopics, Reader.run_pure, Except.ok.injEq, Prod.mk.injEq] at run
      omega
  | succ rounds ih =>
      rcases Subscribe.decodeTopics_eq_ok run with ⟨none, -, rfl⟩ |
        ⟨t, a, ops, m, -, topicRun, -, ⟨rest, opsAt⟩, -, -, later, rfl⟩
      · omega
      · have opsLength := congrArg List.length opsAt
        rw [List.length_drop, List.length_cons] at opsLength
        have left : (src.length : Int) - a - 1 = ((src.drop a).drop 1).length := by
          simp only [List.length_drop]
          omega
        rw [left] at later
        have tail := ih (by simp only [List.length_drop]; omega) later
        simp only [List.length_drop] at tail
        omega

/-- The filters of a SUBSCRIBE reach to the end of the frame. -/
theorem Subscribe.decodeMessage_consumes
    (run : (Subscribe.decodeMessage h body.length).run body = .ok (msg, n)) :
    n = body.length := by
  simp only [Subscribe.decodeMessage, reject, Reader.run_bind_eq_ok, Reader.run_check_eq_ok,
    Reader.run_pure, Except.ok.injEq, Prod.mk.injEq] at run
  rcases run with ⟨⟨id, a⟩, _, _, idRun, ⟨⟨p, b⟩, _, _, props, ⟨topics, c, _, loop, ⟨-, -, rfl⟩, rfl⟩,
    rfl⟩, rfl⟩
  rcases Reader.run_counted_eq_ok.mp idRun with ⟨idRun, rfl⟩
  rcases Reader.run_counted_eq_ok.mp props with ⟨propsRun, rfl⟩
  have idEnds := packetIDField.bounded idRun
  have propsEnd := (Reader.optional _ _ _).bounded propsRun
  rw [List.length_drop] at propsEnd
  have left : (body.length : Int) - (a + b : ℕ) = ((body.drop a).drop b).length := by
    simp only [List.length_drop]
    omega
  simp only [left] at loop
  have tail := Subscribe.decodeTopics_consumes (by simp) loop
  simp only [List.length_drop] at tail
  omega

end Consumes

end VolantMQ.Packet
