import Mathlib.Algebra.Order.BigOperators.Group.List
import VolantMQ.Packet.Exact
import VolantMQ.Packet.Frame

/-!
# Packets that are read back as they are

A packet that was decoded can be encoded again, and what is written is read back as the same
packet. This file has the packets other than CONNECT and PUBLISH. The bytes need not be the ones
that were decoded: a short packet identifier is filled up, a reason code that says nothing is left
out, and so are bytes that the decoder ignored.
-/

namespace VolantMQ.Packet

open Lib

namespace Message

/-- Two packets that differ at most in the order in which their properties are held. -/
def Same : Message → Message → Prop
  | publish msg, publish other =>
      msg.version = other.version ∧ msg.mFlags = other.mFlags ∧ msg.packetID = other.packetID ∧
        msg.topic = other.topic ∧ msg.payload = other.payload ∧
        msg.properties.Same other.properties
  | control h body, control k other =>
      h.version = k.version ∧ h.mType = k.mType ∧ h.mFlags = k.mFlags ∧
        h.packetID = k.packetID ∧ body = other ∧ h.properties.Same k.properties
  | _, _ => False

/-- The packet is encoded, and what was written is decoded to the same packet, to its last byte. -/
def Restored (v : ProtocolVersion) (order : MapOrder PropertyEntry) (m : Message) : Prop :=
  ∃ buf, m.encode order = .ok buf ∧
    ∃ again, decode v buf = .ok (again, buf.length) ∧ m.Same again

/-- The packet has the given type and flags, and is written as bytes that a message decoder for that
many bytes reads as the same packet. -/
def Rereads (t : PacketType) (flags : UInt8) (reader : ℕ → MessageReader)
    (order : MapOrder PropertyEntry) (m : Message) : Prop :=
  m.mType = t ∧ m.mFlags = flags ∧ ∃ bytes again,
    Emits Fresh (m.encodeMessage order) bytes ∧ bytes.length = m.size ∧
    bytes.length ≤ 268435455 ∧ (reader bytes.length).run bytes = .ok (again, bytes.length) ∧
    m.Same again

end Message

theorem firstByte_fields (t : PacketType) {flags : UInt8} (small : flags.toNat < 16) :
    PacketType.ofFirstByte ((t.code <<< 4) ||| flags) = t ∧
      ((t.code <<< 4) ||| flags) &&& 0x0F = flags := by
  apply @forall_nibble (fun flags => PacketType.ofFirstByte ((t.code <<< 4) ||| flags) = t ∧
    ((t.code <<< 4) ||| flags) &&& 0x0F = flags) _ flags small
  cases t <;> decide

/-- `Decode` gives the body of an encoded packet to the message decoder for its type. -/
theorem Message.decode_frame {v : ProtocolVersion} {m made : Message}
    (created : newMessage v m.mType = .ok made) (small : m.mFlags.toNat < 16)
    (accepted : flagsRejected m.mType m.mFlags = false) {bytes : Bytes}
    (short : bytes.length ≤ 268435455) :
    decode v (Frame.of m.firstByte bytes short).bytes = (Frame.of m.firstByte bytes short).settle
      ((decodeMessage v m.mType m.mFlags bytes.length).run bytes) := by
  have fields := firstByte_fields m.mType small
  have type : (Frame.of m.firstByte bytes short).mType = m.mType := fields.1
  have flagBits : (Frame.of m.firstByte bytes short).mFlags = m.mFlags := fields.2
  rw [Frame.decode_bytes]
  simp only [Frame.reader, type, flagBits, created, accepted, Bool.false_eq_true, if_false]
  rfl

/-- What the message decoder reads back, `Decode` restores. -/
theorem Message.Rereads.restored {v : ProtocolVersion} {order : MapOrder PropertyEntry}
    {t : PacketType} {flags : UInt8} {m made : Message} (created : newMessage v t = .ok made)
    (small : flags.toNat < 16) (accepted : flagsRejected t flags = false)
    (rereads : m.Rereads t flags (fun remLen => decodeMessage v t flags remLen) order) :
    m.Restored v order := by
  rcases rereads with ⟨rfl, rfl, bytes, again, emits, length, short, run, same⟩
  refine ⟨_, encode_eq_frame emits length short, again, ?_, same⟩
  rw [decode_frame created small accepted, run, Frame.length_bytes]
  rfl

theorem Property.exact_of_optional {present : Prop} [Decidable present] {t : PacketType}
    {src : Bytes} {p : Property} {n : ℕ} (tidy : present → Tidy src) (short : src.length < 2 ^ 29)
    (run : (Reader.optional present (block true t) .empty).run src = .ok (p, n)) :
    p.Exact t ∧ (¬present → p = .empty) ∧ n = if present then p.fullLen.toNat else 0 := by
  by_cases there : present
  · rw [Reader.optional_of_present there] at run
    rcases exact_of_decode (tidy there) short run with ⟨exact, length⟩
    exact ⟨exact, fun absent => absurd there absent, by rw [if_pos there, length]⟩
  · rw [Reader.optional_of_absent there] at run
    simp only [Reader.run_pure, Except.ok.injEq, Prod.mk.injEq] at run
    rcases run with ⟨rfl, rfl⟩
    exact ⟨exact_empty t, fun _ => rfl, by rw [if_neg there]⟩

/-- A value that the decoder stores takes at least one byte. -/
theorem Canonical.positive {id : PropertyID} {val : PropertyValue}
    (canonical : Canonical (propertyTypeMap id) val) : 0 < propertyCalcLen id val := by
  have some : itemPayloads (propertyTypeMap id) val ≠ [] := by
    generalize propertyTypeMap id = type at canonical
    cases canonical with
    | pairs nonempty valid fits => simpa [itemPayloads, PropertyValue.pairItems] using nonempty
    | _ => simp [itemPayloads, PropertyValue.byteItems, PropertyValue.shortItems,
        PropertyValue.intItems, PropertyValue.stringItems, PropertyValue.binaryItems]
  have items := Property.length_le_blockBytes (wireItems [⟨id, val⟩])
  have count : (wireItems [⟨id, val⟩]).length = (itemPayloads (propertyTypeMap id) val).length := by
    simp [wireItems]
  have written := @propertyCalcLen_eq_length ⟨id, val⟩ canonical.wellShaped.countable
  have nonempty := List.length_pos_iff.mpr some
  simp only at written
  omega

/-- A block that takes a single byte is empty. -/
theorem Property.Exact.same_empty {t : PacketType} {p : Property} (exact : p.Exact t)
    (single : ¬1 < p.fullLen) : p.Same .empty := by
  have full := toNat_fullLen exact.encodable
  have positive := uvarintCalc_pos p.len
  have nothing : weight p.properties.entries = 0 := by
    rw [← exact.counted]
    rw [UInt32.lt_iff_toNat_lt, UInt32.toNat_one] at single
    omega
  intro id
  cases found : p.get id with
  | none => rfl
  | some val =>
      have member : (⟨id, val⟩ : PropertyEntry) ∈ p.properties.entries := AList.mem_lookup_iff.mp found
      have item : propertyCalcLen id val ≤ weight p.properties.entries :=
        List.single_le_sum (fun _ _ => Nat.zero_le _) _ (List.mem_map_of_mem member)
      have some := (exact.canonical id val found).positive
      omega

theorem inherited_fresh : ∀ dest count, Fresh dest → Fresh (dest.drop count) :=
  fun _ count isFresh => isFresh.drop count

namespace Header

variable {h : Header} {t : PacketType} (order : MapOrder PropertyEntry)

/-- The properties of a header on the wire. -/
def blockBytes (h : Header) : Bytes :=
  if h.version = ProtocolV50 then h.properties.bytes order else []

theorem emits_encodeBlock (exact : h.properties.Exact t) :
    Emits Fresh (h.encodeBlock order) (h.blockBytes order) := by
  unfold encodeBlock blockBytes
  split
  · exact Property.emits_encode order exact.encodable
  · exact emits_skip

theorem length_blockBytes (exact : h.properties.Exact t) :
    (h.blockBytes order).length = h.blockSize := by
  unfold blockBytes blockSize
  split
  · exact Property.length_bytes order exact.encodable
  · rfl

/-- A reason code with its properties on the wire. -/
def reasonBytes (h : Header) (reasonCode : ReasonCode) : Bytes :=
  if h.version = ProtocolV50 then
    if 1 < h.properties.fullLen ∨ reasonCode ≠ CodeSuccess then
      reasonCode :: if 1 < h.properties.fullLen then h.properties.bytes order else []
    else []
  else []

theorem emits_encodeReason (encodable : h.properties.Encodable) (reasonCode : ReasonCode) :
    Emits Fresh (h.encodeReason order reasonCode) (h.reasonBytes order reasonCode) := by
  have block : Emits Fresh
      (if 1 < h.properties.fullLen then h.properties.encode order else (.skip : Writer PacketError))
      (if 1 < h.properties.fullLen then h.properties.bytes order else []) := by
    split
    · exact Property.emits_encode order encodable
    · exact emits_skip
  unfold encodeReason reasonBytes
  split
  · split
    · exact (emits_put [reasonCode]).seq inherited_fresh block
    · exact emits_skip
  · exact emits_skip

theorem length_reasonBytes (encodable : h.properties.Encodable) (reasonCode : ReasonCode) :
    (h.reasonBytes order reasonCode).length = h.reasonSize reasonCode := by
  have length := Property.length_bytes order encodable
  unfold reasonBytes reasonSize
  split
  · split
    · rw [List.length_cons, Nat.add_comm]
      congr 1
      split
      · exact length
      · rfl
    · rfl
  · rfl

theorem reasonSize_le (h : Header) (reasonCode : ReasonCode) :
    h.reasonSize reasonCode ≤ 1 + h.properties.fullLen.toNat := by
  unfold reasonSize
  split
  · split
    · split <;> omega
    · omega
  · omega

theorem reads_block (exact : h.properties.Exact t)
    (absent : h.version ≠ ProtocolV50 → h.properties = .empty) :
    ∃ done, Reads (Reader.optional (h.version = ProtocolV50) (block true t) .empty)
      (h.blockBytes order) done ∧ h.properties.Same done := by
  by_cases five : h.version = ProtocolV50
  · rcases Property.reads_exact exact order with ⟨done, reads, -, same⟩
    refine ⟨done, ?_, same⟩
    rw [Reader.optional_of_present five, blockBytes, if_pos five]
    exact reads
  · refine ⟨.empty, ?_, by rw [absent five]; exact fun _ => rfl⟩
    rw [Reader.optional_of_absent five, blockBytes, if_neg five]
    exact reads_pure _

end Header

section Types

variable {h : Header} {body : Bytes} {m : Message} {n : ℕ} (order : MapOrder PropertyEntry)

theorem ConnAck.rereads (blank : h.properties = .empty) (short : body.length ≤ 268435455)
    (tidy : h.version = ProtocolV50 → Property.Tidy (body.drop 2))
    (run : (ConnAck.decodeMessage h).run body = .ok (m, n)) :
    m.Rereads h.mType h.mFlags (fun _ => ConnAck.decodeMessage h) order := by
  have bound := (ConnAck.decodeMessage h).bounded run
  simp only [ConnAck.decodeMessage, reject, rejectFor, blank, Reader.run_bind_eq_ok,
    Reader.run_check_eq_ok, Reader.run_byte_eq_ok, Reader.run_pure, Except.ok.injEq,
    Prod.mk.injEq] at run
  rcases run with ⟨flags, _, _, ⟨-, rfl⟩, ⟨reserved, code, _, _, ⟨-, rfl⟩, ⟨valid, p, k, _, props,
    ⟨rfl, rfl⟩, rfl⟩, rfl⟩, rfl⟩
  rw [List.drop_drop] at props
  rcases Property.exact_of_optional tidy (by rw [List.length_drop]; omega) props with
    ⟨exact, absent, length⟩
  have hp : ({ h with properties := p } : Header).properties.Exact h.mType := exact
  rcases Header.reads_block order hp absent with ⟨done, reads, same⟩
  refine ⟨rfl, rfl, [if flags &&& 0x01 != 0 then 1 else 0] ++ ([code] ++
      ({ h with properties := p } : Header).blockBytes order),
    .control { h with properties := done } (.connAck (flags &&& 0x01 != 0) code), ?_, ?_, ?_, ?_, ?_⟩
  · exact (emits_put _).seq inherited_fresh ((emits_put _).seq inherited_fresh
      (Header.emits_encodeBlock order hp))
  · simp only [Message.size, Body.size, List.length_append, List.length_singleton,
      Header.length_blockBytes order hp]
    omega
  · simp only [List.length_append, List.length_singleton, Header.length_blockBytes order hp,
      Header.blockSize]
    omega
  · generalize present : (flags &&& 0x01 != 0) = sessionPresent
    refine ((reads_byte _).bind (Reads.check ?_ ((reads_byte _).bind (Reads.check valid ?_)))).run
    · cases sessionPresent <;> decide
    · rw [blank]
      refine reads.finish ?_
      cases sessionPresent <;> exact reads_pure _
  · exact ⟨rfl, rfl, rfl, rfl, rfl, same⟩

/-- An acknowledgement of V5.0 that ends with its packet identifier. -/
theorem Ack.run_bare (five : h.version = ProtocolV50) (bare : body.length ≤ 2) :
    (Ack.decodeMessage h).run body = .ok (.control
      { h with packetID := some (Publish.decodePacketID body).1 } (.ack CodeSuccess),
      body.length) := by
  rcases body with _ | ⟨high, _ | ⟨low, _ | ⟨code, rest⟩⟩⟩
  · simp [Ack.decodeMessage, Reader.run_bind, packetIDField, Publish.decodePacketID, five,
      Except.map]
  · simp [Ack.decodeMessage, Reader.run_bind, packetIDField, Publish.decodePacketID, five,
      Except.map]
  · simp [Ack.decodeMessage, Reader.run_bind, packetIDField, Publish.decodePacketID, five,
      Except.map]
  · simp only [List.length_cons] at bare
    omega

/-- An acknowledgement without a reason code, as it is written in all versions. -/
theorem Ack.run_putUint16 (id : IDType) :
    (Ack.decodeMessage h).run (putUint16 id) =
      .ok (.control { h with packetID := some id } (.ack CodeSuccess), 2) := by
  by_cases five : h.version = ProtocolV50
  · rw [Ack.run_bare five (by rw [length_putUint16])]
    simp [putUint16, Publish.decodePacketID, uint16_putUint16]
  · have read := (reads_packetIDField id).run
    simp only [Ack.decodeMessage, five, if_false, Reader.run_bind, read]
    rfl

/-- What is known of an acknowledgement of V5.0 once it is decoded. -/
theorem Ack.decoded (five : h.version = ProtocolV50) (blank : h.properties = .empty)
    (short : body.length ≤ 268435455)
    (tidy : 3 < body.length → Property.Tidy (body.drop 3))
    (run : (Ack.decodeMessage h).run body = .ok (m, n)) :
    ∃ id p code, m = .control { h with packetID := some id, properties := p } (.ack code) ∧
      p.Exact h.mType ∧ 3 + p.fullLen.toNat ≤ 268435455 ∧
      (1 < p.fullLen ∨ code ≠ CodeSuccess → ReasonCode.isValidForType code h.mType = true) := by
  have small : 3 + Property.empty.fullLen.toNat ≤ 268435455 := by decide
  have bare : ¬1 < Property.empty.fullLen := by decide
  have noReason : ∀ id, m = .control { h with packetID := some id } (.ack CodeSuccess) →
      ∃ id p code, m = .control { h with packetID := some id, properties := p } (.ack code) ∧
        p.Exact h.mType ∧ 3 + p.fullLen.toNat ≤ 268435455 ∧
        (1 < p.fullLen ∨ code ≠ CodeSuccess → ReasonCode.isValidForType code h.mType = true) := by
    rintro id rfl
    refine ⟨id, .empty, CodeSuccess, by rw [← blank], Property.exact_empty _, small, ?_⟩
    rintro (full | other)
    · exact absurd full bare
    · exact absurd rfl other
  rcases body with _ | ⟨high, _ | ⟨low, _ | ⟨code, rest⟩⟩⟩
  · rw [Ack.run_bare five (by simp), Except.ok.injEq, Prod.mk.injEq] at run
    exact noReason _ run.1.symm
  · rw [Ack.run_bare five (by simp), Except.ok.injEq, Prod.mk.injEq] at run
    exact noReason _ run.1.symm
  · rw [Ack.run_bare five (by simp), Except.ok.injEq, Prod.mk.injEq] at run
    exact noReason _ run.1.symm
  · rw [Ack.run_reason five] at run
    split at run
    · simp at run
    · rename_i valid
      rw [Bool.not_eq_true, Bool.not_eq_false'] at valid
      split at run
      · simp only [Except.ok.injEq, Prod.mk.injEq] at run
        refine ⟨uint16 high low, .empty, code, ?_, Property.exact_empty _, small, fun _ => valid⟩
        rw [← run.1, ← blank]
      · rename_i more
        rcases map_eq_ok.mp run with ⟨⟨p, k⟩, props, same⟩
        simp only [Prod.mk.injEq] at same
        have bound := (block true h.mType).bounded props
        have nonempty := List.length_pos_iff.mpr more
        simp only [List.length_cons] at short tidy
        rcases Property.exact_of_decode (tidy (by omega))
            (by simp only [List.length_drop, List.length_cons]; omega) props with
          ⟨exact, length⟩
        exact ⟨uint16 high low, p, code, same.1.symm, exact, by omega, fun _ => valid⟩

/-- An acknowledgement of V5.0 with a reason code, as it is written. -/
theorem Ack.run_written (five : h.version = ProtocolV50) (id : IDType) {code : ReasonCode}
    (valid : ReasonCode.isValidForType code h.mType = true) (rest : Bytes) :
    (Ack.decodeMessage h).run (putUint16 id ++ ([code] ++ rest)) =
      if rest = [] then .ok (.control { h with packetID := some id } (.ack code), 3)
      else ((block true h.mType).run rest).map fun (properties, n) =>
        (.control { h with packetID := some id, properties } (.ack code), 3 + n) := by
  have read := uint16_putUint16 id
  simp only [putUint16, List.cons_append, List.nil_append] at read ⊢
  rw [Ack.run_reason five, read, valid]
  rfl

/-- What is written for an acknowledgement, given what the decoder makes of it. -/
theorem Ack.rereads_written {id : IDType} {p : Property} {code : ReasonCode}
    (encodable : p.Encodable) {again : Message}
    (short : 2 + ({ h with properties := p } : Header).reasonSize code ≤ 268435455)
    (run : (Ack.decodeMessage h).run
        (putUint16 id ++ ({ h with properties := p } : Header).reasonBytes order code) =
      .ok (again, 2 + (({ h with properties := p } : Header).reasonBytes order code).length))
    (same : (Message.control { h with packetID := some id, properties := p } (.ack code)).Same
      again) :
    (Message.control { h with packetID := some id, properties := p } (.ack code)).Rereads
      h.mType h.mFlags (fun _ => Ack.decodeMessage h) order := by
  have length := @Header.length_reasonBytes { h with properties := p } order encodable code
  have whole : (putUint16 id ++ ({ h with properties := p } : Header).reasonBytes order code).length =
      2 + (({ h with properties := p } : Header).reasonBytes order code).length := by
    rw [List.length_append, length_putUint16]
  refine ⟨rfl, rfl, putUint16 id ++ ({ h with properties := p } : Header).reasonBytes order code,
    again, ?_, ?_, ?_, ?_, same⟩
  · exact (emits_copy _).seq inherited_fresh
      (@Header.emits_encodeReason { h with properties := p } order encodable code)
  · rw [whole, length]
    rfl
  · rw [whole, length]
    exact short
  · rw [whole]
    exact run

theorem Ack.rereads_reason (five : h.version = ProtocolV50) (blank : h.properties = .empty)
    {id : IDType} {p : Property} {code : ReasonCode} (exact : p.Exact h.mType)
    (short : 2 + ({ h with properties := p } : Header).reasonSize code ≤ 268435455)
    (valid : 1 < p.fullLen ∨ code ≠ CodeSuccess →
      ReasonCode.isValidForType code h.mType = true) :
    (Message.control { h with packetID := some id, properties := p } (.ack code)).Rereads
      h.mType h.mFlags (fun _ => Ack.decodeMessage h) order := by
  by_cases said : 1 < p.fullLen ∨ code ≠ CodeSuccess
  · by_cases full : 1 < p.fullLen
    · rcases Property.reads_exact exact order with ⟨done, reads, -, same⟩
      have length := Property.length_bytes order exact.encodable
      have nonempty : p.bytes order ≠ [] := by
        apply List.ne_nil_of_length_pos
        rw [UInt32.lt_iff_toNat_lt, UInt32.toNat_one] at full
        omega
      have bytes : ({ h with properties := p } : Header).reasonBytes order code =
          [code] ++ p.bytes order := by
        simp only [Header.reasonBytes, if_pos five, if_pos said, if_pos full]
        rfl
      refine @Ack.rereads_written h order id p code exact.encodable
        (.control { h with packetID := some id, properties := done } (.ack code)) short ?_
        ⟨rfl, rfl, rfl, rfl, rfl, same⟩
      rw [bytes, Ack.run_written five id (valid said), if_neg nonempty, reads.run]
      simp only [Except.map, List.length_append, List.length_singleton, Except.ok.injEq,
        Prod.mk.injEq, true_and]
      omega
    · have bytes : ({ h with properties := p } : Header).reasonBytes order code = [code] ++ [] := by
        simp only [Header.reasonBytes, if_pos five, if_pos said, if_neg full]
        rfl
      refine @Ack.rereads_written h order id p code exact.encodable
        (.control { h with packetID := some id } (.ack code)) short ?_
        ⟨rfl, rfl, rfl, rfl, rfl, blank ▸ exact.same_empty full⟩
      rw [bytes, Ack.run_written five id (valid said), if_pos rfl]
      rfl
  · have success : code = CodeSuccess := by
      by_contra other
      exact said (.inr other)
    have bytes : ({ h with properties := p } : Header).reasonBytes order code = [] := by
      simp only [Header.reasonBytes, if_pos five, if_neg said]
    refine @Ack.rereads_written h order id p code exact.encodable
      (.control { h with packetID := some id } (.ack code)) short ?_
      ⟨rfl, rfl, rfl, rfl, rfl, blank ▸ exact.same_empty fun full => said (.inl full)⟩
    rw [bytes, List.append_nil, Ack.run_putUint16, success]
    rfl

theorem Ack.rereads (blank : h.properties = .empty) (short : body.length ≤ 268435455)
    (tidy : h.version = ProtocolV50 → 3 < body.length → Property.Tidy (body.drop 3))
    (run : (Ack.decodeMessage h).run body = .ok (m, n)) :
    m.Rereads h.mType h.mFlags (fun _ => Ack.decodeMessage h) order := by
  by_cases five : h.version = ProtocolV50
  · rcases Ack.decoded five blank short (tidy five) run with ⟨id, p, code, rfl, exact, fits, valid⟩
    refine Ack.rereads_reason order five blank exact ?_ valid
    exact (Nat.add_le_add_left (Header.reasonSize_le _ code) 2).trans (by
      simp only
      omega)
  · simp only [Ack.decodeMessage, five, if_false, Reader.run_bind_eq_ok, Reader.run_pure,
      Except.ok.injEq, Prod.mk.injEq] at run
    rcases run with ⟨id, _, _, -, ⟨rfl, rfl⟩, -⟩
    have bytes : ({ h with properties := h.properties } : Header).reasonBytes order 0 = [] := by
      simp only [Header.reasonBytes, if_neg five]
    have size : ({ h with properties := h.properties } : Header).reasonSize 0 = 0 := by
      simp only [Header.reasonSize, if_neg five]
    refine @Ack.rereads_written h order id h.properties 0 (blank ▸ (Property.exact_empty h.mType).encodable)
      (.control { h with packetID := some id } (.ack 0)) (by rw [size]; decide) ?_
      ⟨rfl, rfl, rfl, rfl, rfl, fun _ => rfl⟩
    rw [bytes, List.append_nil, Ack.run_putUint16]
    rfl

theorem drop_of_packetIDField {id : IDType} (run : packetIDField.run body = .ok (id, n)) :
    body.drop n = body.drop 2 := by
  rcases body with _ | ⟨high, _ | ⟨low, rest⟩⟩
  · simp
  · have all := packetIDField_consumes run
    simp only [List.length_cons, List.length_nil] at all
    simp [all]
  · have two := packetIDField_consumes run
    simp only [List.length_cons] at two
    rw [two, Nat.min_eq_left (by omega)]

theorem SubAck.reads_checkCodes {codes : List ReasonCode} {result : Unit × ℕ}
    (run : (SubAck.checkCodes h codes).run body = .ok result) :
    Reads (SubAck.checkCodes h codes) [] () := by
  induction codes with
  | nil => exact reads_pure ()
  | cons code codes ih =>
      simp only [SubAck.checkCodes, reject, Reader.run_check_eq_ok] at run
      exact Reads.check run.1 (Reads.check run.2.1 (ih run.2.2))

/-- A SUBACK with properties that can be read back and codes that the decoder accepts. -/
theorem SubAck.rereads_codes (blank : h.properties = .empty) {id : IDType} {p : Property}
    {codes : List ReasonCode} (exact : p.Exact h.mType)
    (absent : h.version ≠ ProtocolV50 → p = .empty)
    (checked : Reads (SubAck.checkCodes h codes) [] ())
    (short : 2 + codes.length + ({ h with properties := p } : Header).blockSize ≤ 268435455) :
    (Message.control { h with packetID := some id, properties := p } (.subAck codes)).Rereads
      h.mType h.mFlags (fun remLen => SubAck.decodeMessage h remLen) order := by
  have hp : ({ h with packetID := some id, properties := p } : Header).properties.Exact h.mType :=
    exact
  rcases Header.reads_block order hp absent with ⟨done, reads, same⟩
  have size := Header.length_blockBytes order hp
  have blockSize : ({ h with packetID := some id, properties := p } : Header).blockSize =
      ({ h with properties := p } : Header).blockSize := rfl
  refine ⟨rfl, rfl, putUint16 id ++ (({ h with packetID := some id, properties := p } : Header).blockBytes
      order ++ codes), .control { h with packetID := some id, properties := done } (.subAck codes),
    ?_, ?_, ?_, ?_, ⟨rfl, rfl, rfl, rfl, rfl, same⟩⟩
  · have each := (Header.emits_encodeBlock order hp).thenEach inherited_fresh
      (fun q (_ : q ∈ codes) => emits_put [q])
    rw [List.flatMap_singleton'] at each
    exact (emits_copy _).seq inherited_fresh each
  · simp only [Message.size, Body.size, List.length_append, length_putUint16, size]
    omega
  · simp only [List.length_append, length_putUint16, size, blockSize]
    omega
  · have left : (((putUint16 id ++ (({ h with packetID := some id, properties := p } :
        Header).blockBytes order ++ codes)).length : ℕ) : Int) - ((putUint16 id).length +
          (({ h with packetID := some id, properties := p } : Header).blockBytes order).length : ℕ) =
        codes.length := by
      simp only [List.length_append]
      omega
    rw [← blank] at reads
    refine ((reads_packetIDField id).counted.bind (reads.counted.bind ?_)).run
    simp only [left]
    refine Reads.check (by omega) ((reads_take _ codes).finish ?_)
    exact checked.finish (reads_pure _)

theorem SubAck.rereads (blank : h.properties = .empty) (short : body.length ≤ 268435455)
    (tidy : h.version = ProtocolV50 → Property.Tidy (body.drop 2))
    (run : (SubAck.decodeMessage h body.length).run body = .ok (m, n)) :
    m.Rereads h.mType h.mFlags (fun remLen => SubAck.decodeMessage h remLen) order := by
  simp only [SubAck.decodeMessage, blank, Reader.run_bind_eq_ok, Reader.run_check_eq_ok,
    Reader.run_pure, Except.ok.injEq, Prod.mk.injEq] at run
  rcases run with ⟨⟨id, a⟩, _, _, idRun, ⟨⟨p, b⟩, _, _, props, ⟨enough, codes, c, _, taken, ⟨_, d, _,
    checked, ⟨rfl, rfl⟩, rfl⟩, rfl⟩, rfl⟩, rfl⟩
  rcases Reader.run_counted_eq_ok.mp idRun with ⟨idRun, rfl⟩
  rcases Reader.run_counted_eq_ok.mp props with ⟨props, rfl⟩
  have idEnds := packetIDField_consumes idRun
  rcases Reader.run_take_eq_ok.mp taken with ⟨there, codesEq, rfl⟩
  have count : codes.length = ((body.length : Int) - (a + b : ℕ)).toNat := by
    rw [codesEq, List.length_take, Nat.min_eq_left there]
  rw [drop_of_packetIDField idRun] at props
  rcases Property.exact_of_optional tidy (by rw [List.length_drop]; omega) props with
    ⟨exact, absent, length⟩
  have blockSize : ({ h with properties := p } : Header).blockSize = b := length.symm
  refine rereads_codes order blank exact absent (reads_checkCodes checked) ?_
  rw [blockSize]
  omega

/-- An UNSUBACK with properties that can be read back; its return codes are not written. -/
theorem UnSubAck.rereads_block (blank : h.properties = .empty) {id : IDType} {p : Property}
    (exact : p.Exact h.mType) (absent : h.version ≠ ProtocolV50 → p = .empty)
    (short : 2 + ({ h with properties := p } : Header).blockSize ≤ 268435455) :
    (Message.control { h with packetID := some id, properties := p } (.unSubAck [])).Rereads
      h.mType h.mFlags (fun remLen => UnSubAck.decodeMessage h remLen) order := by
  have hp : ({ h with packetID := some id, properties := p } : Header).properties.Exact h.mType :=
    exact
  rcases Header.reads_block order hp absent with ⟨done, reads, same⟩
  have size := Header.length_blockBytes order hp
  have blockSize : ({ h with packetID := some id, properties := p } : Header).blockSize =
      ({ h with properties := p } : Header).blockSize := rfl
  refine ⟨rfl, rfl, putUint16 id ++ ({ h with packetID := some id, properties := p } : Header).blockBytes
      order, .control { h with packetID := some id, properties := done } (.unSubAck []),
    ?_, ?_, ?_, ?_, ⟨rfl, rfl, rfl, rfl, rfl, same⟩⟩
  · exact (emits_copy _).seq inherited_fresh (Header.emits_encodeBlock order hp)
  · simp only [Message.size, Body.size, List.length_append, length_putUint16, size]
  · simp only [List.length_append, length_putUint16, size, blockSize]
    omega
  · have follows : h.version = ProtocolV50 ∧ 0 < (((putUint16 id ++ ({ h with
          packetID := some id, properties := p } : Header).blockBytes order).length : ℕ) : Int) -
        ((putUint16 id).length : ℕ) ↔ h.version = ProtocolV50 := by
      refine and_iff_left_of_imp fun five => ?_
      have full := Property.toNat_fullLen exact.encodable
      have positive := uvarintCalc_pos p.len
      simp only [List.length_append, size, Header.blockSize, if_pos five]
      omega
    rw [← blank] at reads
    refine ((reads_packetIDField id).counted.bind ?_).run
    simp only
    rw [Reader.optional_congr follows]
    exact reads.finish (reads_pure _)

theorem UnSubAck.rereads (blank : h.properties = .empty) (short : body.length ≤ 268435455)
    (tidy : h.version = ProtocolV50 → 2 < body.length → Property.Tidy (body.drop 2))
    (run : (UnSubAck.decodeMessage h body.length).run body = .ok (m, n)) :
    m.Rereads h.mType h.mFlags (fun remLen => UnSubAck.decodeMessage h remLen) order := by
  simp only [UnSubAck.decodeMessage, blank, Reader.run_bind_eq_ok, Reader.run_pure,
    Except.ok.injEq, Prod.mk.injEq] at run
  rcases run with ⟨⟨id, a⟩, _, _, idRun, ⟨p, b, _, props, ⟨rfl, rfl⟩, rfl⟩, rfl⟩
  rcases Reader.run_counted_eq_ok.mp idRun with ⟨idRun, rfl⟩
  have idEnds := packetIDField_consumes idRun
  have bound := (Reader.optional _ _ _).bounded props
  rw [List.length_drop] at bound
  rw [drop_of_packetIDField idRun] at props
  rcases Property.exact_of_optional (fun both => tidy both.1 (by omega))
    (by rw [List.length_drop]; omega) props with ⟨exact, absent, length⟩
  refine rereads_block order blank exact (fun old => absent fun both => old both.1) ?_
  simp only [Header.blockSize]
  by_cases both : h.version = ProtocolV50 ∧ 0 < (body.length : Int) - a
  · rw [if_pos both] at length
    rw [if_pos both.1]
    omega
  · have one : Property.empty.fullLen.toNat = 1 := by decide
    rw [absent both, one]
    split <;> omega

namespace Subscribe

/-- The filters of a SUBSCRIBE on the wire. -/
def filterBytes (topics : List (GoString × SubscriptionOptions)) : Bytes :=
  topics.flatMap fun (t, ops) => lpBytes t ++ [ops]

/-- A filter that the decoder accepts. -/
structure Accepted (version : ProtocolVersion) (entry : GoString × SubscriptionOptions) : Prop where
  fits : entry.1.length ≤ MaxLPString
  valid : utf8Valid entry.1 = true
  reserved : ¬(version = ProtocolV50 ∧
    entry.2 &&& SubscriptionOptions.maskSubscriptionReserved ≠ 0)
  qos : (SubscriptionOptions.qos entry.2).isValid = true

theorem length_filterBytes (topics : List (GoString × SubscriptionOptions)) :
    (filterBytes topics).length = (topics.map fun entry => 2 + entry.1.length + 1).sum := by
  induction topics with
  | nil => rfl
  | cons entry topics ih =>
      rw [filterBytes, List.flatMap_cons, ← filterBytes, List.length_append, ih, List.map_cons,
        List.sum_cons, List.length_append, length_lpBytes, List.length_singleton]

theorem decodeTopics_accepted {version : ProtocolVersion} {rounds : ℕ} {remLen : Int}
    {topics all : List (GoString × SubscriptionOptions)} {src : Bytes}
    (run : (decodeTopics version rounds remLen topics).run src = .ok (all, n)) :
    ∃ new, all = topics ++ new ∧ (∀ entry ∈ new, Accepted version entry) ∧
      (filterBytes new).length = n := by
  induction rounds generalizing remLen topics src n with
  | zero =>
      simp only [decodeTopics, Reader.run_pure, Except.ok.injEq, Prod.mk.injEq] at run
      exact ⟨[], by simp [run.1], by simp, by simp [filterBytes, ← run.2]⟩
  | succ rounds ih =>
      rcases decodeTopics_eq_ok run with ⟨-, rfl, rfl⟩ |
        ⟨t, a, ops, m, -, topicRun, valid, -, reserved, qos, rest, rfl⟩
      · exact ⟨[], by simp, by simp, by simp [filterBytes]⟩
      · have ends := readLPBytes_eq_ok topicRun
        rcases ih rest with ⟨new, rfl, accepted, length⟩
        refine ⟨(t, ops) :: new, by simp, ?_, ?_⟩
        · intro entry member
          rcases List.mem_cons.mp member with rfl | later
          · exact ⟨ends.1, valid, reserved, qos⟩
          · exact accepted entry later
        · rw [length_filterBytes] at length ⊢
          simp only [List.map_cons, List.sum_cons]
          omega

theorem reads_decodeTopics {version : ProtocolVersion} {rounds : ℕ}
    {new : List (GoString × SubscriptionOptions)}
    (accepted : ∀ entry ∈ new, Accepted version entry)
    (enough : (filterBytes new).length ≤ rounds)
    (topics : List (GoString × SubscriptionOptions)) :
    Reads (decodeTopics version rounds (filterBytes new).length topics) (filterBytes new)
      (topics ++ new) := by
  induction new generalizing rounds topics with
  | nil =>
      rw [List.append_nil]
      cases rounds <;> exact reads_pure topics
  | cons entry new ih =>
      rcases entry with ⟨t, ops⟩
      have here := accepted (t, ops) (by simp)
      have split : filterBytes ((t, ops) :: new) = lpBytes t ++ ([ops] ++ filterBytes new) := by
        simp [filterBytes]
      have length := congrArg List.length split
      simp only [List.length_append, length_lpBytes, List.length_singleton] at length
      cases rounds with
      | zero => omega
      | succ rounds =>
          have left : ((filterBytes ((t, ops) :: new)).length : Int) - (lpBytes t).length - 1 =
              (filterBytes new).length := by
            rw [length, length_lpBytes]
            omega
          have tail := ih (fun other member => accepted other (by simp [member]))
            (show (filterBytes new).length ≤ rounds by omega) (topics ++ [(t, ops)])
          rw [List.append_assoc] at tail
          simp only [decodeTopics]
          rw [if_neg (by omega), split]
          refine (reads_lpField here.fits).counted.bind (Reads.check (by simp [here.valid])
            ((reads_byte ops).bind (Reads.check here.reserved (Reads.check (by simp [here.qos]) ?_))))
          rw [← split, left]
          exact tail

theorem rereads (blank : h.properties = .empty) (short : body.length ≤ 268435455)
    (tidy : h.version = ProtocolV50 → Property.Tidy (body.drop 2))
    (run : (Subscribe.decodeMessage h body.length).run body = .ok (m, n)) :
    m.Rereads h.mType h.mFlags (fun remLen => Subscribe.decodeMessage h remLen) order := by
  have bound := (Subscribe.decodeMessage h body.length).bounded run
  simp only [Subscribe.decodeMessage, reject, blank, Reader.run_bind_eq_ok, Reader.run_check_eq_ok,
    Reader.run_pure, Except.ok.injEq, Prod.mk.injEq] at run
  rcases run with ⟨⟨id, a⟩, _, _, idRun, ⟨⟨p, b⟩, _, _, props, ⟨topics, c, _, loop,
    ⟨nonempty, rfl, rfl⟩, rfl⟩, rfl⟩, rfl⟩
  rcases Reader.run_counted_eq_ok.mp idRun with ⟨idRead, rfl⟩
  rcases Reader.run_counted_eq_ok.mp props with ⟨propsRead, rfl⟩
  have idEnds := packetIDField_consumes idRead
  rcases decodeTopics_accepted loop with ⟨new, rfl, accepted, filterLength⟩
  rw [drop_of_packetIDField idRead] at propsRead
  rcases Property.exact_of_optional tidy (by rw [List.length_drop]; omega) propsRead with
    ⟨exact, absent, length⟩
  have hp : ({ h with packetID := some id, properties := p } : Header).properties.Exact h.mType :=
    exact
  rcases Header.reads_block order hp absent with ⟨done, reads, same⟩
  have size := Header.length_blockBytes order hp
  have blockSize : ({ h with packetID := some id, properties := p } : Header).blockSize = b :=
    length.symm
  refine ⟨rfl, rfl, putUint16 id ++ (({ h with packetID := some id, properties := p } : Header).blockBytes
      order ++ filterBytes topics), .control { h with packetID := some id, properties := done }
    (.subscribe topics), ?_, ?_, ?_, ?_, ⟨rfl, rfl, rfl, rfl, rfl, same⟩⟩
  · have each := (Header.emits_encodeBlock order hp).thenEach inherited_fresh
      fun entry member => (emits_writeLPBytes (accepted entry member).fits).seq inherited_fresh
        (emits_put [entry.2])
    exact (emits_copy _).seq inherited_fresh each
  · simp only [List.length_append, length_putUint16, size, length_filterBytes]
    rw [← Nat.add_assoc]
    rfl
  · simp only [List.length_append, length_putUint16, size, blockSize]
    omega
  · have left : (((putUint16 id ++ (({ h with packetID := some id, properties := p } :
        Header).blockBytes order ++ filterBytes topics)).length : ℕ) : Int) -
          ((putUint16 id).length + (({ h with packetID := some id, properties := p } :
            Header).blockBytes order).length : ℕ) = (filterBytes topics).length := by
      simp only [List.length_append]
      omega
    rw [← blank] at reads
    refine ((reads_packetIDField id).counted.bind (reads.counted.bind ?_)).run
    simp only [left, Int.toNat_natCast]
    exact (reads_decodeTopics accepted (le_refl _) []).finish
      (Reads.check nonempty (reads_pure _))

end Subscribe

theorem ping_rereads {body : Body} (ping : body = .pingReq ∨ body = .pingResp) :
    (Message.control h body).Rereads h.mType h.mFlags (fun _ => pure (.control h body)) order := by
  refine ⟨rfl, rfl, [], .control h body, ?_, ?_, by simp, rfl, ⟨rfl, rfl, rfl, rfl, rfl, fun _ => rfl⟩⟩
  · rcases ping with rfl | rfl <;> exact emits_skip
  · rcases ping with rfl | rfl <;> rfl

end Types

end VolantMQ.Packet
