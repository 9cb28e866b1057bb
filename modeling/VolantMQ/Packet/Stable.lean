import VolantMQ.Packet.Resend

/-!
# Decoding, encoding and decoding again

A frame without needlessly long integers and with at most one subscription identifier loses
nothing when the packet that was decoded from it is encoded and decoded again: flags, packet
identifier, version, the fields of the packet and its property map all come back, in whatever
order the properties are written.
-/

namespace VolantMQ.Packet

open Lib

section Types

variable {h : Header} {body : Bytes} {m : Message} {n : ℕ} (order : MapOrder PropertyEntry)

namespace Connect

/-- A field of the payload on the wire, if its flag is set. -/
def flagged (flag : Bool) (field : Bytes) : Bytes := if flag then lpBytes field else []

/-- The payload of a CONNECT on the wire. -/
def payloadBytes (msg : Connect) : Bytes :=
  lpBytes msg.clientID ++ (flagged (willFlag msg.connectFlags) msg.willTopic ++
    (flagged (willFlag msg.connectFlags) msg.willMessage ++
      (flagged (usernameFlag msg.connectFlags) msg.username ++
        flagged (passwordFlag msg.connectFlags) msg.password)))

/-- A field of the payload as the decoder leaves it. -/
structure Field (flag : Bool) (field : Bytes) : Prop where
  fits : field.length ≤ MaxLPString
  absent : flag = false → field = []

/-- A payload as the decoder leaves it. -/
structure Payload (msg : Connect) : Prop where
  fits : msg.clientID.length ≤ MaxLPString
  identified : ¬(msg.clientID.length == 0 && !isClean msg.connectFlags) = true
  valid : ¬(!validClientID msg.clientID) = true
  willTopic : Field (willFlag msg.connectFlags) msg.willTopic
  willMessage : Field (willFlag msg.connectFlags) msg.willMessage
  username : Field (usernameFlag msg.connectFlags) msg.username
  password : Field (passwordFlag msg.connectFlags) msg.password

theorem length_flagged (flag : Bool) (field : Bytes) :
    (flagged flag field).length = if flag then 2 + field.length else 0 := by
  unfold flagged
  split
  · exact length_lpBytes field
  · rfl

theorem field_of_read {flag : Bool} {field src : Bytes}
    (run : (Reader.optional (flag = true) lpField []).run src = .ok (field, n)) :
    Field flag field ∧ (flagged flag field).length = n := by
  rw [length_flagged]
  cases flag with
  | true =>
      rw [Reader.optional_of_present rfl] at run
      have read := readLPBytes_eq_ok run
      exact ⟨⟨read.1, by simp⟩, read.2.1.symm⟩
  | false =>
      rw [Reader.optional_of_absent (by simp)] at run
      simp only [Reader.run_pure, Except.ok.injEq, Prod.mk.injEq] at run
      rcases run with ⟨rfl, rfl⟩
      exact ⟨⟨Nat.zero_le _, fun _ => rfl⟩, rfl⟩

theorem Field.reads {flag : Bool} {field : Bytes} (known : Field flag field) :
    Reads (Reader.optional (flag = true) lpField []) (flagged flag field) field := by
  refine Reads.optional ?_ ?_
  · intro set
    rw [flagged, if_pos set]
    exact reads_lpField known.fits
  · intro clear
    rw [flagged, if_neg clear]
    exact ⟨rfl, known.absent (by simpa using clear)⟩

theorem Field.emits {flag : Bool} {field : Bytes} (known : Field flag field) :
    Emits Fresh (if flag then writeLPBytes field else .skip) (flagged flag field) := by
  unfold flagged
  split
  · exact emits_writeLPBytes known.fits
  · exact emits_skip

theorem payload_of_read {keepAlive : UInt16} {flags : UInt8}
    (run : (decodePayload h keepAlive flags).run body = .ok (m, n)) :
    ∃ msg : Connect, m = .control h (.connect msg) ∧ msg.keepAlive = keepAlive ∧
      msg.connectFlags = flags ∧ msg.Payload ∧ (payloadBytes msg).length = n := by
  simp only [decodePayload, reject, Reader.run_bind_eq_ok, Reader.run_check_eq_ok,
    Reader.run_pure, Except.ok.injEq, Prod.mk.injEq] at run
  rcases run with ⟨clientID, _, _, clientRun, ⟨identified, valid, willTopic, _, _, topicRun,
    ⟨willMessage, _, _, messageRun, ⟨username, _, _, usernameRun, ⟨password, _, _, passwordRun,
    ⟨rfl, rfl⟩, rfl⟩, rfl⟩, rfl⟩, rfl⟩, rfl⟩
  have client := readLPBytes_eq_ok clientRun
  rcases field_of_read topicRun with ⟨topicField, topicLength⟩
  rcases field_of_read messageRun with ⟨messageField, messageLength⟩
  rcases field_of_read usernameRun with ⟨usernameField, usernameLength⟩
  rcases field_of_read passwordRun with ⟨passwordField, passwordLength⟩
  refine ⟨⟨keepAlive, flags, clientID, username, password, willTopic, willMessage⟩, rfl, rfl, rfl,
    ⟨client.1, identified, valid, topicField, messageField, usernameField, passwordField⟩, ?_⟩
  simp only [payloadBytes, List.length_append, length_lpBytes]
  omega

theorem Payload.reads {msg : Connect} (payload : msg.Payload) (h : Header) :
    Reads (decodePayload h msg.keepAlive msg.connectFlags) (payloadBytes msg)
      (.control h (.connect msg)) :=
  (reads_lpField payload.fits).bind (Reads.check payload.identified (Reads.check payload.valid
    (payload.willTopic.reads.bind (payload.willMessage.reads.bind (payload.username.reads.bind
      (payload.password.reads.finish (reads_pure _)))))))

/-- A packet that was made without a property map accepts only an empty block. -/
theorem empty_of_unmade {t : PacketType} {src : Bytes} {p : Property}
    (tidy : Property.Tidy src) (run : (block false t).run src = .ok (p, n)) :
    p = .empty ∧ n = 1 := by
  change (blockWithin (src.length + 1) false t).run src = _ at run
  rcases Reader.run_bind_eq_ok.mp run with ⟨⟨pLen, lCount⟩, a, b, header, rest, rfl⟩
  change Except.ok (uvarint src, _) = _ at header
  simp only [Except.ok.injEq, Prod.mk.injEq] at header
  simp only [reject, Reader.run_check_eq_ok, blockLoop] at rest
  rcases rest with ⟨-, rest⟩
  split at rest
  · rename_i none
    simp only [Reader.run_pure, Except.ok.injEq, Prod.mk.injEq] at rest
    have minimal : (uvarint src).2 = uvarintCalc (uvarint src).1 := tidy.length
    have one : uvarintCalc 0 = 1 := by decide
    refine ⟨rest.1.symm, ?_⟩
    rw [header.1, none, one] at minimal
    simp only at minimal
    rw [← header.2, header.1, minimal, ← rest.2]
    rfl
  · simp only [Reader.run_bind_eq_ok, Reader.run_check_eq_ok] at rest
    rcases rest with ⟨_, _, _, -, ⟨-, -, -, _, _, _, -, rest, -⟩, -⟩
    simp at rest

theorem bytes_empty : Property.empty.bytes order = [0] := by
  have none : order.range [] = [] := (order.perm []).eq_nil
  change putUvarint 0 ++ Packet.blockBytes (wireItems (order.range [])) = _
  rw [none]
  rfl

theorem reads_unmade (t : PacketType) : Reads (block false t) [0] .empty := fun _ => rfl

/-- The properties of a CONNECT, which only a packet made for V5.0 has a map for. -/
theorem block_of_read {present : Prop} [Decidable present] {made : Bool} {t : PacketType}
    {src : Bytes} {p : Property} (tidy : present → Property.Tidy src)
    (short : src.length < 2 ^ 29)
    (run : (Reader.optional present (block made t) .empty).run src = .ok (p, n)) :
    p.Exact t ∧ (¬present ∨ made = false → p = .empty) ∧
      n = if present then p.fullLen.toNat else 0 := by
  cases made with
  | true =>
      rcases Property.exact_of_optional tidy short run with ⟨exact, absent, length⟩
      exact ⟨exact, fun missing => absent (by simpa using missing), length⟩
  | false =>
      by_cases there : present
      · rw [Reader.optional_of_present there] at run
        rcases empty_of_unmade (tidy there) run with ⟨rfl, rfl⟩
        exact ⟨Property.exact_empty t, fun _ => rfl, by rw [if_pos there]; rfl⟩
      · rw [Reader.optional_of_absent there] at run
        simp only [Reader.run_pure, Except.ok.injEq, Prod.mk.injEq] at run
        rcases run with ⟨rfl, rfl⟩
        exact ⟨Property.exact_empty t, fun _ => rfl, by rw [if_neg there]⟩

theorem reads_block {present : Prop} [Decidable present] {made : Bool} {t : PacketType}
    {p : Property} (exact : p.Exact t) (absent : ¬present ∨ made = false → p = .empty) :
    ∃ done, Reads (Reader.optional present (block made t) .empty)
      (if present then p.bytes order else []) done ∧ p.Same done := by
  by_cases there : present
  · rw [Reader.optional_of_present there, if_pos there]
    cases made with
    | true =>
        rcases Property.reads_exact exact order with ⟨done, reads, -, same⟩
        exact ⟨done, reads, same⟩
    | false =>
        refine ⟨.empty, ?_, by rw [absent (.inr rfl)]; exact fun _ => rfl⟩
        rw [absent (.inr rfl), bytes_empty]
        exact reads_unmade t
  · refine ⟨.empty, ?_, by rw [absent (.inl there)]; exact fun _ => rfl⟩
    rw [Reader.optional_of_absent there, if_neg there]
    exact reads_pure _

/-- A CONNECT on the wire. -/
def wireBytes (name : Bytes) (h : Header) (msg : Connect) : Bytes :=
  lpBytes name ++ ([h.version] ++ ([msg.connectFlags] ++ (putUint16 msg.keepAlive ++
    ((if ProtocolV50 ≤ h.version then h.properties.bytes order else []) ++ payloadBytes msg))))

theorem emits_encodeMessage {name : Bytes} {msg : Connect} (known : protocolName h.version = some name)
    (fits : name.length ≤ MaxLPString) (exact : h.properties.Exact .CONNECT)
    (payload : msg.Payload) :
    Emits Fresh (msg.encodeMessage order h) (wireBytes order name h msg) := by
  have block : Emits Fresh
      (if ProtocolV50 ≤ h.version then h.properties.encode order else Writer.skip)
      (if ProtocolV50 ≤ h.version then h.properties.bytes order else []) := by
    split
    · exact Property.emits_encode order exact.encodable
    · exact emits_skip
  have will : Emits Fresh (if willFlag msg.connectFlags then
        .seq (writeLPBytes msg.willTopic) (writeLPBytes msg.willMessage) else Writer.skip)
      (flagged (willFlag msg.connectFlags) msg.willTopic ++
        flagged (willFlag msg.connectFlags) msg.willMessage) := by
    unfold flagged
    split
    · exact (emits_writeLPBytes payload.willTopic.fits).seq inherited_fresh
        (emits_writeLPBytes payload.willMessage.fits)
    · exact emits_skip
  have rest := (emits_writeLPBytes payload.fits).seq inherited_fresh (will.seq inherited_fresh
    (payload.username.emits.seq inherited_fresh payload.password.emits))
  rw [List.append_assoc] at rest
  unfold encodeMessage
  rw [known]
  exact (emits_writeLPBytes fits).seq inherited_fresh ((emits_put _).seq inherited_fresh
    ((emits_put _).seq inherited_fresh ((emits_put _).seq inherited_fresh
      (block.seq inherited_fresh rest))))

theorem length_wireBytes {name : Bytes} {msg : Connect} (known : protocolName h.version = some name)
    (exact : h.properties.Exact .CONNECT) :
    (wireBytes order name h msg).length = msg.size h := by
  have block : (if ProtocolV50 ≤ h.version then h.properties.bytes order else []).length =
      if ProtocolV50 ≤ h.version then h.properties.fullLen.toNat else 0 := by
    split
    · exact Property.length_bytes order exact.encodable
    · rfl
  unfold size
  rw [known]
  simp only [wireBytes, payloadBytes, List.length_append, length_lpBytes, length_flagged, block,
    List.length_singleton, length_putUint16]
  cases willFlag msg.connectFlags
  · simp only [Bool.false_eq_true, if_false]
    omega
  · simp only [if_true]
    omega

theorem rereads (blank : h.properties = .empty) (short : body.length ≤ 268435455)
    (tidy : ProtocolV50 ≤ body.getD (lpLength body) 0 →
      Property.Tidy (body.drop (lpLength body + 4)))
    (run : (Connect.decodeMessage h).run body = .ok (m, n)) :
    m.Rereads h.mType h.mFlags (fun _ => Connect.decodeMessage h) order := by
  have bound := (Connect.decodeMessage h).bounded run
  simp only [Connect.decodeMessage, reject, Reader.run_bind_eq_ok, Reader.run_check_eq_ok,
    Reader.run_byte_eq_ok] at run
  rcases run with ⟨name, a, _, nameRun, ⟨valid, version, _, _, ⟨⟨_, versionAt⟩, rfl⟩, ⟨known, flags, _,
    _, ⟨⟨_, flagsAt⟩, rfl⟩, run, rfl⟩, rfl⟩, rfl⟩
  split at run
  · simp at run
  · rename_i accepted
    simp only [Reader.run_bind_eq_ok] at run
    rcases run with ⟨keepAlive, k, _, keepAliveRun, ⟨p, c, _, props, payload, rfl⟩, rfl⟩
    have nameRead := readLPBytes_eq_ok nameRun
    have nameEnds := lpField_consumes nameRun
    have keepAliveEnds := uint16Field_consumes keepAliveRun
    have versionEq : body.getD (lpLength body) 0 = version := by
      rw [← nameEnds, List.getD_eq_getElem?_getD, ← List.head?_drop, versionAt]
      rfl
    rcases payload_of_read payload with ⟨msg, rfl, rfl, rfl, fields, length⟩
    have slice : (((body.drop a).drop 1).drop 1).drop k = body.drop (lpLength body + 4) := by
      rw [List.drop_drop, List.drop_drop, List.drop_drop, keepAliveEnds, nameEnds]
    rw [slice, blank] at props
    rw [versionEq] at tidy
    rcases block_of_read tidy (by rw [List.length_drop]; omega) props with
      ⟨exact, absent, blockLength⟩
    rcases reads_block order exact absent with ⟨done, reads, same⟩
    have named : protocolName version = some name := by simpa using known
    have hp : ({ h with version := version, properties := p } : Header).properties.Exact .CONNECT :=
      exact
    have written : (if ProtocolV50 ≤ version then p.bytes order else []).length = c := by
      rw [blockLength]
      split
      · exact Property.length_bytes order exact.encodable
      · rfl
    refine ⟨rfl, rfl, wireBytes order name { h with version := version, properties := p } msg,
      .control { h with version := version, properties := done } (.connect msg),
      emits_encodeMessage order named nameRead.1 hp fields, length_wireBytes order named hp, ?_, ?_,
      ⟨rfl, rfl, rfl, rfl, rfl, same⟩⟩
    · simp only [wireBytes, List.length_append, length_lpBytes, List.length_singleton,
        length_putUint16, written, length]
      omega
    · rw [← blank] at reads
      refine ((reads_lpField nameRead.1).bind (Reads.check valid ((reads_byte version).bind
        (Reads.check known ((reads_byte msg.connectFlags).bind ?_))))).run
      rw [accepted]
      exact (reads_uint16Field msg.keepAlive).bind (reads.bind (fields.reads _))

end Connect

end Types

open PacketType in
/-- The packet types that are decoded to what was encoded. -/
def stableTypes : List PacketType :=
  [CONNECT, CONNACK, PUBLISH, PUBACK, PUBREC, PUBREL, PUBCOMP, SUBSCRIBE, SUBACK, UNSUBACK, PINGREQ,
    PINGRESP]

open PacketType in
/-- The bytes from the property block on, if a packet of these types has one. -/
def blockAt (v : ProtocolVersion) (t : PacketType) (mFlags : UInt8) (body : Bytes) : Option Bytes :=
  match t with
  | CONNECT =>
      if ProtocolV50 ≤ body.getD (lpLength body) 0 then some (body.drop (lpLength body + 4))
      else none
  | CONNACK | SUBSCRIBE | SUBACK => if v = ProtocolV50 then some (body.drop 2) else none
  | PUBLISH =>
      if v = ProtocolV50 then
        some (body.drop (lpLength body +
          if ({ Publish.new v with mFlags } : Publish).qos ≠ QoS0 then 2 else 0))
      else none
  | PUBACK | PUBREC | PUBREL | PUBCOMP =>
      if v = ProtocolV50 ∧ 3 < body.length then some (body.drop 3) else none
  | UNSUBACK => if v = ProtocolV50 ∧ 2 < body.length then some (body.drop 2) else none
  | _ => none

namespace Frame

/-- A frame of at most the largest remaining length, without needlessly long integers and with at
most one subscription identifier. -/
structure Tidy (v : ProtocolVersion) (f : Frame) : Prop where
  length : Minimal f.lengthField
  short : f.body.length ≤ 268435455
  block : ∀ src, blockAt v f.mType f.mFlags f.body = some src → Property.Tidy src

theorem mFlags_lt (f : Frame) : f.mFlags.toNat < 16 := by
  rw [mFlags, UInt8.toNat_and]
  exact Nat.lt_of_le_of_lt Nat.and_le_right (by decide)

/-- What the message decoder makes of a tidy body is read back. -/
theorem Tidy.rereads {v : ProtocolVersion} {f : Frame} (tidy : f.Tidy v)
    (type : f.mType ∈ stableTypes) {m : Message} {n : ℕ}
    (run : (decodeMessage v f.mType f.mFlags f.body.length).run f.body = .ok (m, n))
    (order : MapOrder PropertyEntry) :
    m.Rereads f.mType f.mFlags (fun remLen => decodeMessage v f.mType f.mFlags remLen) order := by
  have short := tidy.short
  have block := tidy.block
  have small := f.mFlags_lt
  generalize f.mType = t at type run block
  generalize f.mFlags = flags at run block small
  cases t with
  | RESERVED | UNSUBSCRIBE | DISCONNECT | AUTH => simp [stableTypes] at type
  | CONNECT =>
      refine Connect.rereads order rfl short ?_ run
      exact fun five => block _ (if_pos five)
  | CONNACK =>
      refine ConnAck.rereads order rfl short ?_ run
      exact fun five => block _ (if_pos five)
  | PUBACK | PUBREC | PUBREL | PUBCOMP =>
      refine Ack.rereads order rfl short ?_ run
      exact fun five more => block _ (if_pos ⟨five, more⟩)
  | SUBSCRIBE =>
      refine Subscribe.rereads order rfl short ?_ run
      exact fun five => block _ (if_pos five)
  | SUBACK =>
      refine SubAck.rereads order rfl short ?_ run
      exact fun five => block _ (if_pos five)
  | UNSUBACK =>
      refine UnSubAck.rereads order rfl short ?_ run
      exact fun five more => block _ (if_pos ⟨five, more⟩)
  | PINGREQ =>
      simp only [decodeMessage, Reader.run_pure, Except.ok.injEq, Prod.mk.injEq] at run
      rcases run with ⟨rfl, rfl⟩
      exact ping_rereads order (.inl rfl)
  | PINGRESP =>
      simp only [decodeMessage, Reader.run_pure, Except.ok.injEq, Prod.mk.injEq] at run
      rcases run with ⟨rfl, rfl⟩
      exact ping_rereads order (.inr rfl)
  | PUBLISH =>
      simp only [decodeMessage, Reader.run_map] at run
      rcases map_eq_ok.mp run with ⟨⟨msg, k⟩, read, same⟩
      simp only [Prod.mk.injEq] at same
      rcases same with ⟨rfl, rfl⟩
      rcases Publish.sendable_of_read small short (fun five => block _ (if_pos five)) read with
        ⟨sendable, rfl, wire⟩
      exact Publish.rereads order sendable wire

/-- A packet that was decoded from a tidy frame survives being encoded and decoded again. -/
theorem restored_of_tidy {v : ProtocolVersion} {f : Frame} (tidy : f.Tidy v)
    (type : f.mType ∈ stableTypes) {m : Message} {n : ℕ} (run : decode v f.bytes = .ok (m, n))
    (order : MapOrder PropertyEntry) : m.Restored v order := by
  rw [decode_bytes] at run
  rcases settle_eq_ok.mp run with ⟨k, read, -⟩
  unfold reader at read
  cases created : newMessage v f.mType with
  | error e => simp [created, reject] at read
  | ok made =>
      simp only [created, rejectFor, reject, Reader.run_check_eq_ok, Bool.not_eq_true] at read
      exact (tidy.rereads type read.2 order).restored created f.mFlags_lt read.1

/-- A PUBLISH of V5.0 with QoS 1, a subscription identifier and two user properties. -/
def tidyPublish : Frame :=
  .of 0x32 [0, 1, 97, 0, 7, 15, 0x0B, 200, 1, 0x26, 0, 0, 0, 1, 98, 0x26, 0, 0, 0, 1, 99, 1, 2, 3]
    (by decide)

theorem tidyPublish_tidy : tidyPublish.Tidy ProtocolV50 where
  length := by decide
  short := by decide
  block := by
    intro src found
    have start : src = [15, 0x0B, 200, 1, 0x26, 0, 0, 0, 1, 98, 0x26, 0, 0, 0, 1, 99, 1, 2, 3] :=
      (Option.some.inj found).symm
    subst start
    exact ⟨by decide, by decide, by decide⟩

theorem tidyPublish_restored :
    ∃ m n, decode ProtocolV50 tidyPublish.bytes = .ok (m, n) ∧
      ∀ order, m.Restored ProtocolV50 order := by
  have accepted : ∃ m n, decode ProtocolV50 tidyPublish.bytes = .ok (m, n) := ⟨_, _, rfl⟩
  rcases accepted with ⟨m, n, run⟩
  exact ⟨m, n, run, restored_of_tidy tidyPublish_tidy (by decide) run⟩

end Frame

end VolantMQ.Packet
