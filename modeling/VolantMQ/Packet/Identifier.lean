import VolantMQ.Packet.Frame

/-!
# Packet identifiers on the wire

All decoders read a packet identifier by copying into two bytes that are zero before. A body that
ends too early fills only the first of them, or none, and nothing is reported. Whether such a
packet is refused after all depends on what its decoder does next: SUBSCRIBE and UNSUBSCRIBE want
a filter, and the property block of a PUBLISH or a SUBACK of V5.0 wants its length. The other
decoders accept it with an identifier that was not sent. An identifier of zero is accepted by all
of them.
-/

namespace VolantMQ.Packet

open Lib PacketType

/-- The packets that carry an identifier. -/
def Message.CarriesID : Message → Prop
  | .publish msg => msg.qos ≠ QoS0
  | .control h _ =>
      h.mType ∈ [PUBACK, PUBREC, PUBREL, PUBCOMP, SUBSCRIBE, SUBACK, UNSUBSCRIBE, UNSUBACK]

/-- The identifier at the start of the bytes, if both of its bytes are there. -/
def identifierIn : Bytes → Option IDType
  | high :: low :: _ => some (uint16 high low)
  | _ => none

namespace Frame

/-- Where the layout of a packet type has the identifier: behind the topic of a PUBLISH, and at
the start of every other body. -/
def idOffset (f : Frame) : ℕ := if f.mType = PUBLISH then lpLength f.body else 0

/-- The identifier that a frame carries at its place in the layout. -/
def identifier (f : Frame) : Option IDType := identifierIn (f.body.drop f.idOffset)

/-- The identifier of a decoded packet was in the frame, and it is not zero. -/
def IdentifierPresent (f : Frame) (m : Message) : Prop :=
  ∃ high low rest, f.body.drop f.idOffset = high :: low :: rest ∧
    m.packetID = some (uint16 high low) ∧ uint16 high low ≠ 0

end Frame

/-- The decoders that accept a body which ends before the second byte of the identifier. -/
def AcceptsCut (v : ProtocolVersion) : PacketType → Prop
  | PUBACK | PUBREC | PUBREL | PUBCOMP | UNSUBACK => True
  | PUBLISH | SUBACK => v ≠ ProtocolV50
  | _ => False

section Readers

variable {src : Bytes} {id there : IDType} {n : ℕ}

/-- Two bytes that are there are read as they are. -/
theorem eq_of_identifierIn (run : packetIDField.run src = .ok (id, n))
    (found : identifierIn src = some there) : id = there := by
  rcases src with _ | ⟨high, _ | ⟨low, rest⟩⟩
  · simp [identifierIn] at found
  · simp [identifierIn] at found
  · simp only [identifierIn, Option.some.injEq] at found
    simp only [run_packetIDField_cons, Except.ok.injEq, Prod.mk.injEq] at run
    rw [← found, ← run.1]

/-- Nothing is left behind an identifier that was cut off. -/
theorem drop_of_cut (run : packetIDField.run src = .ok (id, n)) (cut : identifierIn src = none) :
    src.drop n = [] := by
  apply List.drop_eq_nil_of_le
  have ends := packetIDField_consumes run
  rcases src with _ | ⟨high, _ | ⟨low, rest⟩⟩
  · simp
  · simp only [List.length_cons, List.length_nil] at ends ⊢
    omega
  · simp [identifierIn] at cut

theorem consumes_of_cut (run : packetIDField.run src = .ok (id, n))
    (cut : identifierIn src = none) : n = src.length := by
  have bound := packetIDField.bounded run
  have rest := congrArg List.length (drop_of_cut run cut)
  rw [List.length_drop, List.length_nil] at rest
  omega

theorem run_block_nil (t : PacketType) :
    (block true t).run [] = .error (.error (.reason CodeMalformedPacket)) := rfl

end Readers

/-- What a decoder makes of the bytes where the identifier belongs: both of them are the
identifier if they are there, and if they are not, then the decoder is one that accepts this. -/
def Named (v : ProtocolVersion) (t : PacketType) (place : Bytes) (m : Message) : Prop :=
  ∃ id, m.packetID = some id ∧ (∀ there, identifierIn place = some there → id = there) ∧
    (identifierIn place = none → AcceptsCut v t)

section Decoders

variable {h : Header} {body : Bytes} {m : Message} {n : ℕ}

theorem Ack.decodeMessage_named (accepts : AcceptsCut h.version h.mType)
    (run : (Ack.decodeMessage h).run body = .ok (m, n)) : Named h.version h.mType body m := by
  rcases Reader.run_bind_eq_ok.mp run with ⟨id, a, b, idRun, rest, -⟩
  refine ⟨id, ?_, fun there => eq_of_identifierIn idRun, fun _ => accepts⟩
  simp only at rest
  split at rest
  · rcases Reader.run_bind_eq_ok.mp rest with ⟨done, _, _, -, rest, -⟩
    split at rest
    · simp only [Reader.run_pure, Except.ok.injEq, Prod.mk.injEq] at rest
      rw [← rest.1]
      rfl
    · simp only [reject, Reader.run_bind_eq_ok, Reader.run_check_eq_ok, Reader.run_pure,
        Except.ok.injEq, Prod.mk.injEq] at rest
      rcases rest with ⟨_, _, _, -, ⟨-, _, _, _, -, ⟨_, _, _, -, ⟨rfl, -⟩, -⟩, -⟩, -⟩
      rfl
  · simp only [Reader.run_pure, Except.ok.injEq, Prod.mk.injEq] at rest
    rw [← rest.1]
    rfl

theorem UnSubAck.decodeMessage_named {remLen : Int} (accepts : AcceptsCut h.version h.mType)
    (run : (UnSubAck.decodeMessage h remLen).run body = .ok (m, n)) :
    Named h.version h.mType body m := by
  rcases Reader.run_bind_eq_ok.mp run with ⟨⟨id, k⟩, a, b, idRun, rest, -⟩
  rcases Reader.run_counted_eq_ok.mp idRun with ⟨idRun, -⟩
  refine ⟨id, ?_, fun there => eq_of_identifierIn idRun, fun _ => accepts⟩
  rcases Reader.run_bind_eq_ok.mp rest with ⟨_, _, _, -, done, -⟩
  simp only [Reader.run_pure, Except.ok.injEq, Prod.mk.injEq] at done
  rw [← done.1]
  rfl

/-- The block of a SUBACK of V5.0 needs at least the byte of its length. -/
theorem SubAck.decodeMessage_named {remLen : Int}
    (old : h.version ≠ ProtocolV50 → AcceptsCut h.version h.mType)
    (run : (SubAck.decodeMessage h remLen).run body = .ok (m, n)) :
    Named h.version h.mType body m := by
  rcases Reader.run_bind_eq_ok.mp run with ⟨⟨id, k⟩, a, b, idRun, rest, -⟩
  rcases Reader.run_counted_eq_ok.mp idRun with ⟨idRun, rfl⟩
  rcases Reader.run_bind_eq_ok.mp rest with ⟨⟨p, c⟩, d, e, props, codes, -⟩
  refine ⟨id, ?_, fun there => eq_of_identifierIn idRun, fun cut => old ?_⟩
  · simp only [Reader.run_check_eq_ok, Reader.run_bind_eq_ok, Reader.run_pure, Except.ok.injEq,
      Prod.mk.injEq] at codes
    rcases codes with ⟨-, _, _, _, -, ⟨_, _, _, -, ⟨rfl, -⟩, -⟩, -⟩
    rfl
  · intro five
    have propsRead := (Reader.run_counted_eq_ok.mp props).1
    rw [Reader.optional_of_present five, drop_of_cut idRun cut, run_block_nil] at propsRead
    simp at propsRead

/-- A SUBSCRIBE without filters is refused, and behind a cut identifier there are none. -/
theorem Subscribe.decodeMessage_named
    (run : (Subscribe.decodeMessage h body.length).run body = .ok (m, n)) :
    Named h.version h.mType body m := by
  rcases Reader.run_bind_eq_ok.mp run with ⟨⟨id, k⟩, a, b, idRun, rest, -⟩
  rcases Reader.run_counted_eq_ok.mp idRun with ⟨idRun, rfl⟩
  rcases Reader.run_bind_eq_ok.mp rest with ⟨⟨p, c⟩, d, e, props, loop, -⟩
  simp only [reject, Reader.run_bind_eq_ok, Reader.run_check_eq_ok, Reader.run_pure,
    Except.ok.injEq, Prod.mk.injEq] at loop
  rcases loop with ⟨topics, _, _, filters, ⟨some, rfl, -⟩, -⟩
  refine ⟨id, rfl, fun there => eq_of_identifierIn idRun, ?_⟩
  intro cut
  have nothing : ((body.length : Int) - (k + c : ℕ)).toNat = 0 := by
    rw [consumes_of_cut idRun cut]
    omega
  simp only [nothing, Subscribe.decodeTopics, Reader.run_pure, Except.ok.injEq,
    Prod.mk.injEq] at filters
  rw [← filters.1] at some
  exact absurd rfl some

theorem UnSubscribe.decodeMessage_named
    (run : (UnSubscribe.decodeMessage h body.length).run body = .ok (m, n)) :
    Named h.version h.mType body m := by
  rcases Reader.run_bind_eq_ok.mp run with ⟨⟨id, k⟩, a, b, idRun, loop, -⟩
  rcases Reader.run_counted_eq_ok.mp idRun with ⟨idRun, rfl⟩
  simp only [reject, Reader.run_bind_eq_ok, Reader.run_check_eq_ok, Reader.run_pure,
    Except.ok.injEq, Prod.mk.injEq] at loop
  rcases loop with ⟨topics, _, _, filters, ⟨some, rfl, -⟩, -⟩
  refine ⟨id, rfl, fun there => eq_of_identifierIn idRun, ?_⟩
  intro cut
  have nothing : ((body.length : Int) - (k : ℕ)).toNat = 0 := by
    rw [consumes_of_cut idRun cut]
    omega
  simp only [nothing, UnSubscribe.decodeTopics, Reader.run_pure, Except.ok.injEq,
    Prod.mk.injEq] at filters
  rw [← filters.1] at some
  exact absurd rfl some

theorem Publish.readMessage_named {packet next : Publish} {remLen : Int}
    (ack : packet.qos ≠ QoS0) (run : (packet.readMessage remLen).run body = .ok (next, n)) :
    Named packet.version PUBLISH (body.drop (lpLength body)) (.publish next) := by
  simp only [Publish.readMessage, reject, rejectFor, Reader.run_check_eq_ok,
    Reader.run_bind_eq_ok] at run
  rcases run with ⟨-, -, ⟨topic, a⟩, _, _, topicRun, ⟨-, -, ⟨id, b⟩, _, _, idRun, ⟨⟨p, c⟩, _, _,
    props, run, -⟩, -⟩, -⟩
  rcases Reader.run_counted_eq_ok.mp topicRun with ⟨topicRead, rfl⟩
  rcases Reader.run_counted_eq_ok.mp idRun with ⟨idRead, rfl⟩
  have propsRead := (Reader.run_counted_eq_ok.mp props).1
  rw [Reader.optional_of_present ack, Reader.run_map] at idRead
  rcases map_eq_ok.mp idRead with ⟨⟨value, k⟩, found, same⟩
  simp only [Prod.mk.injEq] at same
  rcases same with ⟨rfl, rfl⟩
  rw [lpField_consumes topicRead] at found propsRead
  refine ⟨value, ?_, fun there => eq_of_identifierIn found, ?_⟩
  · rcases run with ⟨-, -, payload, d, e, -, done, -⟩
    simp only [Reader.run_pure, Except.ok.injEq, Prod.mk.injEq] at done
    rw [← done.1]
    rfl
  · intro cut five
    rw [Reader.optional_of_present five, drop_of_cut found cut, run_block_nil] at propsRead
    simp at propsRead

end Decoders

theorem Message.mType_of_carriesID {m : Message} (carries : m.CarriesID) :
    m.mType ∈ [PUBLISH, PUBACK, PUBREC, PUBREL, PUBCOMP, SUBSCRIBE, SUBACK, UNSUBSCRIBE,
      UNSUBACK] := by
  cases m with
  | publish msg => simp [Message.mType]
  | control h body => exact List.mem_cons_of_mem _ carries

theorem decodeMessage_named {v : ProtocolVersion} {t : PacketType} {flags : UInt8} {body : Bytes}
    {m : Message} {n : ℕ} (carries : m.CarriesID)
    (run : (decodeMessage v t flags body.length).run body = .ok (m, n)) :
    Named v t (body.drop (if t = PUBLISH then lpLength body else 0)) m := by
  have typed := (decodeMessage_gives v t flags body.length body m n run).1
  have member := Message.mType_of_carriesID carries
  rw [typed] at member
  cases t with
  | PUBLISH =>
      rw [decodeMessage, Reader.run_map] at run
      rcases map_eq_ok.mp run with ⟨⟨next, k⟩, read, same⟩
      simp only [Prod.mk.injEq] at same
      rcases same with ⟨rfl, rfl⟩
      have kept := Publish.readMessage_gives _ _ _ _ _ read
      refine Publish.readMessage_named ?_ read
      intro zero
      apply carries
      rw [Publish.qos, kept]
      exact zero
  | PUBACK | PUBREC | PUBREL | PUBCOMP =>
      refine Ack.decodeMessage_named ?_ run
      trivial
  | SUBSCRIBE => exact Subscribe.decodeMessage_named run
  | SUBACK =>
      refine SubAck.decodeMessage_named ?_ run
      intro old
      exact old
  | UNSUBSCRIBE => exact UnSubscribe.decodeMessage_named run
  | UNSUBACK =>
      refine UnSubAck.decodeMessage_named ?_ run
      trivial
  | _ => simp at member

namespace Frame

variable {v : ProtocolVersion} {f : Frame} {m : Message} {n : ℕ}

theorem named_of_decode (decoded : decode v f.bytes = .ok (m, n)) (carries : m.CarriesID) :
    Named v f.mType (f.body.drop f.idOffset) m := by
  rw [decode_bytes] at decoded
  rcases settle_eq_ok.mp decoded with ⟨k, run, -⟩
  simp only [reader] at run
  split at run
  · simp [reject] at run
  · simp only [rejectFor, reject, Reader.run_check_eq_ok] at run
    exact decodeMessage_named carries run.2

theorem identifierPresent_iff : f.IdentifierPresent m ↔
    ∃ id, f.identifier = some id ∧ m.packetID = some id ∧ id ≠ 0 := by
  unfold IdentifierPresent identifier
  constructor
  · rintro ⟨high, low, rest, place, same, positive⟩
    rw [place]
    exact ⟨uint16 high low, rfl, same, positive⟩
  · rintro ⟨id, found, same, positive⟩
    rcases place : f.body.drop f.idOffset with _ | ⟨high, _ | ⟨low, rest⟩⟩
    · simp [place, identifierIn] at found
    · simp [place, identifierIn] at found
    · simp only [place, identifierIn, Option.some.injEq] at found
      subst found
      exact ⟨high, low, rest, rfl, same, positive⟩

/-- The identifier of an accepted packet was sent, unless the frame ends before it and the decoder
is one of those that do not see this, or it was sent as zero. -/
theorem identifierPresent_iff_of_decode (decoded : decode v f.bytes = .ok (m, n))
    (carries : m.CarriesID) :
    f.IdentifierPresent m ↔
      (AcceptsCut v f.mType → f.identifier ≠ none) ∧ f.identifier ≠ some 0 := by
  rcases named_of_decode decoded carries with ⟨id, named, taken, cut⟩
  rw [identifierPresent_iff]
  constructor
  · rintro ⟨there, found, -, positive⟩
    rw [found]
    simpa using positive
  · rintro ⟨whole, positive⟩
    cases found : f.identifier with
    | none => exact absurd found (whole (cut found))
    | some there =>
        rw [taken there found] at named
        refine ⟨there, rfl, named, ?_⟩
        rintro rfl
        exact positive found

/-- A PUBACK with identifier 9. -/
def pubAckNine : Frame := .of 0x40 [0, 9] (by decide)

theorem pubAckNine_present : ∃ m, decode ProtocolV311 pubAckNine.bytes = .ok (m, 4) ∧
    pubAckNine.IdentifierPresent m := by
  have decoded : decode ProtocolV311 pubAckNine.bytes =
      .ok (.control { Header.new ProtocolV311 PUBACK with packetID := some 9 } (.ack 0), 4) := rfl
  refine ⟨_, decoded, (identifierPresent_iff_of_decode decoded ?_).mpr ⟨?_, ?_⟩⟩
  · exact List.mem_cons_self
  · intro _
    decide
  · decide

/-- A PUBACK that ends after one byte of its identifier. -/
def pubAckCut : Frame := .of 0x40 [7] (by decide)

/-- A PUBACK with identifier 0. -/
def pubAckZero : Frame := .of 0x40 [0, 0] (by decide)

/-- Both are accepted: the one as identifier `0x0700`, the other as identifier zero. -/
theorem pubAck_not_present :
    (¬∀ m n, decode ProtocolV311 pubAckCut.bytes = .ok (m, n) → m.CarriesID →
      pubAckCut.IdentifierPresent m) ∧
    ¬∀ m n, decode ProtocolV311 pubAckZero.bytes = .ok (m, n) → m.CarriesID →
      pubAckZero.IdentifierPresent m := by
  have carries (id : IDType) : (Message.control
      { Header.new ProtocolV311 PUBACK with packetID := some id } (.ack 0)).CarriesID :=
    List.mem_cons_self
  constructor
  · intro law
    have present := law _ _ rfl (carries 0x0700)
    rcases identifierPresent_iff.mp present with ⟨id, found, -⟩
    have nothing : pubAckCut.identifier = none := rfl
    simp [nothing] at found
  · intro law
    have present := law _ _ rfl (carries 0)
    rcases identifierPresent_iff.mp present with ⟨id, -, same, positive⟩
    exact positive (Option.some.inj same).symm

end Frame

end VolantMQ.Packet
