import VolantMQ.Packet.UnSubscribe

/-!
# Frame discipline

The message decoders bound themselves in different ways: by the remaining length, by the end of the
slice, or not at all. So what follows a frame can leak into the packet, and bytes of the frame can
be left over. For a frame that is accepted this file says exactly when neither happens: no field
is cut off by the end of the frame, and the fields take all of its bytes. For a frame that is
rejected the first of the two is enough.
-/

namespace VolantMQ.Packet

open Lib

namespace Frame

variable {v : ProtocolVersion} {f : Frame}

/-- The fields that the decoder of the packet type reads make up the whole frame. -/
def Spans (v : ProtocolVersion) (f : Frame) : Prop :=
  match f.mType with
  | .CONNECT => f.body.length = Connect.length f.body
  | .CONNACK => f.body.length = past (v = ProtocolV50) blockLength f.body 2
  | .PUBACK | .PUBREC | .PUBREL | .PUBCOMP =>
      f.body.length = past (v = ProtocolV50) blockLength f.body (if v = ProtocolV50 then 3 else 2)
  | .UNSUBSCRIBE => ∃ filters last,
      (∀ t ∈ filters ++ [last], utf8Valid t = true ∧ t.length ≤ MaxLPString) ∧
        f.body.drop 2 = UnSubscribe.filterBytes (filters ++ [last]) ∧
        filters.length < last.length + 2
  | .UNSUBACK =>
      f.body.length = past (v = ProtocolV50 ∧ 2 < f.body.length) blockLength f.body 2
  | .PINGREQ | .PINGRESP => f.body.length = 0
  | .DISCONNECT =>
      f.body.length = past (v = ProtocolV50 ∧ 0 < f.body.length) blockLength f.body
        (if v = ProtocolV50 ∧ 0 < f.body.length then 1 else 0)
  | .AUTH => f.body.length = blockLength f.body
  | .RESERVED | .PUBLISH | .SUBSCRIBE | .SUBACK => True

/-- An accepted frame goes through to the message decoder. -/
theorem reader_eq_of_ok {src : Bytes} {msg : Message} {n : ℕ}
    (run : (f.reader v).run src = .ok (msg, n)) :
    f.reader v = decodeMessage v f.mType f.mFlags f.body.length := by
  unfold reader at run ⊢
  cases made : newMessage v f.mType with
  | error e => simp [made, reject] at run
  | ok msg =>
      simp only [made] at run ⊢
      split
      · rename_i rejected
        simp [rejected, rejectFor, reject] at run
      · rfl

end Frame

/-- An UNSUBSCRIBE is accepted only with a full identifier, and then all of it is read if and only
if the loop gets to the last filter. -/
theorem UnSubscribe.consumes_iff {h : Header} {body : Bytes} {msg : Message} {n : ℕ}
    (run : (UnSubscribe.decodeMessage h body.length).run body = .ok (msg, n)) :
    2 ≤ body.length ∧ (n = body.length ↔ ∃ filters last,
      (∀ t ∈ filters ++ [last], utf8Valid t = true ∧ t.length ≤ MaxLPString) ∧
        body.drop 2 = filterBytes (filters ++ [last]) ∧ filters.length < last.length + 2) := by
  simp only [decodeMessage, reject, Reader.run_bind_eq_ok, Reader.run_check_eq_ok, Reader.run_pure,
    Except.ok.injEq, Prod.mk.injEq] at run
  rcases run with ⟨⟨id, a⟩, _, _, idRun, ⟨topics, k, _, loop, ⟨some, -, rfl⟩, rfl⟩, rfl⟩
  rcases Reader.run_counted_eq_ok.mp idRun with ⟨idRun, rfl⟩
  have idEnds := packetIDField_consumes idRun
  have enough : 2 ≤ body.length := by
    by_contra few
    rw [run_decodeTopics_over (by simp only; omega), Except.ok.injEq, Prod.mk.injEq] at loop
    simp [← loop.1] at some
  rw [Nat.min_eq_left enough] at idEnds
  subst idEnds
  have rest : (body.drop 2).length = body.length - 2 := List.length_drop
  refine ⟨enough, ?_⟩
  constructor
  · intro full
    rcases decodeTopics_eq_ok loop with ⟨read, same, taken, -, wellFormed, before⟩
    rw [List.nil_append] at same
    subst same
    rw [List.take_of_length_le (by omega)] at taken
    rcases List.eq_nil_or_concat topics with none | ⟨front, last, split⟩
    · simp [none] at some
    · rw [List.concat_eq_append] at split
      refine ⟨front, last, split ▸ wellFormed, split ▸ taken, ?_⟩
      have lasts := before front last split
      have length := congrArg List.length taken
      rw [split, filterBytes_append, List.length_append, rest] at length
      simp only [filterBytes_cons, filterBytes_nil, List.append_nil, length_lpBytes] at length
      simp only at lasts
      omega
  · rintro ⟨filters, last, wellFormed, whole, few⟩
    have length := congrArg List.length whole
    rw [rest] at length
    have bytes : (filterBytes (filters ++ [last])).length =
        (filterBytes filters).length + (2 + last.length) := by simp [filterBytes_append]
    rw [whole, run_decodeTopics (fun t member => (wellFormed t member).1)
      (fun t member => (wellFormed t member).2) (by simp only; omega) (by simp only; omega)
      (by simp only; omega), Except.ok.injEq, Prod.mk.injEq] at loop
    omega

section Honest

open Reader

variable (h : Header)

theorem Connect.honest_decodeMessage : Honest (Connect.decodeMessage h) := by
  refine honest_lpField.bind fun name => (honest_fail _).ite ?_
  refine honest_byte.bind fun version => (honest_fail _).ite ?_
  refine honest_byte.bind fun flags => ?_
  cases Connect.rejectFlags version flags with
  | some code => exact honest_fail _
  | none =>
      refine honest_uint16Field.bind fun keepAlive => ?_
      refine ((honest_block _ _).optional _).bind fun properties => ?_
      refine honest_lpField.bind fun clientID =>
        (honest_fail _).ite ((honest_fail _).ite ?_)
      refine (honest_lpField.optional _).bind fun willTopic => ?_
      refine (honest_lpField.optional _).bind fun willMessage => ?_
      refine (honest_lpField.optional _).bind fun username => ?_
      exact (honest_lpField.optional _).bind fun password => honest_pure _

theorem ConnAck.honest_decodeMessage : Honest (ConnAck.decodeMessage h) := by
  refine honest_byte.bind fun flags => (honest_fail _).ite ?_
  refine honest_byte.bind fun code => (honest_fail _).ite ?_
  exact ((honest_block _ _).optional _).bind fun properties => honest_pure _

theorem Disconnect.honest_decodeMessage (remLen : Int) :
    Honest (Disconnect.decodeMessage h remLen) := by
  refine Honest.ite (Honest.ite (honest_pure _) ?_) (Honest.ite (honest_fail _) (honest_pure _))
  refine honest_byte.bind fun code => (honest_fail _).ite (Honest.ite ?_ ?_)
  · -- with nothing left the packet is refused
    refine Honest.bind_or ?_ ?_
    · rintro (_ | ⟨first, rest⟩) value n run
      · simp only [run_atEnd_nil, Except.ok.injEq, Prod.mk.injEq] at run
        right
        intro result
        simp [← run.1, reject]
      · exact .inl (List.cons_ne_nil first rest)
    · intro finished
      exact (honest_fail _).ite (honest_byte.bind fun _ => honest_pure _)
  · exact (honest_block _ _).bind fun properties => honest_pure _

theorem Auth.honest_decodeMessage : Honest (Auth.decodeMessage h) := by
  refine honest_peek.bind fun code => (honest_fail _).ite ?_
  exact (honest_block _ _).bind fun properties => honest_pure _

theorem Subscribe.honest_decodeTopics (version : ProtocolVersion) (rounds : ℕ) (remLen : Int)
    (topics : List (GoString × SubscriptionOptions)) :
    Honest (Subscribe.decodeTopics version rounds remLen topics) := by
  induction rounds generalizing remLen topics with
  | zero => exact honest_pure _
  | succ rounds ih =>
      refine (honest_pure _).ite ?_
      refine honest_lpField.counted.bind fun field => (honest_fail _).ite ?_
      exact honest_byte.bind fun ops => (honest_fail _).ite ((honest_fail _).ite (ih _ _))

theorem UnSubscribe.honest_decodeTopics (rounds : ℕ) (remLen : Int) (topics : List GoString) :
    Honest (UnSubscribe.decodeTopics rounds remLen topics) := by
  induction rounds generalizing remLen topics with
  | zero => exact honest_pure _
  | succ rounds ih =>
      refine (honest_pure _).ite ?_
      exact honest_lpField.counted.bind fun field => (honest_fail _).ite (ih _ _)

theorem SubAck.honest_checkCodes (codes : List ReasonCode) : Honest (SubAck.checkCodes h codes) := by
  induction codes with
  | nil => exact honest_pure _
  | cons code codes ih => exact (honest_fail _).ite ((honest_fail _).ite ih)

end Honest

/-- Some continuation makes the reader miss a message. -/
def Misled (reader : MessageReader) (body : Bytes) (msg : Message) : Prop :=
  ∃ more, ∀ k, reader.run (body ++ more) ≠ .ok (msg, k)

section Cut

open Reader

variable {h : Header} {body : Bytes} {msg : Message} {n : ℕ}

/-- A SUBSCRIBE without a full identifier has no filters. -/
theorem Subscribe.inside_of_run
    (run : (Subscribe.decodeMessage h body.length).run body = .ok (msg, n)) :
    (Subscribe.decodeMessage h body.length).inside body := by
  have enough : 2 ≤ body.length := by
    by_contra few
    simp only [Subscribe.decodeMessage, reject, run_bind_eq_ok, run_check_eq_ok] at run
    rcases run with ⟨⟨id, a⟩, _, _, idRun, ⟨⟨p, b⟩, _, _, props, ⟨topics, c, _, loop, ⟨some, -⟩, -⟩,
      -⟩, -⟩
    rcases run_counted_eq_ok.mp idRun with ⟨idRun, rfl⟩
    rcases run_counted_eq_ok.mp props with ⟨propsRun, rfl⟩
    have idEnds := packetIDField_consumes idRun
    have propsEnd := (Reader.optional _ _ _).bounded propsRun
    rw [List.length_drop] at propsEnd
    have none : (body.length : Int) - (a + b : ℕ) = 0 := by omega
    simp only [none, Int.toNat_zero, Subscribe.decodeTopics, run_pure, Except.ok.injEq,
      Prod.mk.injEq] at loop
    simp [← loop.1] at some
  refine Honest.inside_bind (fun id => ?_) enough run
  refine ((honest_block _ _).optional _).counted.bind fun properties => ?_
  exact (Subscribe.honest_decodeTopics _ _ _ _).bind fun topics => (honest_fail _).ite (honest_pure _)

/-- An UNSUBSCRIBE without a full identifier has no filters. -/
theorem UnSubscribe.inside_of_run
    (run : (UnSubscribe.decodeMessage h body.length).run body = .ok (msg, n)) :
    (UnSubscribe.decodeMessage h body.length).inside body := by
  refine Honest.inside_bind (fun id => ?_) (UnSubscribe.consumes_iff run).1 run
  exact (UnSubscribe.honest_decodeTopics _ _ _).bind fun topics =>
    (honest_fail _).ite (honest_pure _)

/-- With two more bytes for the identifier the return codes of a short SUBACK are out of range. -/
theorem SubAck.inside_or_misled
    (run : (SubAck.decodeMessage h body.length).run body = .ok (msg, n)) :
    (SubAck.decodeMessage h body.length).inside body ∨
      Misled (SubAck.decodeMessage h body.length) body msg := by
  by_cases enough : 2 ≤ body.length
  · left
    refine Honest.inside_bind (fun id => ?_) enough run
    refine ((honest_block _ _).optional _).counted.bind fun properties => (honest_fail _).ite ?_
    exact (honest_take _ _).bind fun codes => (SubAck.honest_checkCodes h codes).bind fun _ =>
      honest_pure _
  · right
    refine ⟨[0, 0], fun k longer => ?_⟩
    simp only [SubAck.decodeMessage, run_bind_eq_ok, run_check_eq_ok] at longer
    rcases longer with ⟨⟨id, a⟩, _, _, idRun, ⟨⟨p, b⟩, _, _, props, ⟨inRange, -⟩, -⟩, -⟩
    rcases run_counted_eq_ok.mp idRun with ⟨idRun, rfl⟩
    have idEnds := packetIDField_consumes idRun
    rw [List.length_append, List.length_cons, List.length_singleton,
      Nat.min_eq_left (by omega)] at idEnds
    omega

/-- Bytes behind a short identifier become part of it. -/
theorem decodePacketID_cut (few : body.length < 2) :
    (Publish.decodePacketID (body ++ [1, 1])).1 ≠ (Publish.decodePacketID body).1 := by
  rcases body with _ | ⟨high, _ | ⟨low, rest⟩⟩
  · decide
  · intro same
    have values := congrArg UInt16.toNat same
    have bound := high.toNat_lt
    simp only [List.cons_append, List.nil_append, Publish.decodePacketID, uint16,
      UInt16.toNat_ofNat', UInt8.toNat_one, UInt8.toNat_zero] at values
    omega
  · simp only [List.length_cons] at few
    omega

theorem UnSubAck.packetID_of_run {remLen : Int}
    (run : (UnSubAck.decodeMessage h remLen).run body = .ok (msg, n)) :
    msg.packetID = some (Publish.decodePacketID body).1 := by
  simp only [UnSubAck.decodeMessage, run_bind_eq_ok, run_pure, Except.ok.injEq,
    Prod.mk.injEq] at run
  rcases run with ⟨⟨id, a⟩, _, _, idRun, ⟨p, _, _, -, ⟨rfl, -⟩, -⟩, -⟩
  have idRead := (run_counted_eq_ok.mp idRun).1
  change Except.ok (Publish.decodePacketID body) = _ at idRead
  simp only [Except.ok.injEq] at idRead
  rw [idRead]
  rfl

theorem UnSubAck.inside_or_misled
    (run : (UnSubAck.decodeMessage h body.length).run body = .ok (msg, n)) :
    (UnSubAck.decodeMessage h body.length).inside body ∨
      Misled (UnSubAck.decodeMessage h body.length) body msg := by
  by_cases enough : 2 ≤ body.length
  · left
    refine Honest.inside_bind (fun id => ?_) enough run
    exact ((honest_block _ _).optional _).bind fun properties => honest_pure _
  · right
    refine ⟨[1, 1], fun k longer => ?_⟩
    have same := (UnSubAck.packetID_of_run longer).symm.trans (UnSubAck.packetID_of_run run)
    exact decodePacketID_cut (by omega) (Option.some.inj same)

theorem Ack.packetID_of_run (run : (Ack.decodeMessage h).run body = .ok (msg, n)) :
    msg.packetID = some (Publish.decodePacketID body).1 := by
  rcases run_bind_eq_ok.mp run with ⟨id, a, b, idRun, rest, -⟩
  change Except.ok (Publish.decodePacketID body) = _ at idRun
  simp only [Except.ok.injEq] at idRun
  rw [idRun]
  by_cases five : h.version = ProtocolV50
  · simp only [if_pos five, reject, run_bind_eq_ok] at rest
    rcases rest with ⟨done, _, _, -, rest, -⟩
    split at rest
    · simp only [run_pure, Except.ok.injEq, Prod.mk.injEq] at rest
      rw [← rest.1]
      rfl
    · simp only [run_bind_eq_ok, run_check_eq_ok, run_pure, Except.ok.injEq,
        Prod.mk.injEq] at rest
      rcases rest with ⟨_, _, _, -, ⟨-, _, _, _, -, ⟨_, _, _, -, ⟨rfl, -⟩, -⟩, -⟩, -⟩
      rfl
  · simp only [if_neg five, run_pure, Except.ok.injEq, Prod.mk.injEq] at rest
    rw [← rest.1]
    rfl

theorem Ack.inside_reason (five : h.version = ProtocolV50) {high low code byte : UInt8}
    {rest : Bytes} (valid : ReasonCode.isValidForType code h.mType = true)
    (within : (block true h.mType).inside (byte :: rest)) :
    (Ack.decodeMessage h).inside (high :: low :: code :: byte :: rest) := by
  refine ⟨by simp [packetIDField], fun id a idRun => ?_⟩
  simp only [run_packetIDField_cons, Except.ok.injEq, Prod.mk.injEq] at idRun
  rcases idRun with ⟨rfl, rfl⟩
  simp only [if_pos five, List.drop_succ_cons, List.drop_zero]
  refine ⟨by simp [Reader.atEnd], fun finished a atEnd => ?_⟩
  simp only [run_atEnd_cons, Except.ok.injEq, Prod.mk.injEq] at atEnd
  rcases atEnd with ⟨rfl, rfl⟩
  simp only [List.drop_zero, Bool.false_eq_true, if_false]
  refine ⟨by simp [Reader.byte], fun reason a reasonRun => ?_⟩
  simp only [run_byte_cons, Except.ok.injEq, Prod.mk.injEq] at reasonRun
  rcases reasonRun with ⟨rfl, rfl⟩
  simp only [valid, Bool.not_true, Bool.false_eq_true, if_false, List.drop_succ_cons,
    List.drop_zero]
  refine ⟨by simp [Reader.atEnd], fun finished a atEnd => ?_⟩
  simp only [run_atEnd_cons, Except.ok.injEq, Prod.mk.injEq] at atEnd
  rcases atEnd with ⟨rfl, rfl⟩
  exact ⟨within, fun _ _ _ => inside_pure _⟩

/-- An acknowledgement of V5.0 asks how much is left of the slice, and not of the packet. -/
theorem Ack.inside_or_misled (reserved : ReasonCode.isValidForType 0xFF h.mType = false)
    (run : (Ack.decodeMessage h).run body = .ok (msg, n)) :
    (Ack.decodeMessage h).inside body ∨ Misled (Ack.decodeMessage h) body msg := by
  by_cases few : body.length < 2
  · right
    refine ⟨[1, 1], fun k longer => ?_⟩
    have same := (Ack.packetID_of_run longer).symm.trans (Ack.packetID_of_run run)
    exact decodePacketID_cut few (Option.some.inj same)
  · obtain ⟨high, low, rest, rfl⟩ : ∃ high low rest, body = high :: low :: rest := by
      rcases body with _ | ⟨high, _ | ⟨low, rest⟩⟩
      · simp at few
      · simp at few
      · exact ⟨high, low, rest, rfl⟩
    by_cases five : h.version = ProtocolV50
    · rcases rest with _ | ⟨code, rest⟩
      · right
        refine ⟨[0xFF], fun k longer => ?_⟩
        rw [List.cons_append, List.cons_append, List.nil_append, Ack.run_reason five] at longer
        simp [reserved] at longer
      · rw [Ack.run_reason five] at run
        split at run
        · simp at run
        · rename_i valid
          rcases rest with _ | ⟨byte, rest⟩
          · right
            refine ⟨[0x80], fun k longer => ?_⟩
            have cut : (block true h.mType).run [0x80] =
                .error (.error (.reason CodeMalformedPacket)) := rfl
            rw [List.cons_append, List.cons_append, List.cons_append, List.nil_append,
              Ack.run_reason five, if_neg valid, if_neg (by simp), cut] at longer
            simp [Except.map] at longer
          · left
            rw [if_neg (by simp)] at run
            rcases map_eq_ok.mp run with ⟨_, props, -⟩
            have within : (block true h.mType).inside (byte :: rest) :=
              honest_block true h.mType _ _ _ props
            exact Ack.inside_reason five (by simpa using valid) within
    · left
      refine ⟨by simp [packetIDField], fun id a idRun => ?_⟩
      simp only [if_neg five]
      exact inside_pure _

theorem optional_packetID_consumes {present : Prop} [Decidable present] {absent id : Option IDType}
    (there : present)
    (run : (Reader.optional present (some <$> packetIDField) absent).run body = .ok (id, n)) :
    n = min 2 body.length := by
  rw [optional_of_present there, run_map] at run
  rcases map_eq_ok.mp run with ⟨result, found, same⟩
  simp only [Prod.mk.injEq] at same
  exact same.2 ▸ packetIDField_consumes found

/-- With two more bytes for the identifier a short PUBLISH has no room for a payload. -/
theorem Publish.inside_or_misled {packet next : Publish}
    (run : (packet.readMessage body.length).run body = .ok (next, n)) :
    (packet.readMessage body.length).inside body ∨
      ∃ more, ∀ result, (packet.readMessage body.length).run (body ++ more) ≠ .ok result := by
  simp only [Publish.readMessage, reject, rejectFor, run_check_eq_ok] at run
  rcases run with ⟨qosValid, dupFine, run⟩
  rcases run_bind_eq_ok.mp run with ⟨⟨topic, a⟩, _, _, topicRun, rest, -⟩
  rcases run_counted_eq_ok.mp topicRun with ⟨topicRead, rfl⟩
  simp only [run_check_eq_ok] at rest
  rcases rest with ⟨named, valid, rest⟩
  have topicEnds := lpField.bounded topicRead
  simp only [Publish.readMessage, reject, rejectFor, if_neg qosValid, if_neg dupFine]
  by_cases cut : packet.qos ≠ QoS0 ∧ (body.drop a).length < 2
  · right
    refine ⟨[0, 0], ?_⟩
    rintro ⟨other, k⟩ longer
    have old : packet.version ≠ ProtocolV50 := by
      intro five
      rcases run_bind_eq_ok.mp rest with ⟨⟨id, b⟩, _, _, idRun, props, -⟩
      rcases run_counted_eq_ok.mp idRun with ⟨idRead, rfl⟩
      rcases run_bind_eq_ok.mp props with ⟨⟨p, c⟩, _, _, propsRun, -, -⟩
      have propsRead := (run_counted_eq_ok.mp propsRun).1
      have idEnds := optional_packetID_consumes cut.1 idRead
      rw [optional_of_present five, List.drop_eq_nil_of_le (by omega)] at propsRead
      have refused : (block true .PUBLISH).run [] =
          .error (.error (.reason CodeMalformedPacket)) := rfl
      simp [refused] at propsRead
    rcases run_bind_eq_ok.mp longer with ⟨⟨topic', a'⟩, _, _, topicRun', rest', -⟩
    rcases run_counted_eq_ok.mp topicRun' with ⟨topicRead', rfl⟩
    rw [lpField.stable (honest_lpField _ _ _ topicRead), topicRead, Except.ok.injEq,
      Prod.mk.injEq] at topicRead'
    rcases topicRead' with ⟨rfl, rfl⟩
    simp only [run_check_eq_ok] at rest'
    rcases run_bind_eq_ok.mp rest'.2.2 with ⟨⟨id, b⟩, _, _, idRun, props, -⟩
    rcases run_counted_eq_ok.mp idRun with ⟨idRead, rfl⟩
    have idEnds := optional_packetID_consumes cut.1 idRead
    simp only [optional_of_absent old] at props
    rcases run_bind_eq_ok.mp props with ⟨⟨p, c⟩, _, _, -, payload, -⟩
    simp only [run_check_eq_ok] at payload
    have inRange := payload.2.1
    rw [List.drop_append_of_le_length topicEnds, List.length_append, List.length_cons,
      List.length_singleton, Nat.min_eq_left (by omega)] at idEnds
    have topicLeft := cut.2
    rw [List.length_drop] at topicLeft
    omega
  · left
    refine ⟨honest_lpField _ _ _ topicRead, fun pair m again => ?_⟩
    rw [topicRun, Except.ok.injEq, Prod.mk.injEq] at again
    rcases again with ⟨rfl, rfl⟩
    simp only [if_neg named, if_neg valid]
    refine Honest.inside_bind (fun id => ?_) ?_ rest
    · refine ((honest_block _ _).optional _).counted.bind fun properties => (honest_fail _).ite ?_
      exact (honest_fail _).ite ((honest_take _ _).bind fun payload => honest_pure _)
    · by_cases ack : packet.qos ≠ QoS0
      · change (Reader.optional _ _ _).inside _
        rw [optional_of_present ack, inside_map]
        exact Nat.le_of_not_lt fun few => cut ⟨ack, few⟩
      · change (Reader.optional _ _ _).inside _
        rw [optional_of_absent ack]
        exact inside_pure _

end Cut

namespace Frame

variable {v : ProtocolVersion} {f : Frame}

/-- How many bytes of an accepted frame are consumed. -/
theorem consumed_iff_spans (within : f.Inside v) {msg : Message} {n : ℕ}
    (run : (f.reader v).run f.body = .ok (msg, n)) : n = f.body.length ↔ f.Spans v := by
  have short := f.announces_lt
  have reader := reader_eq_of_ok run
  rw [Inside, reader] at within
  rw [reader] at run
  unfold Spans
  cases type : f.mType with
  | RESERVED => simp [type, decodeMessage, reject] at run
  | CONNECT =>
      rw [type] at run
      rw [Connect.decodeMessage_consumes short run]
      exact eq_comm
  | CONNACK =>
      rw [type] at run
      rw [ConnAck.decodeMessage_consumes short run]
      exact eq_comm
  | PUBLISH =>
      rw [type, decodeMessage, Reader.run_map] at run
      rcases map_eq_ok.mp run with ⟨result, found, same⟩
      simp only [Prod.mk.injEq] at same
      exact iff_of_true (same.2 ▸ Publish.readMessage_consumes found) trivial
  | PUBACK | PUBREC | PUBREL | PUBCOMP =>
      rw [type] at run within
      rw [Ack.decodeMessage_consumes short within run]
      exact eq_comm
  | SUBSCRIBE =>
      rw [type] at run
      exact iff_of_true (Subscribe.decodeMessage_consumes run) trivial
  | SUBACK =>
      rw [type] at run
      exact iff_of_true (SubAck.decodeMessage_consumes run) trivial
  | UNSUBSCRIBE =>
      rw [type] at run
      exact (UnSubscribe.consumes_iff run).2
  | UNSUBACK =>
      rw [type] at run within
      rw [UnSubAck.decodeMessage_consumes short within.1 run]
      exact eq_comm
  | PINGREQ | PINGRESP =>
      rw [type] at run
      simp only [decodeMessage, Reader.run_pure, Except.ok.injEq, Prod.mk.injEq] at run
      rw [← run.2]
      exact eq_comm
  | DISCONNECT =>
      rw [type] at run
      rw [Disconnect.decodeMessage_consumes short run]
      exact eq_comm
  | AUTH =>
      rw [type] at run
      rw [Auth.decodeMessage_consumes short run]
      exact eq_comm

/-- An accepted frame either has all its fields inside, or some continuation misleads the
decoder. -/
theorem inside_or_misled {msg : Message} {n : ℕ} (run : (f.reader v).run f.body = .ok (msg, n)) :
    f.Inside v ∨ Misled (f.reader v) f.body msg := by
  have reader := reader_eq_of_ok run
  rw [Inside, reader]
  rw [reader] at run
  cases type : f.mType with
  | RESERVED => simp [type, decodeMessage, reject] at run
  | CONNECT =>
      rw [type] at run
      exact .inl (Connect.honest_decodeMessage _ _ _ _ run)
  | CONNACK =>
      rw [type] at run
      exact .inl (ConnAck.honest_decodeMessage _ _ _ _ run)
  | PUBLISH =>
      rw [type, decodeMessage, Reader.run_map] at run
      rcases map_eq_ok.mp run with ⟨result, found, -⟩
      rcases Publish.inside_or_misled found with within | ⟨more, misled⟩
      · exact .inl ((Reader.inside_map _).mpr within)
      · refine .inr ⟨more, fun k longer => ?_⟩
        rw [decodeMessage, Reader.run_map] at longer
        rcases map_eq_ok.mp longer with ⟨other, again, -⟩
        exact misled other again
  | PUBACK | PUBREC | PUBREL | PUBCOMP =>
      rw [type] at run
      exact Ack.inside_or_misled rfl run
  | SUBSCRIBE =>
      rw [type] at run
      exact .inl (Subscribe.inside_of_run run)
  | SUBACK =>
      rw [type] at run
      exact SubAck.inside_or_misled run
  | UNSUBSCRIBE =>
      rw [type] at run
      exact .inl (UnSubscribe.inside_of_run run)
  | UNSUBACK =>
      rw [type] at run
      exact UnSubAck.inside_or_misled run
  | PINGREQ => exact .inl (Reader.inside_pure _)
  | PINGRESP => exact .inl (Reader.inside_pure _)
  | DISCONNECT =>
      rw [type] at run
      exact .inl (Disconnect.honest_decodeMessage _ _ _ _ _ run)
  | AUTH =>
      rw [type] at run
      exact .inl (Auth.honest_decodeMessage _ _ _ _ run)

/-- For a frame that is accepted, discipline is exactly that no field is cut off and that the
fields take the whole frame; for a frame that is rejected it is enough that no field is cut off. -/
theorem discipline (v : ProtocolVersion) (f : Frame) :
    (f.Accepted v → (f.Disciplined v ↔ f.Inside v ∧ f.Spans v)) ∧
      (¬f.Accepted v → f.Inside v → f.Disciplined v) := by
  constructor
  · intro accepted
    rcases accepted_iff.mp accepted with ⟨msg, n, run⟩
    constructor
    · intro disciplined
      have within : f.Inside v := by
        rcases inside_or_misled run with within | ⟨more, misled⟩
        · exact within
        · exact absurd disciplined (not_disciplined_of_differs run misled)
      have full := (disciplined_iff_of_inside within).mp disciplined msg n run
      exact ⟨within, (consumed_iff_spans within run).mp full⟩
    · rintro ⟨within, spans⟩
      refine (disciplined_iff_of_inside within).mpr fun other k again => ?_
      exact (consumed_iff_spans within again).mpr spans
  · intro rejected within
    refine (disciplined_iff_of_inside within).mpr fun msg n run => ?_
    exact absurd (accepted_iff.mpr ⟨msg, n, run⟩) rejected

/-- A PINGREQ without a body. -/
def pingReq : Frame := .of 0xC0 [] (by decide)

theorem pingReq_disciplined : pingReq.Disciplined ProtocolV311 := by
  have accepted : pingReq.Accepted ProtocolV311 := ⟨_, 2, rfl⟩
  have within : pingReq.Inside ProtocolV311 := trivial
  exact ((discipline ProtocolV311 pingReq).1 accepted).mpr ⟨within, rfl⟩

/-- A PUBACK of V5.0 with nothing but its identifier. -/
def bareAck : Frame := .of 0x40 [0, 7] (by decide)

/-- The packet that follows a bare acknowledgement is taken for its reason code. -/
theorem following_packet_read : ¬bareAck.Disciplined ProtocolV50 := by
  intro disciplined
  have same := (disciplined [0xC0, 0x00]).1
  have alone : ((decode ProtocolV50 bareAck.bytes).map Prod.snd) = .ok 4 := by rfl
  have followed : decode ProtocolV50 (bareAck.bytes ++ [0xC0, 0x00]) =
      .error (.reason CodeMalformedPacket) := by rfl
  rw [followed] at same
  rcases map_eq_ok.mp alone with ⟨result, read, -⟩
  simp [read, Except.map] at same

end Frame

end VolantMQ.Packet
