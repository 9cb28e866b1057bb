import VolantMQ.Packet.Clone
import VolantMQ.Packet.Resend

/-!
# PUBLISH packets that are built with the setters

The broker and its plugins build packets with `New` and the setters of `publish.go`. A packet that
is built so, with every property set at most once and to a value of its own type, is read back as
it was built. Setting a property twice is left out on purpose: `property.Set` adds the length of
the new value and never takes off that of the old one.
-/

namespace VolantMQ.Packet

open Lib

/-- A block that was built from a few values of the right types is read back as it is. -/
theorem Property.Built.exact {t : PacketType} {p : Property} {entries : List PropertyEntry}
    (built : p.Built entries)
    (typed : ∀ entry ∈ entries, Canonical (propertyTypeMap entry.1) entry.2)
    (allowed : ∀ entry ∈ entries, PropertyID.isValidPacketType entry.1 t = true)
    (short : weight entries < 2 ^ 29) : p.Exact t := by
  have members : ∀ id val, p.get id = some val → (⟨id, val⟩ : PropertyEntry) ∈ entries :=
    fun id val found => built.held.mem_iff.mp (AList.mem_lookup_iff.mp found)
  have length : p.len.toNat = weight entries := by
    rw [built.counted, UInt32.toNat_ofNat', Nat.mod_eq_of_lt (by omega)]
  refine ⟨?_, ?_, by rw [length, built.weight_eq], by omega⟩
  · exact fun id val found => typed _ (members id val found)
  · exact fun id val found => allowed _ (members id val found)

namespace Publish

/-- `Publish.SetPayload` -/
def setPayload (msg : Publish) (v : Bytes) : Publish := { msg with payload := v }

/-- `Publish.SetExpiry` -/
def setExpiry (msg : Publish) (tm : Option Time) : Publish := { msg with expireAt := tm }

/-- `Publish.SetPublishID` -/
def setPublishID (msg : Publish) (id : ℕ) : Publish := { msg with publishID := id }

/-- A call of one of the setters. -/
inductive Setter where
  | topic (v : GoString)
  | payload (v : Bytes)
  | qos (v : QosType)
  | dup (v : Bool)
  | retain (v : Bool)
  | packetID (v : IDType)
  | all (t : GoString) (p : Bytes) (q : QosType) (r d : Bool)
  | property (id : PropertyID) (val : PropertyValue)
  | expiry (tm : Option Time)
  | publishID (id : ℕ)

def Setter.apply (msg : Publish) : Setter → Except PacketError Publish
  | topic v => msg.setTopic v
  | payload v => .ok (msg.setPayload v)
  | qos v => msg.setQoS v
  | dup v => .ok (msg.setDup v)
  | retain v => .ok (msg.setRetain v)
  | packetID v => .ok (msg.setPacketID v)
  | all t p q r d => msg.set t p q r d
  | property id val => msg.propertySet id val
  | expiry tm => .ok (msg.setExpiry tm)
  | publishID id => .ok (msg.setPublishID id)

/-- `New(v, PUBLISH)` followed by calls of setters that all succeed. -/
def build (v : ProtocolVersion) (setters : List Setter) : Except PacketError Publish :=
  setters.foldlM Setter.apply (Publish.new v)

/-- The property that a call sets. -/
def Setter.entry : Setter → Option PropertyEntry
  | property id val => some ⟨id, val⟩
  | _ => none

/-- The properties that are set, in the order of the calls. -/
def propertyCalls (setters : List Setter) : List PropertyEntry := setters.filterMap Setter.entry

/-- What holds of a packet while it is built, with the properties set so far. -/
structure Building (v : ProtocolVersion) (msg : Publish) (entries : List PropertyEntry) : Prop where
  version : msg.version = v
  topicValid : msg.topic ≠ [] → validTopic msg.topic = true
  flags : msg.mFlags.toNat < 16
  qosValid : msg.qos.isValid = true
  properties : msg.properties.Built entries
  known : ∀ entry ∈ entries, entry.1 ∈ publishPropertyIDs
  old : v ≠ ProtocolV50 → entries = []

theorem building_new (v : ProtocolVersion) : Building v (Publish.new v) [] where
  version := rfl
  topicValid nonempty := absurd rfl nonempty
  flags := show PacketType.PUBLISH.defaultFlags.toNat < 16 by decide
  qosValid := show QosType.isValid ((PacketType.PUBLISH.defaultFlags &&& maskPublishFlagQoS) >>> 1) =
    true by decide
  properties := Property.built_empty
  known := by simp
  old _ := rfl

theorem putFlag_keeps {flags mask : UInt8} (small : flags.toNat < 16)
    (masked : mask = maskPublishFlagDup ∨ mask = maskPublishFlagRetain) (v : Bool) :
    (putFlag flags mask v).toNat < 16 ∧
      putFlag flags mask v &&& maskPublishFlagQoS = flags &&& maskPublishFlagQoS := by
  revert v
  rcases masked with rfl | rfl
  · apply @forall_nibble (fun flags => ∀ v, (putFlag flags maskPublishFlagDup v).toNat < 16 ∧
      putFlag flags maskPublishFlagDup v &&& maskPublishFlagQoS =
        flags &&& maskPublishFlagQoS) _ flags small
    decide
  · apply @forall_nibble (fun flags => ∀ v, (putFlag flags maskPublishFlagRetain v).toNat < 16 ∧
      putFlag flags maskPublishFlagRetain v &&& maskPublishFlagQoS =
        flags &&& maskPublishFlagQoS) _ flags small
    decide

theorem putQoS_keeps {flags : UInt8} {q : QosType} (small : flags.toNat < 16)
    (valid : q.isValid = true) :
    (putQoS flags q).toNat < 16 ∧ (putQoS flags q &&& maskPublishFlagQoS) >>> 1 = q := by
  have values : q = QoS0 ∨ q = QoS1 ∨ q = QoS2 := by
    simpa [QosType.isValid, or_assoc] using valid
  rcases values with rfl | rfl | rfl
  all_goals
    apply @forall_nibble (fun flags => (putQoS flags _).toNat < 16 ∧
      (putQoS flags _ &&& maskPublishFlagQoS) >>> 1 = _) _ flags small
    decide

section Steps

variable {v : ProtocolVersion} {msg next : Publish} {entries : List PropertyEntry}

theorem Building.withFlags (building : Building v msg entries) {flags : UInt8}
    (small : flags.toNat < 16)
    (valid : QosType.isValid ((flags &&& maskPublishFlagQoS) >>> 1) = true) :
    Building v { msg with mFlags := flags } entries where
  version := building.version
  topicValid := building.topicValid
  flags := small
  qosValid := valid
  properties := building.properties
  known := building.known
  old := building.old

theorem Building.putFlag (building : Building v msg entries) {mask : UInt8}
    (masked : mask = maskPublishFlagDup ∨ mask = maskPublishFlagRetain) (value : Bool) :
    Building v { msg with mFlags := Publish.putFlag msg.mFlags mask value } entries := by
  have kept := putFlag_keeps building.flags masked value
  refine building.withFlags kept.1 ?_
  rw [kept.2]
  exact building.qosValid

theorem Building.putQoS (building : Building v msg entries) {q : QosType}
    (valid : q.isValid = true) :
    Building v { msg with mFlags := Publish.putQoS msg.mFlags q } entries := by
  have kept := putQoS_keeps building.flags valid
  refine building.withFlags kept.1 ?_
  rw [kept.2]
  exact valid

theorem Building.withTopic (building : Building v msg entries) {t : GoString}
    (valid : validTopic t = true) : Building v { msg with topic := t } entries :=
  ⟨building.version, fun _ => valid, building.flags, building.qosValid, building.properties,
    building.known, building.old⟩

/-- Setting a property that was not set before. -/
theorem Building.propertySet (building : Building v msg entries) {id : PropertyID}
    {val : PropertyValue} (fresh : ∀ entry ∈ entries, entry.1 ≠ id)
    (run : msg.propertySet id val = .ok next) :
    Building v next (entries ++ [⟨id, val⟩]) := by
  simp only [Publish.propertySet] at run
  split at run
  · simp at run
  · rename_i five
    have isFive : v = ProtocolV50 := by simpa [building.version] using five
    have allowed : PropertyID.isValidPacketType id .PUBLISH = true := by
      unfold PropertyID.isValidPacketType
      simp only [Property.set] at run
      split at run
      · simp [Except.map] at run
      · split at run
        · simp [Except.map] at run
        · rename_i types found present
          cases entry : types.lookup PacketType.PUBLISH with
          | none => simp [entry] at present
          | some dup => rfl
    have known := mem_publishPropertyIDs allowed
    rcases building.properties.set allowed val fresh with ⟨filled, set, built⟩
    simp only [set, Except.map, Except.ok.injEq] at run
    subst run
    refine ⟨building.version, building.topicValid, building.flags, building.qosValid, built, ?_,
      fun old => absurd isFive old⟩
    intro entry member
    rcases List.mem_append.mp member with before | new
    · exact building.known entry before
    · rw [List.mem_singleton] at new
      exact new ▸ known

/-- Every setter keeps what holds of the packet. -/
theorem Building.apply (building : Building v msg entries) {setter : Setter}
    (fresh : ∀ entry ∈ entries, ∀ new ∈ setter.entry, entry.1 ≠ new.1)
    (run : setter.apply msg = .ok next) :
    Building v next (entries ++ setter.entry.toList) := by
  have kept : setter.entry = none → Building v next entries →
      Building v next (entries ++ setter.entry.toList) := by
    intro none building
    rwa [none, Option.toList_none, List.append_nil]
  cases setter with
  | topic t =>
      simp only [Setter.apply, setTopic] at run
      split at run
      · simp at run
      · rename_i valid
        simp only [Bool.or_eq_true, not_or, Bool.not_eq_true, Bool.not_eq_false'] at valid
        simp only [Except.ok.injEq] at run
        subst run
        refine kept rfl ?_
        exact building.withTopic valid.2
  | qos q =>
      simp only [Setter.apply, setQoS] at run
      split at run
      · simp at run
      · rename_i valid
        simp only [Except.ok.injEq] at run
        subst run
        refine kept rfl ?_
        exact building.putQoS (by simpa using valid)
  | all t p q r d =>
      simp only [Setter.apply, set] at run
      split at run
      · simp at run
      · rename_i topicValid
        split at run
        · simp at run
        · rename_i qosValid
          simp only [Except.ok.injEq] at run
          subst run
          refine kept rfl ?_
          have step := ((building.putQoS (by simpa using qosValid)).putFlag (.inl rfl) d).putFlag
            (.inr rfl) r
          have named := step.withTopic (show validTopic t = true by simpa using topicValid)
          exact ⟨named.version, named.topicValid, named.flags, named.qosValid, named.properties,
            named.known, named.old⟩
  | property id val =>
      exact building.propertySet (fun entry member => fresh entry member _ rfl) run
  | dup value =>
      simp only [Setter.apply, Except.ok.injEq] at run
      subst run
      refine kept rfl ?_
      exact building.putFlag (.inl rfl) value
  | retain value =>
      simp only [Setter.apply, Except.ok.injEq] at run
      subst run
      refine kept rfl ?_
      exact building.putFlag (.inr rfl) value
  | payload | packetID | expiry | publishID =>
      -- fields that nothing here depends on
      simp only [Setter.apply, Except.ok.injEq] at run
      subst run
      refine kept rfl ?_
      exact ⟨building.version, building.topicValid, building.flags, building.qosValid,
        building.properties, building.known, building.old⟩

theorem Building.run {setters : List Setter} (building : Building v msg entries)
    (once : (entries ++ propertyCalls setters).NodupKeys)
    (run : setters.foldlM Setter.apply msg = .ok next) :
    Building v next (entries ++ propertyCalls setters) := by
  induction setters generalizing msg entries with
  | nil =>
      simp only [List.foldlM_nil, pure, Except.pure, Except.ok.injEq] at run
      subst run
      simpa [propertyCalls] using building
  | cons setter setters ih =>
      have split : entries ++ propertyCalls (setter :: setters) =
          (entries ++ setter.entry.toList) ++ propertyCalls setters := by
        cases entry : setter.entry <;> simp [propertyCalls, entry]
      rw [split] at once ⊢
      rw [List.foldlM_cons] at run
      cases step : setter.apply msg with
      | error e => simp [step, bind, Except.bind] at run
      | ok mid =>
          simp only [step, bind, Except.bind] at run
          refine ih (building.apply ?_ step) once run
          intro entry member new isNew same
          have distinct := List.pairwise_append.mp (List.nodupKeys_iff_pairwise.mp once)
          have here := List.pairwise_append.mp distinct.1
          exact here.2.2 entry member new (Option.mem_toList.mpr isNew) same

end Steps

/-- The number of bytes of a packet after its fixed header, if nothing overflows. -/
def wireLength (msg : Publish) : ℕ :=
  2 + msg.topic.length + msg.payload.length + (if msg.qos ≠ QoS0 then 2 else 0) +
    if msg.version = ProtocolV50 then
      (putUvarint (weight msg.properties.properties.entries)).length +
        weight msg.properties.properties.entries
    else 0

section Built

variable {v : ProtocolVersion} {msg : Publish} {entries : List PropertyEntry}

theorem Building.exact (building : Building v msg entries)
    (typed : ∀ entry ∈ entries, Canonical (propertyTypeMap entry.1) entry.2)
    (short : weight msg.properties.properties.entries < 2 ^ 29) :
    msg.properties.Exact .PUBLISH := by
  rw [building.properties.weight_eq] at short
  exact building.properties.exact typed
    (fun entry member => isValidPacketType_of_mem (building.known entry member)) short

theorem Building.empty_of_old (building : Building v msg entries) (old : v ≠ ProtocolV50) :
    msg.properties = .empty := by
  have held := building.properties.held
  have counted := building.properties.counted
  rw [building.old old] at held counted
  have none : msg.properties.properties = ∅ := AList.ext held.eq_nil
  rcases properties : msg.properties with ⟨map, len⟩
  rw [properties] at none counted
  simp only at none counted
  rw [none, counted]
  rfl

theorem size_eq_wireLength (exact : msg.properties.Exact .PUBLISH) : msg.size = msg.wireLength := by
  have full := Property.toNat_fullLen exact.encodable
  rw [uvarintCalc_eq_length, exact.counted] at full
  unfold size wireLength
  rw [full, QoS0_eq, Nat.add_comm (weight _)]

/-- A packet that was built can be sent, with the identifier that goes onto the wire. -/
theorem Building.sendable (building : Building v msg entries)
    (typed : ∀ entry ∈ entries, Canonical (propertyTypeMap entry.1) entry.2)
    (named : msg.topic ≠ []) (topicFits : msg.topic.length ≤ MaxLPString)
    (dup : msg.dup = true → msg.qos ≠ QoS0) (identified : msg.qos ≠ QoS0 → msg.packetID.isSome)
    (short : msg.wireLength ≤ 268435455) :
    ({ msg with packetID := msg.wireID } : Publish).Sendable v := by
  have few : weight msg.properties.properties.entries < 2 ^ 29 := by
    by_cases five : v = ProtocolV50
    · simp only [wireLength, building.version, if_pos five] at short
      omega
    · rw [building.empty_of_old five]
      decide
  have exact := building.exact typed few
  refine ⟨building.version, building.topicValid named, topicFits, ?_, building.flags,
    building.qosValid, ?_, ?_, exact, building.empty_of_old, ?_⟩
  · intro empty
    exact absurd (List.length_eq_zero_iff.mp empty) named
  · intro plain
    have fresh : msg.dup = false := by
      by_contra set
      exact dup (by simpa using set) plain
    exact fresh
  · intro ack
    have here : msg.qos ≠ QoS0 := ack
    change (if msg.qos ≠ QoS0 then msg.packetID else none).isSome
    rw [if_pos here]
    exact identified here
  · have size : ({ msg with packetID := msg.wireID } : Publish).size = msg.size := rfl
    rw [size, size_eq_wireLength exact]
    exact short

end Built

/-- A packet built with setters is read back as it was built, in every iteration order of its
properties. Of the identifier of a QoS 0 packet nothing goes onto the wire. -/
theorem decode_of_built {v : ProtocolVersion} {setters : List Setter} {msg : Publish}
    (built : build v setters = .ok msg) (once : (propertyCalls setters).NodupKeys)
    (typed : ∀ entry ∈ propertyCalls setters, Canonical (propertyTypeMap entry.1) entry.2)
    (named : msg.topic ≠ []) (topicFits : msg.topic.length ≤ MaxLPString)
    (dup : msg.dup = true → msg.qos ≠ QoS0) (identified : msg.qos ≠ QoS0 → msg.packetID.isSome)
    (short : msg.wireLength ≤ 268435455) (order : MapOrder PropertyEntry) :
    ∃ buf back, (Message.publish msg).encode order = .ok buf ∧
      decode v buf = .ok (.publish back, buf.length) ∧ back.topic = msg.topic ∧
      back.payload = msg.payload ∧ back.qos = msg.qos ∧ back.dup = msg.dup ∧
      back.retain = msg.retain ∧ (msg.qos ≠ QoS0 → back.packetID = msg.packetID) ∧
      (msg.qos = QoS0 → back.packetID = none) ∧ msg.properties.Same back.properties := by
  have building := (building_new v).run once built
  rw [List.nil_append] at building
  have sendable := building.sendable typed named topicFits dup identified short
  have wire : ({ msg with packetID := msg.wireID } : Publish).wireID = msg.wireID := by
    change (if msg.qos ≠ QoS0 then msg.wireID else none) = msg.wireID
    unfold wireID
    split <;> rfl
  rcases sendable.restored order wire with ⟨buf, encoded, again, decoded, same⟩
  rw [encode_wireID] at encoded
  cases again with
  | control h body => exact absurd same id
  | publish back =>
      rcases same with ⟨-, flags, id, topic, payload, properties⟩
      have flagsEq : back.mFlags = msg.mFlags := flags.symm
      have idEq : back.packetID = msg.wireID := id.symm
      refine ⟨buf, back, encoded, decoded, topic.symm, payload.symm, ?_, ?_, ?_, ?_, ?_, properties⟩
      · rw [qos, qos, flagsEq]
      · rw [Publish.dup, Publish.dup, flagsEq]
      · rw [retain, retain, flagsEq]
      · intro ack
        rw [idEq, wireID, if_pos ack]
      · intro plain
        rw [idEq, wireID, if_neg (not_not.mpr plain)]

/-- Calls that build a QoS 1 packet with a subscription identifier and two user properties. -/
def sampleSetters : List Setter :=
  [.all (ascii "a/b") [1, 2, 3] QoS1 true true, .packetID 7,
    .property PropertySubscriptionIdentifier (.int 200),
    .property PropertyUserProperty (.pairs [⟨[], ascii "x"⟩, ⟨[], ascii "y"⟩])]

theorem decode_sampleSetters :
    ∃ msg, build ProtocolV50 sampleSetters = .ok msg ∧ ∀ order, ∃ buf back,
      (Message.publish msg).encode order = .ok buf ∧
        decode ProtocolV50 buf = .ok (.publish back, buf.length) ∧
        msg.properties.Same back.properties := by
  refine ⟨_, rfl, fun order => ?_⟩
  have typed : ∀ entry ∈ propertyCalls sampleSetters,
      Canonical (propertyTypeMap entry.1) entry.2 := by
    intro entry member
    simp only [propertyCalls, sampleSetters, List.filterMap_cons, Setter.entry, List.filterMap_nil,
      List.mem_cons, List.not_mem_nil, or_false] at member
    rcases member with rfl | rfl
    · exact .varInt (by decide)
    · exact .pairs (by decide) (by decide) (by decide)
  have once : (propertyCalls sampleSetters).keys.Nodup := by decide
  have built : build ProtocolV50 sampleSetters = .ok _ := rfl
  rcases decode_of_built built once typed (by decide) (by decide) (by decide) (by decide)
    (by decide) order with ⟨buf, back, encoded, decoded, -, -, -, -, -, -, -, same⟩
  exact ⟨buf, back, encoded, decoded, same⟩

end Publish

end VolantMQ.Packet
