import VolantMQ.Packet.RoundTrip

/-!
# What a decoded PUBLISH looks like

The decoder is the only check between the network and the broker. This file collects what a
packet satisfies once it is accepted: its topic is valid and fits its length field, its QoS is
valid, its property values have the shape of their property type, and all of it together is
bounded by the length announced in the fixed header.
-/

namespace VolantMQ.Packet

open Lib

theorem weight_cons (entry : PropertyEntry) (entries : List PropertyEntry) :
    weight (entry :: entries) = propertyCalcLen entry.1 entry.2 + weight entries := by
  simp [weight]

theorem weight_append (left right : List PropertyEntry) :
    weight (left ++ right) = weight left + weight right := by
  simp [weight]

/-- Setting a property replaces the weight of its old value. -/
theorem weight_insert (props : PropertyMap) (id : PropertyID) (val : PropertyValue) :
    weight (props.insert id val).entries + ((props.lookup id).map (propertyCalcLen id)).getD 0 =
      weight props.entries + propertyCalcLen id val := by
  rw [AList.entries_insert, weight_cons]
  cases look : props.lookup id with
  | none =>
      rw [List.kerase_of_notMem_keys (AList.lookup_eq_none.mp look)]
      simp [Nat.add_comm]
  | some old =>
      have key : id ∈ props.entries.keys := AList.lookup_isSome.mp (by simp [look])
      rcases List.exists_of_kerase key with ⟨found, front, back, _, whole, erased⟩
      have same : found = old := by
        have member : (⟨id, found⟩ : PropertyEntry) ∈ props.entries := by simp [whole]
        rw [← AList.mem_lookup_iff, look, Option.mem_some_iff] at member
        exact member.symm
      subst found
      rw [erased, whole, weight_append, weight_append, weight_cons]
      simp only [Option.map_some, Option.getD_some]
      omega

theorem calcLenItems_append {α : Type} (id : PropertyID) (width : α → ℕ) (left right : List α) :
    calcLenItems id width (left ++ right) =
      calcLenItems id width left + calcLenItems id width right := by
  simp [calcLenItems]

/-- A pair is stored behind those that are there. -/
theorem stores_pair {id : PropertyID} {props : PropertyMap} {src k v : Bytes} {n m : ℕ}
    {old : List StringPair}
    (shaped : ∀ val, props.lookup id = some val → WellShaped .stringPair val)
    (readKey : readLPBytes src = .ok (k, n)) (keyValid : utf8Valid k = true)
    (read : readLPBytes (src.drop n) = .ok (v, m)) (valid : utf8Valid v = true)
    (before : (props.lookup id = none ∧ old = []) ∨ props.lookup id = some (.pairs old)) :
    Canonical .stringPair (.pairs (old ++ [⟨k, v⟩])) ∧
      calcLenStringPair id (.pairs (old ++ [⟨k, v⟩])) =
        ((props.lookup id).map (calcLenStringPair id)).getD 0 + uvarintCalc id + (n + m) ∧
      n + m ≤ src.length := by
  have keyBound := readLPBytes_eq_ok readKey
  have bound := readLPBytes_eq_ok read
  rw [List.length_drop] at bound
  have oldFine : ∀ pair ∈ old, (utf8Valid pair.K = true ∧ utf8Valid pair.V = true) ∧
      pair.K.length ≤ MaxLPString ∧ pair.V.length ≤ MaxLPString := by
    rcases before with ⟨-, rfl⟩ | present
    · nofun
    · cases shaped _ present with
      | pairs valid fits => exact fun pair member => ⟨valid pair member, fits pair member⟩
  have total : calcLenStringPair id (.pairs (old ++ [⟨k, v⟩])) =
      calcLenStringPair id (.pairs old) + uvarintCalc id + (n + m) := by
    have sum : calcLenStringPair id (.pairs (old ++ [⟨k, v⟩])) =
        calcLenStringPair id (.pairs old) + calcLenStringPair id (.pairs [⟨k, v⟩]) :=
      calcLenItems_append id _ old [⟨k, v⟩]
    have single : calcLenStringPair id (.pairs [⟨k, v⟩]) = uvarintCalc id + (n + m) := by
      simp only [calcLenStringPair, calcLenItems, PropertyValue.pairItems, List.map_cons,
        List.map_nil, List.sum_cons, List.sum_nil]
      omega
    omega
  refine ⟨.pairs (by simp) ?_ ?_, ?_, by omega⟩
  · intro pair member
    rcases List.mem_append.mp member with earlier | new
    · exact (oldFine pair earlier).1
    · rw [List.mem_singleton] at new
      exact new ▸ ⟨keyValid, valid⟩
  · intro pair member
    rcases List.mem_append.mp member with earlier | new
    · exact (oldFine pair earlier).2
    · rw [List.mem_singleton] at new
      exact new ▸ ⟨keyBound.1, bound.1⟩
  · rw [total]
    rcases before with ⟨absent, rfl⟩ | present
    · rw [absent]
      rfl
    · rw [present]
      rfl

/-- The number of bytes that a decoded value takes when it is written again. -/
def rewritten (type : PropertyType) (src : Bytes) (k : ℕ) : ℕ :=
  if type = .varInt then uvarintCalc (uvarint src).1 else k

/-- The weight of the pairs that a new pair is appended to. -/
def extended (type : PropertyType) (id : PropertyID) (props : PropertyMap) : ℕ :=
  if type = .stringPair then ((props.lookup id).map (propertyCalcLen id)).getD 0 else 0

/-- A value decoder stores one value under its identifier. Only for variable-length integers may
the value take fewer bytes than were read. -/
theorem propertyDecodeType_stores {id : PropertyID} {props next : PropertyMap} {src : Bytes} {k : ℕ}
    (old : ∀ val, props.lookup id = some val → WellShaped (propertyTypeMap id) val)
    (run : propertyDecodeType id props src = .ok (next, k)) :
    ∃ val, next = props.insert id val ∧ Canonical (propertyTypeMap id) val ∧
      propertyCalcLen id val = extended (propertyTypeMap id) id props + uvarintCalc id +
        rewritten (propertyTypeMap id) src k ∧
      rewritten (propertyTypeMap id) src k ≤ k ∧ k ≤ src.length := by
  rcases exists_decodedAs run with ⟨val, stored, decoded⟩
  refine ⟨val, stored, ?_⟩
  unfold extended propertyCalcLen
  generalize propertyTypeMap id = type at old decoded
  cases decoded with
  | byte value rest =>
      refine ⟨.byte value, ?_, le_refl _, by simp⟩
      simp [calcLenByte, calcLenItems, PropertyValue.byteItems, rewritten, Nat.add_comm]
  | short high low rest =>
      refine ⟨.short _, ?_, le_refl _, by simp⟩
      simp [calcLenShort, calcLenItems, PropertyValue.shortItems, rewritten, Nat.add_comm]
  | int b3 b2 b1 b0 rest =>
      refine ⟨.int _, ?_, le_refl _, by simp⟩
      simp [calcLenInt, calcLenItems, PropertyValue.intItems, rewritten, Nat.add_comm]
  | varInt read positive =>
      have bound := uvarint_bound read (by omega)
      refine ⟨.varInt bound.1, ?_, ?_, by omega⟩
      · simp [calcLenVarInt, calcLenItems, PropertyValue.intItems, rewritten, read, Nat.add_comm]
      · simp only [rewritten, if_true, read]
        omega
  | string read valid =>
      have bound := readLPBytes_eq_ok read
      refine ⟨.string valid bound.1, ?_, le_refl _, by omega⟩
      simp only [calcLenString, calcLenItems, PropertyValue.stringItems, rewritten,
        List.map_cons, List.map_nil, List.sum_cons, List.sum_nil, reduceCtorEq, if_false]
      omega
  | binary read =>
      have bound := readLPBytes_eq_ok read
      refine ⟨.binary bound.1, ?_, le_refl _, by omega⟩
      simp only [calcLenBinary, calcLenItems, PropertyValue.binaryLengths, rewritten,
        List.map_cons, List.map_nil, List.sum_cons, List.sum_nil, reduceCtorEq, if_false]
      omega
  | stringPair readKey keyValid read valid before =>
      rcases stores_pair old readKey keyValid read valid before with ⟨canonical, counted, within⟩
      exact ⟨canonical, counted, le_refl _, within⟩

/-- A value decoder stores one well-shaped value under its identifier, whose weight is covered
by the bytes consumed and by the value it extends. -/
theorem propertyDecodeType_spec {id : PropertyID} {props next : PropertyMap} {src : Bytes} {k : ℕ}
    (old : ∀ val, props.lookup id = some val → WellShaped (propertyTypeMap id) val)
    (run : propertyDecodeType id props src = .ok (next, k)) :
    ∃ val, next = props.insert id val ∧ WellShaped (propertyTypeMap id) val ∧
      propertyCalcLen id val ≤
        ((props.lookup id).map (propertyCalcLen id)).getD 0 + uvarintCalc id + k ∧
      k ≤ src.length := by
  rcases propertyDecodeType_stores old run with ⟨val, rfl, canonical, counted, shorter, within⟩
  refine ⟨val, rfl, canonical.wellShaped, ?_, within⟩
  have extends_le : extended (propertyTypeMap id) id props ≤
      ((props.lookup id).map (propertyCalcLen id)).getD 0 := by
    unfold extended
    split
    · exact le_refl _
    · exact Nat.zero_le _
  omega

namespace Property

/-- What holds of a property block while it is read: all values have the shape of their type,
their identifiers may appear in the packet, and their weight is covered by the bytes read. -/
structure Read (t : PacketType) (p : Property) (consumed : ℕ) : Prop where
  shaped : ∀ id val, p.properties.lookup id = some val → WellShaped (propertyTypeMap id) val
  allowed : ∀ id val, p.properties.lookup id = some val →
    PropertyID.isValidPacketType id t = true
  covered : weight p.properties.entries ≤ consumed

theorem Read.step {t : PacketType} {p : Property} {consumed : ℕ} (read : Read t p consumed)
    {id : PropertyID} {val : PropertyValue} {len : UInt32} {more : ℕ}
    (allowed : PropertyID.isValidPacketType id t = true)
    (shaped : WellShaped (propertyTypeMap id) val)
    (covered : propertyCalcLen id val ≤
      ((p.properties.lookup id).map (propertyCalcLen id)).getD 0 + more) :
    Read t ⟨p.properties.insert id val, len⟩ (consumed + more) := by
  refine ⟨?_, ?_, ?_⟩
  · intro other found look
    by_cases same : other = id
    · subst other
      rw [AList.lookup_insert, Option.some.injEq] at look
      exact look ▸ shaped
    · rw [AList.lookup_insert_ne same] at look
      exact read.shaped other found look
  · intro other found look
    by_cases same : other = id
    · exact same ▸ allowed
    · rw [AList.lookup_insert_ne same] at look
      exact read.allowed other found look
  · have replaced := weight_insert p.properties id val
    have before := read.covered
    simp only
    omega

theorem read_decodeLoop {t : PacketType} {rounds : ℕ} {p done : Property} {pLen : UInt32}
    {slice : Bytes} {offset n : ℕ} (read : Read t p offset)
    (run : decodeLoop t rounds p pLen slice offset = .ok (done, n)) :
    Read t done n ∧ n ≤ offset + slice.length := by
  induction rounds generalizing p pLen slice offset with
  | zero => simp [decodeLoop, malformed] at run
  | succ rounds ih =>
      rcases decodeLoop_eq_ok run with ⟨-, rfl, rfl⟩ |
        ⟨id, prefixLen, props, k, -, header, positive, allowed, -, value, rest⟩
      · exact ⟨read, by omega⟩
      · have bound := uvarint_bound header positive
        rcases propertyDecodeType_spec (read.shaped id) value with
          ⟨val, rfl, shaped, covered, within⟩
        rw [List.length_drop] at within
        have next := ih (read.step allowed shaped (by omega)) rest
        rw [List.length_drop] at next
        exact ⟨next.1, by omega⟩

theorem read_empty (t : PacketType) (consumed : ℕ) : Read t empty consumed :=
  ⟨by simp [empty], by simp [empty], by simp [empty, weight]⟩

theorem read_decode {t : PacketType} {done : Property} {src : Bytes} {n : ℕ}
    (run : Property.empty.decode t src = .ok (done, n)) : Read t done n ∧ n ≤ src.length := by
  rcases header : uvarint src with ⟨pLen, lCount⟩
  rw [decode, header] at run
  simp only [malformed] at run
  split at run
  · simp at run
  · have bound := uvarint_bound header (by omega)
    have read := read_decodeLoop (read_empty t _) run
    rw [List.length_drop] at read
    exact ⟨read.1, by omega⟩

end Property

namespace Publish

/-- What a PUBLISH satisfies once a decoder of version `v` has accepted it. -/
structure Arrived (v : ProtocolVersion) (msg : Publish) : Prop where
  version : msg.version = v
  topicValid : validTopic msg.topic = true
  topicFits : msg.topic.length ≤ MaxLPString
  named : msg.topic.length = 0 → v = ProtocolV50 ∧
    ∃ number, msg.propertyGet PropertyTopicAlias = some (.short number)
  flags : msg.mFlags.toNat < 16
  qosValid : msg.qos.isValid = true
  shaped : ∀ id val, msg.properties.properties.lookup id = some val →
    WellShaped (propertyTypeMap id) val
  known : ∀ id val, msg.properties.properties.lookup id = some val → id ∈ publishPropertyIDs
  bounded : msg.topic.length + weight msg.properties.properties.entries + msg.payload.length <
    2 ^ 31

/-- What `decodeProperties` adds to a packet. -/
theorem decodeProperties_spec {msg next : Publish} {src : Bytes} {n : ℕ}
    (blank : msg.properties = .empty) (run : msg.decodeProperties src = .ok (next, n)) :
    ∃ properties, next = { msg with properties } ∧ properties.Read .PUBLISH n ∧ n ≤ src.length ∧
      (msg.topic.length = 0 → msg.version = ProtocolV50 →
        ∃ number, next.propertyGet PropertyTopicAlias = some (.short number)) := by
  by_cases five : msg.version = ProtocolV50
  · simp only [decodeProperties, if_pos five, blank] at run
    cases decoded : Property.empty.decode .PUBLISH src with
    | error fault => simp [decoded] at run
    | ok result =>
        rcases result with ⟨properties, m⟩
        simp only [decoded] at run
        have read := Property.read_decode decoded
        split at run
        · rename_i empty
          split at run
          · rename_i number found
            split at run
            · simp only [Except.ok.injEq, Prod.mk.injEq] at run
              rcases run with ⟨rfl, rfl⟩
              exact ⟨properties, rfl, read.1, read.2, fun _ _ => ⟨number, found⟩⟩
            · simp at run
          · simp at run
        · rename_i present
          simp only [Except.ok.injEq, Prod.mk.injEq] at run
          rcases run with ⟨rfl, rfl⟩
          exact ⟨properties, rfl, read.1, read.2, fun empty => absurd empty present⟩
  · rw [decodeProperties_of_old five] at run
    simp only [Except.ok.injEq, Prod.mk.injEq] at run
    rcases run with ⟨rfl, rfl⟩
    exact ⟨.empty, by rw [← blank], Property.read_empty _ _, Nat.zero_le _,
      fun _ isFive => absurd isFive five⟩

theorem decodeMessageID_spec (msg : Publish) (src : Bytes) :
    ∃ id, (msg.decodeMessageID src).1 = { msg with packetID := id } := by
  unfold decodeMessageID
  split
  · exact ⟨_, rfl⟩
  · exact ⟨msg.packetID, rfl⟩

theorem decodePayload_spec {msg next : Publish} {remLen : Int} {offset n : ℕ} {src : Bytes}
    (blank : msg.payload = []) (run : msg.decodePayload remLen offset src = .ok (next, n)) :
    ∃ payload, next = { msg with payload } ∧ (offset + payload.length : Int) ≤ remLen := by
  simp only [decodePayload] at run
  split at run
  · simp [rejectWith] at run
  · split at run
    · simp [rejectWith] at run
    · split at run
      · simp only [Except.ok.injEq, Prod.mk.injEq] at run
        refine ⟨_, run.1.symm, ?_⟩
        rw [List.length_take]
        omega
      · simp only [Except.ok.injEq, Prod.mk.injEq] at run
        refine ⟨[], by rw [← run.1, ← blank], ?_⟩
        simp only [List.length_nil]
        omega

theorem arrived_of_decodeMessage {msg next : Publish} {remLen : Int} {n : ℕ} {src : Bytes}
    (supported : msg.version < ProtocolV50 ∨ msg.version = ProtocolV50)
    (blankPayload : msg.payload = []) (blankProperties : msg.properties = .empty)
    (flags : msg.mFlags.toNat < 16) (small : remLen < 2 ^ 31)
    (run : msg.decodeMessage remLen src = .ok (next, n)) : next.Arrived msg.version := by
  simp only [decodeMessage] at run
  split at run
  · simp [rejectWith] at run
  · rename_i qosValid
    simp only [Bool.not_eq_true, Bool.not_eq_false'] at qosValid
    split at run
    · simp [rejectWith] at run
    · cases readTopic : readLPBytes src with
      | error fault => simp [readTopic] at run
      | ok topicResult =>
          rcases topicResult with ⟨topic, topicLen⟩
          simp only [readTopic] at run
          have topicBound := readLPBytes_eq_ok readTopic
          split at run
          · simp at run
          · rename_i notNameless
            split at run
            · simp [rejectWith] at run
            · rename_i topicValid
              simp only [Bool.not_eq_true, Bool.not_eq_false'] at topicValid
              rcases decodeMessageID_spec { msg with topic := topic } (src.drop topicLen) with
                ⟨id, withID⟩
              generalize header : ({ msg with topic := topic } : Publish).decodeMessageID
                (src.drop topicLen) = named at run withID
              rcases named with ⟨named, idLen⟩
              simp only at withID run
              subst withID
              cases props : ({ msg with topic := topic, packetID := id } : Publish).decodeProperties
                  (src.drop (topicLen + idLen)) with
              | error fault => simp [props] at run
              | ok propResult =>
                  rcases propResult with ⟨filled, propLen⟩
                  simp only [props] at run
                  rcases @decodeProperties_spec { msg with topic := topic, packetID := id } filled
                    _ propLen blankProperties props with ⟨properties, rfl, read, _, aliased⟩
                  rcases @decodePayload_spec
                    { msg with topic := topic, packetID := id, properties := properties } next
                    remLen _ n src blankPayload run with ⟨payload, rfl, within⟩
                  have covered := read.covered
                  refine ⟨rfl, topicValid, topicBound.1, ?_, flags, qosValid, read.shaped, ?_, ?_⟩
                  · intro empty
                    rcases supported with older | five
                    · exact absurd ⟨empty, older⟩ notNameless
                    · exact ⟨five, aliased empty five⟩
                  · exact fun other val look => mem_publishPropertyIDs (read.allowed other val look)
                  · simp only
                    omega

/-- A packet that a supported decoder accepts has arrived. -/
theorem arrived_of_decodePublish {v : ProtocolVersion}
    (supported : v < ProtocolV50 ∨ v = ProtocolV50) {buf : Bytes} {msg : Publish} {n : ℕ}
    (run : decodePublish v buf = .ok (msg, n)) : msg.Arrived v := by
  have header : decodeHeader v buf = .ok (msg, n) := by
    unfold decodePublish at run
    split at run
    · rename_i found
      rw [found, ← Except.ok.inj run]
    · simp at run
    · simp at run
  rcases buf with _ | ⟨first, rest⟩
  · simp [decodeHeader] at header
  · simp only [decodeHeader] at header
    split at header
    · simp [rejectWith] at header
    · split at header
      · simp at header
      · split at header
        · simp at header
        · have flags : (first &&& 0x0F).toNat < 16 := by
            rw [UInt8.toNat_and]
            exact Nat.lt_of_le_of_lt Nat.and_le_right (by decide)
          have small : toInt32 (uvarint rest).1.toNat < 2 ^ 31 := BitVec.toInt_lt
          rcases map_eq_ok.mp header with ⟨⟨next, k⟩, body, same⟩
          simp only [Prod.mk.injEq] at same
          exact same.1 ▸ arrived_of_decodeMessage supported rfl rfl flags small body

end Publish

end VolantMQ.Packet
