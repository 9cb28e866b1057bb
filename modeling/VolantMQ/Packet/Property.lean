import VolantMQ.Packet.Wire
import Mathlib.Data.List.AList

/-!
# V5.0 properties

The property block of `property.go`: a map from identifiers to dynamically typed values
together with a separately tracked encoded length. The tables `propertyAllowedMessageTypes`
and `propertyTypeMap` are kept as tables. A Go map has no order, so encoding takes an
iteration order of the map as an argument and every result about bytes is for all of them.
-/

namespace VolantMQ.Packet

open Lib

abbrev PropertyID := UInt32

def PropertyPayloadFormat : PropertyID := 0x01
def PropertyPublicationExpiry : PropertyID := 0x02
def PropertyContentType : PropertyID := 0x03
def PropertyResponseTopic : PropertyID := 0x08
def PropertyCorrelationData : PropertyID := 0x09
def PropertySubscriptionIdentifier : PropertyID := 0x0B
def PropertySessionExpiryInterval : PropertyID := 0x11
def PropertyAssignedClientIdentifier : PropertyID := 0x12
def PropertyServerKeepAlive : PropertyID := 0x13
def PropertyAuthMethod : PropertyID := 0x15
def PropertyAuthData : PropertyID := 0x16
def PropertyRequestProblemInfo : PropertyID := 0x17
def PropertyWillDelayInterval : PropertyID := 0x18
def PropertyRequestResponseInfo : PropertyID := 0x19
def PropertyResponseInfo : PropertyID := 0x1A
def PropertyServerReverence : PropertyID := 0x1C
def PropertyReasonString : PropertyID := 0x1F
def PropertyReceiveMaximum : PropertyID := 0x21
def PropertyTopicAliasMaximum : PropertyID := 0x22
def PropertyTopicAlias : PropertyID := 0x23
def PropertyMaximumQoS : PropertyID := 0x24
def PropertyRetainAvailable : PropertyID := 0x25
def PropertyUserProperty : PropertyID := 0x26
def PropertyMaximumPacketSize : PropertyID := 0x27
def PropertyWildcardSubscriptionAvailable : PropertyID := 0x28
def PropertySubscriptionIdentifierAvailable : PropertyID := 0x29
def PropertySharedSubscriptionAvailable : PropertyID := 0x2A

inductive PropertyType where
  | byte | short | int | varInt | string | stringPair | binary
  deriving DecidableEq, Repr

open PacketType in
/-- For each identifier the packet types that may carry it, with the flag that says whether
the packet type may carry it more than once. -/
def propertyAllowedMessageTypes : List (PropertyID × List (PacketType × Bool)) :=
  [(PropertyPayloadFormat, [(PUBLISH, false)]),
    (PropertyPublicationExpiry, [(PUBLISH, false)]),
    (PropertyContentType, [(PUBLISH, false)]),
    (PropertyResponseTopic, [(PUBLISH, false)]),
    (PropertyCorrelationData, [(PUBLISH, false)]),
    (PropertySubscriptionIdentifier, [(PUBLISH, true), (SUBSCRIBE, false)]),
    (PropertySessionExpiryInterval, [(CONNECT, false), (DISCONNECT, false)]),
    (PropertyAssignedClientIdentifier, [(CONNACK, false)]),
    (PropertyServerKeepAlive, [(CONNACK, false)]),
    (PropertyAuthMethod, [(CONNECT, false), (CONNACK, false), (AUTH, false)]),
    (PropertyAuthData, [(CONNECT, false), (CONNACK, false), (AUTH, false)]),
    (PropertyWillDelayInterval, [(CONNECT, false)]),
    (PropertyRequestProblemInfo, [(CONNECT, false)]),
    (PropertyRequestResponseInfo, [(CONNECT, false)]),
    (PropertyResponseInfo, [(CONNACK, false)]),
    (PropertyServerReverence, [(CONNACK, false), (DISCONNECT, false)]),
    (PropertyReceiveMaximum, [(CONNECT, false), (CONNACK, false)]),
    (PropertyTopicAliasMaximum, [(CONNECT, false), (CONNACK, false)]),
    (PropertyTopicAlias, [(PUBLISH, false)]),
    (PropertyMaximumQoS, [(CONNACK, false)]),
    (PropertyRetainAvailable, [(CONNACK, false)]),
    (PropertyMaximumPacketSize, [(CONNECT, false), (CONNACK, false)]),
    (PropertyWildcardSubscriptionAvailable, [(CONNACK, false)]),
    (PropertySubscriptionIdentifierAvailable, [(CONNACK, false)]),
    (PropertySharedSubscriptionAvailable, [(CONNACK, false)]),
    (PropertyReasonString, [(CONNACK, false), (PUBACK, false), (PUBREC, false),
      (PUBREL, false), (PUBCOMP, false), (SUBACK, false), (UNSUBACK, false),
      (DISCONNECT, false), (AUTH, false)]),
    (PropertyUserProperty, [(CONNECT, true), (CONNACK, true), (PUBLISH, true), (PUBACK, true),
      (PUBREC, true), (PUBREL, true), (PUBCOMP, true), (SUBACK, true), (UNSUBACK, true),
      (DISCONNECT, true), (AUTH, true)])]

/-- The value type of each identifier. -/
def propertyTypeTable : List (PropertyID × PropertyType) :=
  [(PropertyPayloadFormat, .byte),
    (PropertyPublicationExpiry, .int),
    (PropertyContentType, .string),
    (PropertyResponseTopic, .string),
    (PropertyCorrelationData, .binary),
    (PropertySubscriptionIdentifier, .varInt),
    (PropertySessionExpiryInterval, .int),
    (PropertyAssignedClientIdentifier, .string),
    (PropertyServerKeepAlive, .short),
    (PropertyAuthMethod, .string),
    (PropertyAuthData, .binary),
    (PropertyRequestProblemInfo, .byte),
    (PropertyWillDelayInterval, .int),
    (PropertyRequestResponseInfo, .byte),
    (PropertyResponseInfo, .string),
    (PropertyServerReverence, .string),
    (PropertyReasonString, .string),
    (PropertyReceiveMaximum, .short),
    (PropertyTopicAliasMaximum, .short),
    (PropertyTopicAlias, .short),
    (PropertyMaximumQoS, .byte),
    (PropertyRetainAvailable, .byte),
    (PropertyUserProperty, .stringPair),
    (PropertyMaximumPacketSize, .int),
    (PropertyWildcardSubscriptionAvailable, .byte),
    (PropertySubscriptionIdentifierAvailable, .byte),
    (PropertySharedSubscriptionAvailable, .byte)]

/-- `propertyTypeMap[id]`; a missing key reads as the zero value `PropertyTypeByte`. -/
def propertyTypeMap (id : PropertyID) : PropertyType :=
  (propertyTypeTable.lookup id).getD .byte

namespace PropertyID

def dupAllowed (id : PropertyID) (t : PacketType) : Bool :=
  match propertyAllowedMessageTypes.lookup id with
  | none => false
  | some types => (types.lookup t).getD false

def isValidPacketType (id : PropertyID) (t : PacketType) : Bool :=
  match propertyAllowedMessageTypes.lookup id with
  | none => false
  | some types => (types.lookup t).isSome

end PropertyID

structure StringPair where
  K : GoString
  V : GoString
  deriving DecidableEq, Repr

/-- The dynamic types of a property value that the code tells apart; `foreign` is any
other Go type. -/
inductive PropertyValue where
  | byte (value : UInt8)
  | bytes (values : Bytes)
  | short (value : UInt16)
  | shorts (values : List UInt16)
  | int (value : UInt32)
  | ints (values : List UInt32)
  | string (value : GoString)
  | strings (values : List GoString)
  | stringLists (values : List (List GoString))
  | byteLists (values : List Bytes)
  | pair (value : StringPair)
  | pairs (values : List StringPair)
  | foreign
  deriving DecidableEq, Repr

namespace PropertyValue

/-- `propertyToType.AsShort` -/
def asShort : PropertyValue → Except PacketError UInt16
  | short value => .ok value
  | _ => .error .ErrPropertyWrongType

/-- `propertyToType.AsInt` -/
def asInt : PropertyValue → Except PacketError UInt32
  | int value => .ok value
  | _ => .error .ErrPropertyWrongType

/-- `propertyToType.AsString` -/
def asString : PropertyValue → Except PacketError GoString
  | string value => .ok value
  | _ => .error .ErrPropertyWrongType

/-- `propertyToType.AsBinary` -/
def asBinary : PropertyValue → Except PacketError Bytes
  | bytes values => .ok values
  | _ => .error .ErrPropertyWrongType

/-- What the `switch` of `calcLenByte` and `encodeByte` ranges over. -/
def byteItems : PropertyValue → List UInt8
  | byte value => [value]
  | bytes values => values
  | _ => []

/-- What the `switch` of `calcLenShort` and `encodeShort` ranges over. -/
def shortItems : PropertyValue → List UInt16
  | short value => [value]
  | shorts values => values
  | _ => []

/-- What the `switch` of `calcLenInt`, `calcLenVarInt` and their encoders ranges over. -/
def intItems : PropertyValue → List UInt32
  | int value => [value]
  | ints values => values
  | _ => []

/-- What the `switch` of `calcLenString` and `encodeString` ranges over. -/
def stringItems : PropertyValue → List GoString
  | string value => [value]
  | strings values => values
  | _ => []

/-- What the `switch` of `calcLenStringPair` and `encodeStringPair` ranges over. -/
def pairItems : PropertyValue → List StringPair
  | pair value => [value]
  | pairs values => values
  | _ => []

/-- What the `switch` of `encodeBinary` ranges over. -/
def binaryItems : PropertyValue → List Bytes
  | bytes value => [value]
  | byteLists values => values
  | _ => []

/-- The lengths added up by `calcLenBinary`, whose list case is `[][]string` and not the
`[][]byte` of `encodeBinary`. -/
def binaryLengths : PropertyValue → List ℕ
  | bytes value => [value.length]
  | stringLists values => values.map List.length
  | _ => []

end PropertyValue

/-- The shared body of the `calcLen` functions: each item costs its width and the prefix. -/
def calcLenItems {α : Type} (id : PropertyID) (width : α → ℕ) (items : List α) : ℕ :=
  (items.map fun item => width item + uvarintCalc id).sum

def calcLenByte (id : PropertyID) (val : PropertyValue) : ℕ :=
  calcLenItems id (fun _ => 1) val.byteItems

def calcLenShort (id : PropertyID) (val : PropertyValue) : ℕ :=
  calcLenItems id (fun _ => 2) val.shortItems

def calcLenInt (id : PropertyID) (val : PropertyValue) : ℕ :=
  calcLenItems id (fun _ => 4) val.intItems

def calcLenVarInt (id : PropertyID) (val : PropertyValue) : ℕ :=
  calcLenItems id uvarintCalc val.intItems

def calcLenString (id : PropertyID) (val : PropertyValue) : ℕ :=
  calcLenItems id (fun text => 2 + text.length) val.stringItems

def calcLenBinary (id : PropertyID) (val : PropertyValue) : ℕ :=
  calcLenItems id (fun length => 2 + length) val.binaryLengths

def calcLenStringPair (id : PropertyID) (val : PropertyValue) : ℕ :=
  calcLenItems id (fun pair => 4 + pair.K.length + pair.V.length) val.pairItems

/-- `propertyCalcLen[propertyTypeMap[id]]` -/
def propertyCalcLen (id : PropertyID) : PropertyValue → ℕ :=
  match propertyTypeMap id with
  | .byte => calcLenByte id
  | .short => calcLenShort id
  | .int => calcLenInt id
  | .varInt => calcLenVarInt id
  | .string => calcLenString id
  | .stringPair => calcLenStringPair id
  | .binary => calcLenBinary id

def writePrefixID (id : PropertyID) : Writer PacketError := .put (putUvarint id.toNat)

/-- `count, _ := WriteLPBytes(..)` as the property encoders use it: the error is dropped and
the count that came with it is kept. -/
def writeLPBytesDropErr (field : Bytes) : Writer PacketError := fun dest =>
  if MaxLPString < field.length then .ok (dest, 0)
  else if dest.length < 2 + field.length then .ok (dest, 2 + field.length)
  else writeLPBytes field dest

/-- The shared body of the property encoders: for each item the identifier, then the item. -/
def encodeItems {α : Type} (id : PropertyID) (encode : α → Writer PacketError)
    (items : List α) : Writer PacketError :=
  .each (fun item => .seq (writePrefixID id) (encode item)) items

def encodeByte (id : PropertyID) (val : PropertyValue) : Writer PacketError :=
  encodeItems id (fun value => .put [value]) val.byteItems

def encodeShort (id : PropertyID) (val : PropertyValue) : Writer PacketError :=
  encodeItems id (fun value => .put (putUint16 value)) val.shortItems

def encodeInt (id : PropertyID) (val : PropertyValue) : Writer PacketError :=
  encodeItems id (fun value => .put (putUint32 value)) val.intItems

def encodeVarInt (id : PropertyID) (val : PropertyValue) : Writer PacketError :=
  encodeItems id (fun value => .put (putUvarint value.toNat)) val.intItems

def encodeString (id : PropertyID) (val : PropertyValue) : Writer PacketError :=
  encodeItems id writeLPBytesDropErr val.stringItems

def encodeStringPair (id : PropertyID) (val : PropertyValue) : Writer PacketError :=
  encodeItems id (fun pair => .seq (writeLPBytesDropErr pair.K) (writeLPBytesDropErr pair.V))
    val.pairItems

def encodeBinary (id : PropertyID) (val : PropertyValue) : Writer PacketError :=
  encodeItems id writeLPBytesDropErr val.binaryItems

/-- `propertyEncodeType[propertyTypeMap[id]]` -/
def propertyEncodeType (id : PropertyID) : PropertyValue → Writer PacketError :=
  match propertyTypeMap id with
  | .byte => encodeByte id
  | .short => encodeShort id
  | .int => encodeInt id
  | .varInt => encodeVarInt id
  | .string => encodeString id
  | .stringPair => encodeStringPair id
  | .binary => encodeBinary id

/-- The map `property.properties`. -/
abbrev PropertyMap := AList fun _ : PropertyID => PropertyValue

/-- `packet.property` -/
structure Property where
  properties : PropertyMap
  len : UInt32

/-- An iteration order of Go maps: some rearrangement of the entries. -/
structure MapOrder (α : Type) where
  range : List α → List α
  perm : ∀ entries, (range entries).Perm entries

/-- The iteration order of the association list itself. -/
def MapOrder.insertion (α : Type) : MapOrder α := ⟨id, fun _ => .refl _⟩

/-- One entry of the property map. -/
abbrev PropertyEntry := Σ _ : PropertyID, PropertyValue

namespace Property

/-- The block of a packet without properties. -/
def empty : Property := ⟨∅, 0⟩

def fullLen (p : Property) : UInt32 := p.len + UInt32.ofNat (uvarintCalc p.len)

def set (p : Property) (t : PacketType) (id : PropertyID) (val : PropertyValue) :
    Except PacketError Property :=
  match propertyAllowedMessageTypes.lookup id with
  | none => .error .ErrPropertyInvalidID
  | some types =>
      if (types.lookup t).isNone then .error .ErrPropertyPacketTypeMismatch
      else .ok ⟨p.properties.insert id val, p.len + UInt32.ofNat (propertyCalcLen id val)⟩

def get (p : Property) (id : PropertyID) : Option PropertyValue := p.properties.lookup id

def encode (order : MapOrder PropertyEntry) (p : Property) : Writer PacketError := fun dest =>
  if dest.length < p.fullLen.toNat then .error (.error .ErrInsufficientBufferSize)
  else if p.fullLen = 1 then .ok (dest, 1)
  else
    Writer.seq (.put (putUvarint p.len.toNat))
      (.each (fun entry => propertyEncodeType entry.1 entry.2) (order.range p.properties.entries))
      dest

end Property

/-- What a value decoder yields: the updated map and the number of bytes it consumed. -/
abbrev Decoded := Except (Fault PacketError) (PropertyMap × ℕ)

/-- `CodeMalformedPacket` as an error. -/
def malformed {α : Type} : Except (Fault PacketError) α := .error (.error (.reason CodeMalformedPacket))

def decodeByte (props : PropertyMap) (id : PropertyID) : Bytes → Decoded
  | value :: _ => .ok (props.insert id (.byte value), 1)
  | _ => malformed

def decodeShort (props : PropertyMap) (id : PropertyID) : Bytes → Decoded
  | high :: low :: _ => .ok (props.insert id (.short (uint16 high low)), 2)
  | _ => malformed

def decodeInt (props : PropertyMap) (id : PropertyID) : Bytes → Decoded
  | b3 :: b2 :: b1 :: b0 :: _ => .ok (props.insert id (.int (uint32 b3 b2 b1 b0)), 4)
  | _ => malformed

def decodeVarInt (props : PropertyMap) (id : PropertyID) (src : Bytes) : Decoded :=
  let (value, cnt) := uvarint src
  if cnt ≤ 0 then malformed else .ok (props.insert id (.int value), cnt.toNat)

def decodeString (props : PropertyMap) (id : PropertyID) (src : Bytes) : Decoded :=
  match readLPBytes src with
  | .error _ => malformed
  | .ok (v, n) => if utf8Valid v then .ok (props.insert id (.string v), n) else malformed

def decodeStringPair (props : PropertyMap) (id : PropertyID) (src : Bytes) : Decoded :=
  match readLPBytes src with
  | .error _ => malformed
  | .ok (k, n) =>
      if !utf8Valid k then malformed
      else
        match readLPBytes (src.drop n) with
        | .error _ => malformed
        | .ok (v, m) =>
            if !utf8Valid v then malformed
            else
              match props.lookup id with
              | none => .ok (props.insert id (.pairs [⟨k, v⟩]), n + m)
              | some (.pairs old) => .ok (props.insert id (.pairs (old ++ [⟨k, v⟩])), n + m)
              -- the type assertion `p.properties[id].([]StringPair)`
              | some _ => .error .panic

def decodeBinary (props : PropertyMap) (id : PropertyID) (src : Bytes) : Decoded :=
  match readLPBytes src with
  | .error _ => malformed
  | .ok (b, n) => .ok (props.insert id (.bytes b), n)

/-- `propertyDecodeType[propertyTypeMap[id]]` -/
def propertyDecodeType (id : PropertyID) (props : PropertyMap) : Bytes → Decoded :=
  match propertyTypeMap id with
  | .byte => decodeByte props id
  | .short => decodeShort props id
  | .int => decodeInt props id
  | .varInt => decodeVarInt props id
  | .string => decodeString props id
  | .stringPair => decodeStringPair props id
  | .binary => decodeBinary props id

/-- The value that a value decoder has stored, and the number of bytes that it has read. Each type
has one way to succeed. -/
inductive DecodedAs (props : PropertyMap) (id : PropertyID) :
    PropertyType → Bytes → PropertyValue → ℕ → Prop where
  | byte (value : UInt8) (rest : Bytes) : DecodedAs props id .byte (value :: rest) (.byte value) 1
  | short (high low : UInt8) (rest : Bytes) :
      DecodedAs props id .short (high :: low :: rest) (.short (uint16 high low)) 2
  | int (b3 b2 b1 b0 : UInt8) (rest : Bytes) :
      DecodedAs props id .int (b3 :: b2 :: b1 :: b0 :: rest) (.int (uint32 b3 b2 b1 b0)) 4
  | varInt {src : Bytes} {value : UInt32} {cnt : ℤ} (read : uvarint src = (value, cnt))
      (positive : 0 < cnt) : DecodedAs props id .varInt src (.int value) cnt.toNat
  | string {src v : Bytes} {n : ℕ} (read : readLPBytes src = .ok (v, n))
      (valid : utf8Valid v = true) : DecodedAs props id .string src (.string v) n
  | binary {src b : Bytes} {n : ℕ} (read : readLPBytes src = .ok (b, n)) :
      DecodedAs props id .binary src (.bytes b) n
  | stringPair {src k v : Bytes} {n m : ℕ} {old : List StringPair}
      (readKey : readLPBytes src = .ok (k, n)) (keyValid : utf8Valid k = true)
      (read : readLPBytes (src.drop n) = .ok (v, m)) (valid : utf8Valid v = true)
      (before : (props.lookup id = none ∧ old = []) ∨ props.lookup id = some (.pairs old)) :
      DecodedAs props id .stringPair src (.pairs (old ++ [⟨k, v⟩])) (n + m)

theorem exists_decodedAs_of_pair {props next : PropertyMap} {id : PropertyID} {src : Bytes} {k : ℕ}
    (run : decodeStringPair props id src = .ok (next, k)) :
    ∃ val, next = props.insert id val ∧ DecodedAs props id .stringPair src val k := by
  unfold decodeStringPair at run
  split at run
  · simp [malformed] at run
  · rename_i key n readKey
    split at run
    · simp [malformed] at run
    · rename_i keyValid
      split at run
      · simp [malformed] at run
      · rename_i v m read
        split at run
        · simp [malformed] at run
        · rename_i valid
          simp only [Bool.not_eq_true, Bool.not_eq_false'] at keyValid valid
          split at run
          · rename_i absent
            simp only [Except.ok.injEq, Prod.mk.injEq] at run
            rcases run with ⟨rfl, rfl⟩
            exact ⟨_, rfl, .stringPair readKey keyValid read valid (.inl ⟨absent, rfl⟩)⟩
          · rename_i old present
            simp only [Except.ok.injEq, Prod.mk.injEq] at run
            rcases run with ⟨rfl, rfl⟩
            exact ⟨_, rfl, .stringPair readKey keyValid read valid (.inr present)⟩
          · simp at run

theorem exists_decodedAs {props next : PropertyMap} {id : PropertyID} {src : Bytes} {k : ℕ}
    (run : propertyDecodeType id props src = .ok (next, k)) :
    ∃ val, next = props.insert id val ∧ DecodedAs props id (propertyTypeMap id) src val k := by
  unfold propertyDecodeType at run
  generalize propertyTypeMap id = type at run
  cases type with
  | byte =>
      change decodeByte props id src = _ at run
      unfold decodeByte at run
      split at run
      · simp only [Except.ok.injEq, Prod.mk.injEq] at run
        rcases run with ⟨rfl, rfl⟩
        exact ⟨_, rfl, .byte _ _⟩
      · simp [malformed] at run
  | short =>
      change decodeShort props id src = _ at run
      unfold decodeShort at run
      split at run
      · simp only [Except.ok.injEq, Prod.mk.injEq] at run
        rcases run with ⟨rfl, rfl⟩
        exact ⟨_, rfl, .short _ _ _⟩
      · simp [malformed] at run
  | int =>
      change decodeInt props id src = _ at run
      unfold decodeInt at run
      split at run
      · simp only [Except.ok.injEq, Prod.mk.injEq] at run
        rcases run with ⟨rfl, rfl⟩
        exact ⟨_, rfl, .int _ _ _ _ _⟩
      · simp [malformed] at run
  | varInt =>
      rcases read : uvarint src with ⟨value, cnt⟩
      simp only [decodeVarInt, read] at run
      split at run
      · simp [malformed] at run
      · simp only [Except.ok.injEq, Prod.mk.injEq] at run
        rcases run with ⟨rfl, rfl⟩
        exact ⟨_, rfl, .varInt read (by omega)⟩
  | string =>
      change decodeString props id src = _ at run
      unfold decodeString at run
      split at run
      · simp [malformed] at run
      · rename_i v n read
        split at run
        · rename_i valid
          simp only [Except.ok.injEq, Prod.mk.injEq] at run
          rcases run with ⟨rfl, rfl⟩
          exact ⟨_, rfl, .string read valid⟩
        · simp [malformed] at run
  | stringPair => exact exists_decodedAs_of_pair run
  | binary =>
      change decodeBinary props id src = _ at run
      unfold decodeBinary at run
      split at run
      · simp [malformed] at run
      · rename_i b n read
        simp only [Except.ok.injEq, Prod.mk.injEq] at run
        rcases run with ⟨rfl, rfl⟩
        exact ⟨_, rfl, .binary read⟩

/-- What a value decoder has to find so that it succeeds. -/
theorem DecodedAs.run {props : PropertyMap} {id : PropertyID} {src : Bytes} {val : PropertyValue}
    {k : ℕ} (decoded : DecodedAs props id (propertyTypeMap id) src val k) :
    propertyDecodeType id props src = .ok (props.insert id val, k) := by
  unfold propertyDecodeType
  generalize propertyTypeMap id = type at decoded
  cases decoded with
  | byte value rest => rfl
  | short high low rest => rfl
  | int b3 b2 b1 b0 rest => rfl
  | varInt read positive => simp [decodeVarInt, read, positive]
  | string read valid => simp [decodeString, read, valid]
  | binary read => simp [decodeBinary, read]
  | stringPair readKey keyValid read valid before =>
      rcases before with ⟨absent, rfl⟩ | present
      · simp [decodeStringPair, readKey, keyValid, read, valid, absent]
      · simp [decodeStringPair, readKey, keyValid, read, valid, present]

namespace Property

/-- The loop of `property.decode` on the bytes from the current offset on. `pLen` is the
unsigned counter of the source, which may wrap. Every round consumes at least one byte, so
one round more than there are bytes is never needed. -/
def decodeLoop (t : PacketType) : ℕ → Property → UInt32 → Bytes → ℕ →
    Except (Fault PacketError) (Property × ℕ)
  | 0, _, _, _, _ => malformed
  | rounds + 1, p, pLen, slice, offset =>
      if pLen = 0 then .ok (p, offset)
      else
        let (id, prefixLen) := uvarint slice
        if prefixLen ≤ 0 then malformed
        else if !PropertyID.isValidPacketType id t then malformed
        else if (p.properties.lookup id).isSome && !PropertyID.dupAllowed id t then
          .error (.error (.reason CodeProtocolError))
        else
          match propertyDecodeType id p.properties (slice.drop prefixLen.toNat) with
          | .error fault => .error fault
          | .ok (props, decodeCount) =>
              let count := prefixLen.toNat + decodeCount
              decodeLoop t rounds ⟨props, p.len + UInt32.ofNat count⟩
                (pLen - UInt32.ofNat count) (slice.drop count) (offset + count)

/-- `property.decode`: the filled block and the number of bytes consumed. -/
def decode (p : Property) (t : PacketType) (src : Bytes) :
    Except (Fault PacketError) (Property × ℕ) :=
  let (pLen, lCount) := uvarint src
  if lCount ≤ 0 then malformed
  else decodeLoop t (src.length + 1) p pLen (src.drop lCount.toNat) lCount.toNat

end Property

end VolantMQ.Packet
