import VolantMQ.Packet.Property

/-!
# PUBLISH packets

The `Publish` object of `publish.go` with the fixed header of `header.go`, and the entry
points `Encode` and `Decode` of `packet.go` for this packet type. Times are nanoseconds
since some epoch; the zero `time.Time` of a packet that never expires is `none`.

The field `remLen` of the source is a cache: `Size` recomputes it before every use in
`Encode`, and `decode` sets it before the message decoder reads it. The model passes it as
an argument instead.
-/

namespace VolantMQ.Packet

open Lib

/-- Nanoseconds since an epoch. -/
abbrev Time := Int

structure Publish where
  version : ProtocolVersion
  mFlags : UInt8
  packetID : Option IDType
  properties : Property
  payload : Bytes
  topic : GoString
  publishID : ℕ
  expireAt : Option Time

namespace Publish

def maskPublishFlagRetain : UInt8 := 0x01
def maskPublishFlagQoS : UInt8 := 0x06
def maskPublishFlagDup : UInt8 := 0x08

/-- `New(v, PUBLISH)` -/
def new (v : ProtocolVersion) : Publish :=
  { version := v
    mFlags := PacketType.PUBLISH.defaultFlags
    packetID := none
    properties := .empty
    payload := []
    topic := []
    publishID := 0
    expireAt := none }

def dup (msg : Publish) : Bool := (msg.mFlags &&& maskPublishFlagDup) != 0

def retain (msg : Publish) : Bool := (msg.mFlags &&& maskPublishFlagRetain) != 0

def qos (msg : Publish) : QosType := (msg.mFlags &&& maskPublishFlagQoS) >>> 1

/-- Set or clear one flag bit. -/
def putFlag (flags mask : UInt8) (v : Bool) : UInt8 := if v then flags ||| mask else flags &&& ~~~mask

def setDup (msg : Publish) (v : Bool) : Publish :=
  { msg with mFlags := putFlag msg.mFlags maskPublishFlagDup v }

def setRetain (msg : Publish) (v : Bool) : Publish :=
  { msg with mFlags := putFlag msg.mFlags maskPublishFlagRetain v }

/-- The assignments of `Set` and `SetQoS` to the QoS bits. -/
def putQoS (flags : UInt8) (v : QosType) : UInt8 := (flags &&& ~~~maskPublishFlagQoS) ||| (v <<< 1)

/-- `Publish.SetQoS`; the packet is unchanged on error. -/
def setQoS (msg : Publish) (v : QosType) : Except PacketError Publish :=
  if !v.isValid then .error .ErrInvalidQoS
  else .ok { msg with mFlags := putQoS msg.mFlags v }

def setTopic (msg : Publish) (v : GoString) : Except PacketError Publish :=
  if (msg.version < ProtocolV50 && v.length == 0) || !validTopic v then .error .ErrInvalidTopic
  else .ok { msg with topic := v }

def setPacketID (msg : Publish) (id : IDType) : Publish := { msg with packetID := some id }

def set (msg : Publish) (t : GoString) (p : Bytes) (q : QosType) (r d : Bool) :
    Except PacketError Publish :=
  if !validTopic t then .error .ErrInvalidTopic
  else if !q.isValid then .error .ErrInvalidQoS
  else .ok
    { msg with
      topic := t
      payload := p
      mFlags := putFlag (putFlag (putQoS msg.mFlags q) maskPublishFlagDup d)
        maskPublishFlagRetain r }

/-- `header.PropertyGet` -/
def propertyGet (msg : Publish) (id : PropertyID) : Option PropertyValue :=
  if msg.version != ProtocolV50 then none else msg.properties.get id

/-- `header.PropertySet` -/
def propertySet (msg : Publish) (id : PropertyID) (val : PropertyValue) :
    Except PacketError Publish :=
  if msg.version != ProtocolV50 then .error .ErrNotSupported
  else (msg.properties.set .PUBLISH id val).map fun properties => { msg with properties }

/-- `time.Time.Sub`: the difference, saturating at the bounds of a 64-bit duration. -/
def timeSub (t u : Time) : Int := max (-2 ^ 63) (min (2 ^ 63 - 1) (t - u))

/-- `uint32(msg.expireAt.Sub(now) / time.Second)`; Go's division truncates. -/
def secondsLeft (expireAt now : Time) : UInt32 :=
  UInt32.ofNat ((timeSub expireAt now).tdiv 1000000000 % 2 ^ 32).toNat

/-- The result of `Publish.Expired`. -/
def expired (msg : Publish) (now : Time) : Bool :=
  match msg.expireAt with
  | none => false
  | some expireAt => !(now < expireAt && 0 < secondsLeft expireAt now)

/-- `Publish.Expired(true)`: the result, and the packet with its remaining life time set as a
property when it has not expired. -/
def expiredSet (msg : Publish) (now : Time) : Bool × Publish :=
  match msg.expireAt with
  | none => (false, msg)
  | some expireAt =>
      if now < expireAt && 0 < secondsLeft expireAt now then
        if ProtocolV50 ≤ msg.version then
          match msg.properties.set .PUBLISH PropertyPublicationExpiry
              (.int (secondsLeft expireAt now)) with
          | .ok properties => (false, { msg with properties })
          | .error _ => (false, msg)
        else (false, msg)
      else (true, msg)

/-- The properties that `Clone` forwards, in the order of the source. -/
def forwardedProperties : List PropertyID :=
  [PropertyPayloadFormat, PropertyResponseTopic, PropertyCorrelationData, PropertyUserProperty,
    PropertyContentType]

/-- Forward one property if the message has it. -/
def forwardProperty (msg : Publish) (pkt : Publish) (id : PropertyID) :
    Except PacketError Publish :=
  match msg.properties.properties.lookup id with
  | none => .ok pkt
  | some prop => (pkt.properties.set .PUBLISH id prop).map fun properties => { pkt with properties }

/-- `Publish.Clone`. The new packet gets the version of the message, not `v`, and an error of
`Set` is ignored. -/
def clone (msg : Publish) (v : ProtocolVersion) : Except PacketError Publish :=
  let blank := Publish.new msg.version
  let pkt :=
    match blank.set msg.topic msg.payload msg.qos msg.retain false with
    | .ok pkt => pkt
    | .error _ => blank
  let pkt := { pkt with expireAt := msg.expireAt }
  if msg.version = ProtocolV50 ∧ v = ProtocolV50 then
    forwardedProperties.foldlM (forwardProperty msg) pkt
  else .ok pkt

def size (msg : Publish) : ℕ :=
  2 + msg.topic.length + msg.payload.length + (if msg.qos ≠ 0 then 2 else 0) +
    (if msg.version = ProtocolV50 then msg.properties.fullLen.toNat else 0)

/-- `int32(x)` in Go. -/
def toInt32 (x : ℕ) : Int := (BitVec.ofNat 32 x).toInt

/-- `header.setRemainingLength` on the truncated size: the remaining length to be encoded. -/
def remainingLength (msg : Publish) : Except PacketError ℕ :=
  let remLen := toInt32 msg.size
  if maxRemainingLength < remLen ∨ remLen < 0 then .error .ErrInvalidLength
  else .ok remLen.toNat

/-- `header.Size` -/
def fullSize (msg : Publish) : Except PacketError ℕ :=
  msg.remainingLength.map fun remLen => 1 + uvarintCalc (UInt32.ofNat remLen) + msg.size

def encodeMessage (order : MapOrder PropertyEntry) (msg : Publish) : Writer PacketError :=
  if !validTopic msg.topic then .fail .ErrInvalidTopic
  else if !msg.qos.isValid then .fail .ErrInvalidQoS
  else if msg.qos == QoS0 && msg.dup then .fail .ErrDupViolation
  else if msg.qos != QoS0 && msg.packetID.isNone then .fail .ErrPackedIDZero
  else
    .seq (writeLPBytes msg.topic) <|
    .seq (if msg.qos ≠ QoS0 then .copy ((msg.packetID.map putUint16).getD []) else .skip) <|
    .seq (if msg.version = ProtocolV50 then msg.properties.encode order else .skip) <|
    .copy msg.payload

/-- `header.Encode` for a PUBLISH -/
def encodeTo (order : MapOrder PropertyEntry) (msg : Publish) : Writer PacketError := fun dest =>
  match msg.remainingLength with
  | .error e => .error (.error e)
  | .ok remLen =>
      if dest.length < 1 + uvarintCalc (UInt32.ofNat remLen) + msg.size then
        .error (.error .ErrInsufficientBufferSize)
      else
        Writer.seq (.put [(PacketType.PUBLISH.code <<< 4) ||| msg.mFlags])
          (.seq (.put (putUvarint remLen)) (msg.encodeMessage order)) dest

/-- `packet.Encode` for a PUBLISH: into a freshly allocated buffer of the size of the packet. -/
def encode (order : MapOrder PropertyEntry) (msg : Publish) : Except (Fault PacketError) Bytes :=
  match msg.fullSize with
  | .error e => .error (.error e)
  | .ok sz => (msg.encodeTo order (List.replicate sz 0)).map Prod.fst

/-- `header.decodePacketID`: a short source fills only the leading bytes and is not reported. -/
def decodePacketID : Bytes → IDType × ℕ
  | high :: low :: _ => (uint16 high low, 2)
  | [high] => (uint16 high 0, 1)
  | [] => (0, 0)

/-- The reject code of a version. -/
def rejectWith {α : Type} (version : ProtocolVersion) (v5 : ReasonCode) :
    Except (Fault PacketError) α :=
  .error (.error (.reason (if version = ProtocolV50 then v5 else CodeRefusedServerUnavailable)))

/-- The properties of a V5.0 PUBLISH and the check that an empty topic comes with an alias. -/
def decodeProperties (msg : Publish) (src : Bytes) : Except (Fault PacketError) (Publish × ℕ) :=
  if msg.version = ProtocolV50 then
    match msg.properties.decode .PUBLISH src with
    | .error fault => .error fault
    | .ok (properties, n) =>
        let msg := { msg with properties }
        if msg.topic.length = 0 then
          match msg.propertyGet PropertyTopicAlias with
          | some (.short val) =>
              if 0 < val then .ok (msg, n) else .error (.error (.reason CodeProtocolError))
          | _ => .error (.error (.reason CodeProtocolError))
        else .ok (msg, n)
  else .ok (msg, 0)

/-- The part of `decodeMessage` that reads the packet identifier of a QoS 1 or 2 message. -/
def decodeMessageID (msg : Publish) (src : Bytes) : Publish × ℕ :=
  if msg.qos ≠ QoS0 then
    let (id, idLen) := decodePacketID src
    ({ msg with packetID := some id }, idLen)
  else (msg, 0)

/-- The part of `decodeMessage` that takes what is left after `offset` bytes as the payload. -/
def decodePayload (msg : Publish) (remLen : Int) (offset : ℕ) (src : Bytes) :
    Except (Fault PacketError) (Publish × ℕ) :=
  let pLen := remLen - offset
  if pLen < 0 then rejectWith msg.version CodeMalformedPacket
  else if ((src.length - offset : ℕ) : Int) < pLen then rejectWith msg.version CodeMalformedPacket
  else if 0 < pLen then
    .ok ({ msg with payload := (src.drop offset).take pLen.toNat }, offset + pLen.toNat)
  else .ok (msg, offset)

/-- `Publish.decodeMessage` on the bytes after the fixed header. -/
def decodeMessage (msg : Publish) (remLen : Int) (src : Bytes) :
    Except (Fault PacketError) (Publish × ℕ) :=
  if !msg.qos.isValid then rejectWith msg.version CodeProtocolError
  else if msg.qos == QoS0 && msg.dup then rejectWith msg.version CodeProtocolError
  else
    match readLPBytes src with
    | .error fault => .error fault
    | .ok (buf, n) =>
        if buf.length = 0 ∧ msg.version < ProtocolV50 then
          .error (.error (.reason CodeRefusedServerUnavailable))
        else if !validTopic buf then rejectWith msg.version CodeInvalidTopicName
        else
          let (msg, idLen) := ({ msg with topic := buf } : Publish).decodeMessageID (src.drop n)
          match msg.decodeProperties (src.drop (n + idLen)) with
          | .error fault => .error fault
          | .ok (msg, propLen) => msg.decodePayload remLen (n + idLen + propLen) src

/-- `header.decode` for a PUBLISH -/
def decodeHeader (v : ProtocolVersion) (buf : Bytes) : Except (Fault PacketError) (Publish × ℕ) :=
  match buf with
  | [] => .error .panic
  | first :: rest =>
      let mFlags := first &&& 0x0F
      let msg := { Publish.new v with mFlags }
      if !msg.qos.isValid then rejectWith v CodeMalformedPacket
      else
        let (remLen, m) := uvarint rest
        if m ≤ 0 then .error (.error .ErrInsufficientDataSize)
        else
          let remLen := toInt32 remLen.toNat
          let body := rest.drop m.toNat
          if (body.length : Int) < remLen then .error (.error .ErrInsufficientDataSize)
          else (msg.decodeMessage remLen body).map fun (msg, n) => (msg, 1 + m.toNat + n)

end Publish

/-- `packet.Decode` on a frame whose first byte announces a PUBLISH; a panic is turned into
`ErrPanicDetected`. -/
def decodePublish (v : ProtocolVersion) (buf : Bytes) : Except PacketError (Publish × ℕ) :=
  match Publish.decodeHeader v buf with
  | .ok result => .ok result
  | .error (.error e) => .error e
  | .error .panic => .error .ErrPanicDetected

end VolantMQ.Packet
