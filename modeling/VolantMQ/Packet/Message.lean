import VolantMQ.Packet.Fields

/-!
# The packets of the protocol

All packet types with their decoders and encoders, and the entry points `New`, `Decode` and
`Encode` of `packet.go`. A PUBLISH is the object of `Packet.Publish`; every other packet is a
header with a body. The message decoders are readers: each of them receives the bytes after the
fixed header, with the remaining length as an argument, and whether it stops at the end of its
own packet is up to it.
-/

namespace VolantMQ.Packet

open Lib

/-- `packet.header` -/
structure Header where
  version : ProtocolVersion
  mType : PacketType
  mFlags : UInt8
  packetID : Option IDType
  properties : Property

/-- The header that `newMessage` sets up. -/
def Header.new (v : ProtocolVersion) (t : PacketType) : Header :=
  { version := v
    mType := t
    mFlags := t.defaultFlags
    packetID := none
    properties := .empty }

/-- `header.PropertyGet` -/
def Header.propertyGet (h : Header) (id : PropertyID) : Option PropertyValue :=
  if h.version ≠ ProtocolV50 then none else h.properties.get id

/-- `packet.Connect` after its header -/
structure Connect where
  keepAlive : UInt16
  connectFlags : UInt8
  clientID : Bytes
  username : Bytes
  password : Bytes
  willTopic : GoString
  willMessage : Bytes
  deriving DecidableEq, Repr

/-- The fields of a packet after its header. -/
inductive Body where
  | connect (msg : Connect)
  | connAck (sessionPresent : Bool) (returnCode : ReasonCode)
  | ack (reasonCode : ReasonCode)
  | subscribe (topics : List (GoString × SubscriptionOptions))
  | subAck (returnCodes : List ReasonCode)
  | unSubscribe (topics : List GoString)
  | unSubAck (returnCodes : List ReasonCode)
  | pingReq
  | pingResp
  | disconnect (reasonCode : ReasonCode)
  | auth (authReason : ReasonCode)
  deriving DecidableEq, Repr

/-- The packets behind the interface `packet.Provider`. -/
inductive Message where
  | publish (msg : Publish)
  | control (header : Header) (body : Body)

open PacketType in
/-- `packet.New` -/
def newMessage (v : ProtocolVersion) (t : PacketType) : Except PacketError Message :=
  match t with
  | RESERVED => .error .ErrInvalidMessageType
  | CONNECT => .ok (.control (.new v t) (.connect ⟨0, 0, [], [], [], [], []⟩))
  | CONNACK => .ok (.control (.new v t) (.connAck false 0))
  | PUBLISH => .ok (.publish (.new v))
  | PUBACK | PUBREC | PUBREL | PUBCOMP => .ok (.control (.new v t) (.ack 0))
  | SUBSCRIBE => .ok (.control (.new v t) (.subscribe []))
  | SUBACK => .ok (.control (.new v t) (.subAck []))
  | UNSUBSCRIBE => .ok (.control (.new v t) (.unSubscribe []))
  | UNSUBACK => .ok (.control (.new v t) (.unSubAck []))
  | PINGREQ => .ok (.control (.new v t) .pingReq)
  | PINGRESP => .ok (.control (.new v t) .pingResp)
  | DISCONNECT => .ok (.control (.new v t) (.disconnect 0))
  | AUTH =>
      if v ≠ ProtocolV50 then .error .ErrInvalidMessageType
      else .ok (.control (.new v t) (.auth 0))

/-- The result of a message decoder. -/
abbrev MessageReader := Reader PacketError Message

/-- Refuse a packet with the code that its version knows. -/
def rejectFor {α : Type} (version : ProtocolVersion) (v5 : ReasonCode) : Reader PacketError α :=
  reject (.reason (if version = ProtocolV50 then v5 else CodeRefusedServerUnavailable))

/-- The code of a packet without a valid topic filter. Every supported version gets the old one. -/
def filterReason (version : ProtocolVersion) : ReasonCode :=
  if version ≤ ProtocolV50 then CodeRefusedServerUnavailable else CodeProtocolError

/-- The check that an empty topic comes with an alias. -/
def Publish.aliased (msg : Publish) : Bool :=
  match msg.propertyGet PropertyTopicAlias with
  | some (.short val) => 0 < val
  | _ => false

/-- `Publish.decodeMessage` as a reader -/
def Publish.readMessage (msg : Publish) (remLen : Int) : Reader PacketError Publish :=
  if !msg.qos.isValid then rejectFor msg.version CodeProtocolError
  else if msg.qos == QoS0 && msg.dup then rejectFor msg.version CodeProtocolError
  else do
    let (buf, n) ← lpField.counted
    if buf.length = 0 ∧ msg.version < ProtocolV50 then
      reject (.reason CodeRefusedServerUnavailable)
    else if !validTopic buf then rejectFor msg.version CodeInvalidTopicName
    else do
      let (id, idLen) ←
        (Reader.optional (msg.qos ≠ QoS0) (some <$> packetIDField) msg.packetID).counted
      let (properties, propLen) ←
        (Reader.optional (msg.version = ProtocolV50) (block true .PUBLISH) msg.properties).counted
      let msg := { msg with topic := buf, packetID := id, properties }
      if msg.version = ProtocolV50 && msg.topic.length == 0 && !msg.aliased then
        reject (.reason CodeProtocolError)
      else
        let pLen := remLen - (n + idLen + propLen : ℕ)
        if pLen < 0 then rejectFor msg.version CodeMalformedPacket
        else do
          let payload ← Reader.take (.error (.reason (if msg.version = ProtocolV50 then
            CodeMalformedPacket else CodeRefusedServerUnavailable))) pLen.toNat
          pure { msg with payload := if 0 < pLen then payload else msg.payload }

namespace Connect

def maskConnFlagUsername : UInt8 := 0x80
def maskConnFlagPassword : UInt8 := 0x40
def maskConnFlagWillRetain : UInt8 := 0x20
def maskConnFlagWillQos : UInt8 := 0x18
def maskConnFlagWill : UInt8 := 0x04
def maskConnFlagClean : UInt8 := 0x02
def maskConnFlagReserved : UInt8 := 0x01

def isClean (connectFlags : UInt8) : Bool := (connectFlags &&& maskConnFlagClean) != 0

def willFlag (connectFlags : UInt8) : Bool := (connectFlags &&& maskConnFlagWill) != 0

def willQos (connectFlags : UInt8) : QosType := (connectFlags &&& maskConnFlagWillQos) >>> 3

def willRetain (connectFlags : UInt8) : Bool := (connectFlags &&& maskConnFlagWillRetain) != 0

def usernameFlag (connectFlags : UInt8) : Bool := (connectFlags &&& maskConnFlagUsername) != 0

def passwordFlag (connectFlags : UInt8) : Bool := (connectFlags &&& maskConnFlagPassword) != 0

/-- The characters of `clientIDRegexp`. -/
def clientIDChar (byte : UInt8) : Bool :=
  (0x30 ≤ byte && byte ≤ 0x39) || (0x61 ≤ byte && byte ≤ 0x7A) || (0x41 ≤ byte && byte ≤ 0x5A) ||
    (ascii " -_,.|").contains byte

def validClientID (cid : Bytes) : Bool :=
  cid.length == 0 || (utf8Valid cid && cid.all clientIDChar)

/-- The part of `Connect.decodeMessage` after the variable header. -/
def decodePayload (h : Header) (keepAlive : UInt16) (connectFlags : UInt8) : MessageReader := do
  let clientID ← lpField
  if clientID.length == 0 && !isClean connectFlags then
    reject (.reason CodeRefusedIdentifierRejected)
  else if !validClientID clientID then
    reject (.reason (if h.version = ProtocolV50 then CodeInvalidClientID
      else CodeRefusedIdentifierRejected))
  else do
    let willTopic ← Reader.optional (willFlag connectFlags) lpField []
    let willMessage ← Reader.optional (willFlag connectFlags) lpField []
    let username ← Reader.optional (usernameFlag connectFlags) lpField []
    let password ← Reader.optional (passwordFlag connectFlags) lpField []
    pure (.control h (.connect
      ⟨keepAlive, connectFlags, clientID, username, password, willTopic, willMessage⟩))

/-- The checks of `Connect.decodeMessage` on the connect flags. -/
def rejectFlags (version : ProtocolVersion) (connectFlags : UInt8) : Option ReasonCode :=
  let rejectCode :=
    if version = ProtocolV50 then CodeMalformedPacket else CodeRefusedServerUnavailable
  if connectFlags &&& maskConnFlagReserved ≠ 0 then some rejectCode
  else if !(willQos connectFlags).isValid then some rejectCode
  else if !willFlag connectFlags && (willRetain connectFlags || willQos connectFlags != QoS0) then
    some rejectCode
  else if (!usernameFlag connectFlags && passwordFlag connectFlags) && version < ProtocolV50 then
    some CodeRefusedBadUsernameOrPassword
  else none

/-- `Connect.decodeMessage`. The version of the packet replaces the one it was made for. -/
def decodeMessage (h : Header) : MessageReader := do
  let protoName ← lpField
  if !utf8Valid protoName then reject .ErrProtocolInvalidName
  else do
    let version ← Reader.byte
    if protocolName version ≠ some protoName then reject .ErrInvalidProtocolVersion
    else do
      let connectFlags ← Reader.byte
      match rejectFlags version connectFlags with
      | some rejectCode => reject (.reason rejectCode)
      | none => do
          let keepAlive ← uint16Field
          let properties ← Reader.optional (ProtocolV50 ≤ version)
            (block (ProtocolV50 ≤ h.version) .CONNECT) h.properties
          decodePayload { h with version, properties } keepAlive connectFlags

end Connect

/-- `ConnAck.decodeMessage` -/
def ConnAck.decodeMessage (h : Header) : MessageReader := do
  let flags ← Reader.byte
  if flags &&& ~~~0x01 ≠ 0 then rejectFor h.version CodeMalformedPacket
  else do
    let returnCode ← Reader.byte
    if !ReasonCode.isValidForType returnCode h.mType then rejectFor h.version CodeProtocolError
    else do
      let properties ← Reader.optional (h.version = ProtocolV50) (block true h.mType) h.properties
      pure (.control { h with properties } (.connAck (flags &&& 0x01 != 0) returnCode))

/-- `Ack.decodeMessage` -/
def Ack.decodeMessage (h : Header) : MessageReader := do
  let id ← packetIDField
  let h := { h with packetID := some id }
  if h.version = ProtocolV50 then do
    let done ← Reader.atEnd
    if done then pure (.control h (.ack CodeSuccess))
    else do
      let reasonCode ← Reader.byte
      if !ReasonCode.isValidForType reasonCode h.mType then reject (.reason CodeMalformedPacket)
      else do
        let done ← Reader.atEnd
        let properties ← Reader.optional (!done) (block true h.mType) h.properties
        pure (.control { h with properties } (.ack reasonCode))
  else pure (.control h (.ack 0))

namespace Subscribe

/-- The loop of `Subscribe.decodeMessage`. Every round lowers `remLen`. -/
def decodeTopics (version : ProtocolVersion) : ℕ → Int → List (GoString × SubscriptionOptions) →
    Reader PacketError (List (GoString × SubscriptionOptions))
  | 0, _, topics => pure topics
  | rounds + 1, remLen, topics =>
      if remLen ≤ 0 then pure topics
      else do
        let (t, n) ← lpField.counted
        if !utf8Valid t then reject (.reason (filterReason version))
        else do
          let subsOptions ← Reader.byte
          if version = ProtocolV50 ∧
              subsOptions &&& SubscriptionOptions.maskSubscriptionReserved ≠ 0 then
            reject (.reason CodeProtocolError)
          else if !(SubscriptionOptions.qos subsOptions).isValid then
            reject (.reason (filterReason version))
          else decodeTopics version rounds (remLen - n - 1) (topics ++ [(t, subsOptions)])

/-- `Subscribe.decodeMessage` -/
def decodeMessage (h : Header) (remLen : Int) : MessageReader := do
  let (id, idLen) ← packetIDField.counted
  let (properties, propLen) ←
    (Reader.optional (h.version = ProtocolV50) (block true h.mType) h.properties).counted
  let left := remLen - (idLen + propLen : ℕ)
  let topics ← decodeTopics h.version left.toNat left []
  if topics.length = 0 then reject (.reason (filterReason h.version))
  else pure (.control { h with packetID := some id, properties } (.subscribe topics))

end Subscribe

namespace SubAck

/-- The loop of `SubAck.decodeMessage` -/
def checkCodes (h : Header) : List ReasonCode → Reader PacketError Unit
  | [] => pure ()
  | code :: rest =>
      if h.version = ProtocolV50 ∧ !ReasonCode.isValidForType code h.mType then
        reject (.reason CodeProtocolError)
      else if !QosType.isValidFull code then reject (.reason CodeRefusedServerUnavailable)
      else checkCodes h rest

/-- `SubAck.decodeMessage`. A property block that goes beyond the packet makes the slice of the
return codes out of range. -/
def decodeMessage (h : Header) (remLen : Int) : MessageReader := do
  let (id, idLen) ← packetIDField.counted
  let (properties, propLen) ←
    (Reader.optional (h.version = ProtocolV50) (block true h.mType) h.properties).counted
  let numCodes := remLen - (idLen + propLen : ℕ)
  if numCodes < 0 then .fail .panic
  else do
    let returnCodes ← Reader.take .panic numCodes.toNat
    checkCodes h returnCodes
    pure (.control { h with packetID := some id, properties } (.subAck returnCodes))

end SubAck

namespace UnSubscribe

/-- The loop of `UnSubscribe.decodeMessage`. Every round takes one byte too many off `remLen`. -/
def decodeTopics : ℕ → Int → List GoString → Reader PacketError (List GoString)
  | 0, _, topics => pure topics
  | rounds + 1, remLen, topics =>
      if remLen ≤ 0 then pure topics
      else do
        let (t, n) ← lpField.counted
        if !utf8Valid t then reject .ErrMalformedTopic
        else decodeTopics rounds (remLen - n - 1) (topics ++ [t])

/-- `UnSubscribe.decodeMessage` -/
def decodeMessage (h : Header) (remLen : Int) : MessageReader := do
  let (id, total) ← packetIDField.counted
  let left := remLen - total
  let topics ← decodeTopics left.toNat left []
  if topics.length = 0 then reject (.reason (filterReason h.version))
  else pure (.control { h with packetID := some id } (.unSubscribe topics))

end UnSubscribe

/-- `UnSubAck.decodeMessage`, which does not read the return codes. -/
def UnSubAck.decodeMessage (h : Header) (remLen : Int) : MessageReader := do
  let (id, offset) ← packetIDField.counted
  let properties ← Reader.optional (h.version = ProtocolV50 ∧ 0 < remLen - offset)
    (block true h.mType) h.properties
  pure (.control { h with packetID := some id, properties } (.unSubAck []))

/-- `Disconnect.decodeMessage`. With a remaining length of one it skips a byte of whatever comes
after the packet. -/
def Disconnect.decodeMessage (h : Header) (remLen : Int) : MessageReader :=
  if h.version = ProtocolV50 then
    if remLen < 1 then pure (.control h (.disconnect CodeSuccess))
    else do
      let reasonCode ← Reader.byte
      if !ReasonCode.isValidForType reasonCode h.mType then reject (.reason CodeProtocolError)
      else if remLen < 2 then do
        let done ← Reader.atEnd
        if done then reject (.reason CodeMalformedPacket)
        else do
          let _ ← Reader.byte
          pure (.control h (.disconnect reasonCode))
      else do
        let properties ← block true h.mType
        pure (.control { h with properties } (.disconnect reasonCode))
  else if 0 < remLen then reject (.reason CodeRefusedServerUnavailable)
  else pure (.control h (.disconnect 0))

/-- `Auth.decodeMessage`, which reads the properties from the byte of the reason on. -/
def Auth.decodeMessage (h : Header) : MessageReader := do
  let authReason ← Reader.peek
  if !ReasonCode.isValidForType authReason h.mType then reject (.reason CodeProtocolError)
  else do
    let properties ← block true h.mType
    pure (.control { h with properties } (.auth authReason))

open PacketType in
/-- The callback `header.cb.decode` of a packet type. -/
def decodeMessage (v : ProtocolVersion) (t : PacketType) (mFlags : UInt8) (remLen : Int) :
    MessageReader :=
  let h := { Header.new v t with mFlags }
  match t with
  | RESERVED => reject .ErrInvalidMessageType
  | CONNECT => Connect.decodeMessage h
  | CONNACK => ConnAck.decodeMessage h
  | PUBLISH => .publish <$> Publish.readMessage { Publish.new v with mFlags } remLen
  | PUBACK | PUBREC | PUBREL | PUBCOMP => Ack.decodeMessage h
  | SUBSCRIBE => Subscribe.decodeMessage h remLen
  | SUBACK => SubAck.decodeMessage h remLen
  | UNSUBSCRIBE => UnSubscribe.decodeMessage h remLen
  | UNSUBACK => UnSubAck.decodeMessage h remLen
  | PINGREQ => pure (.control h .pingReq)
  | PINGRESP => pure (.control h .pingResp)
  | DISCONNECT => Disconnect.decodeMessage h remLen
  | AUTH => Auth.decodeMessage h

/-- The check of the flags in `header.decode`. -/
def flagsRejected (t : PacketType) (mFlags : UInt8) : Bool :=
  (t ≠ .PUBLISH && mFlags != t.defaultFlags) ||
    !QosType.isValid ((mFlags &&& Publish.maskPublishFlagQoS) >>> 1)

/-- `header.decode` -/
def Header.decode (v : ProtocolVersion) (first : UInt8) (rest : Bytes) :
    Except (Fault PacketError) (Message × ℕ) :=
  let mType := PacketType.ofFirstByte first
  let mFlags := first &&& 0x0F
  if flagsRejected mType mFlags then Publish.rejectWith v CodeMalformedPacket
  else
    let (remLen, m) := uvarint rest
    if m ≤ 0 then .error (.error .ErrInsufficientDataSize)
    else
      let remLen := Publish.toInt32 remLen.toNat
      let body := rest.drop m.toNat
      if (body.length : Int) < remLen then .error (.error .ErrInsufficientDataSize)
      else ((decodeMessage v mType mFlags remLen).run body).map fun (msg, n) => (msg, 1 + m.toNat + n)

/-- `packet.Decode`; a panic is turned into `ErrPanicDetected`. -/
def decode (v : ProtocolVersion) (buf : Bytes) : Except PacketError (Message × ℕ) :=
  match buf with
  | [] => .error .ErrInsufficientBufferSize
  | first :: rest =>
      match newMessage v (.ofFirstByte first) with
      | .error e => .error e
      | .ok _ =>
          match Header.decode v first rest with
          | .ok result => .ok result
          | .error (.error e) => .error e
          | .error .panic => .error .ErrPanicDetected

namespace Publish

theorem decodePayload_eq (msg : Publish) (remLen : Int) (offset : ℕ) (src : Bytes) :
    msg.decodePayload remLen offset src =
      if remLen - offset < 0 then rejectWith msg.version CodeMalformedPacket
      else ((Reader.take (.error (.reason (if msg.version = ProtocolV50 then CodeMalformedPacket
            else CodeRefusedServerUnavailable))) (remLen - offset).toNat).run (src.drop offset)).map
          fun (payload, n) => ({ msg with
            payload := if 0 < remLen - offset then payload else msg.payload }, offset + n) := by
  simp only [decodePayload]
  split
  · rfl
  · rename_i enough
    have rest : (src.drop offset).length = src.length - offset := List.length_drop
    by_cases short : ((src.length - offset : ℕ) : Int) < remLen - offset
    · rw [if_pos short, Reader.run_take_of_lt (by omega)]
      rfl
    · rw [if_neg short, Reader.run_take_of_le (by omega)]
      by_cases some : 0 < remLen - offset
      · simp only [if_pos some, Except.map]
      · have none : (remLen - offset).toNat = 0 := by omega
        simp only [if_neg some, none, Except.map, Nat.add_zero]

/-- The identifier of a PUBLISH as a reader. -/
theorem decodeMessageID_run (msg : Publish) (src : Bytes) :
    ∃ id idLen, msg.decodeMessageID src = ({ msg with packetID := id }, idLen) ∧
      (Reader.optional (msg.qos ≠ QoS0) (some <$> packetIDField) msg.packetID).run src =
        .ok (id, idLen) := by
  unfold decodeMessageID
  by_cases ack : msg.qos ≠ QoS0
  · rw [Reader.optional_of_present ack, Reader.run_map, if_pos ack]
    exact ⟨_, _, rfl, rfl⟩
  · rw [Reader.optional_of_absent ack, if_neg ack]
    exact ⟨_, _, rfl, rfl⟩

theorem decodeProperties_eq (msg : Publish) (blank : msg.properties = .empty) (src : Bytes) :
    msg.decodeProperties src =
      match (Reader.optional (msg.version = ProtocolV50) (block true .PUBLISH) msg.properties).run
        src with
      | .error fault => .error fault
      | .ok (properties, n) =>
          if msg.version = ProtocolV50 && msg.topic.length == 0 &&
              !({ msg with properties } : Publish).aliased then
            .error (.error (.reason CodeProtocolError))
          else .ok ({ msg with properties }, n) := by
  unfold decodeProperties
  by_cases five : msg.version = ProtocolV50
  · rw [if_pos five, Reader.optional_of_present five, run_block, blank]
    cases Property.empty.decode .PUBLISH src with
    | error fault => rfl
    | ok result =>
        rcases result with ⟨properties, n⟩
        by_cases nameless : msg.topic.length = 0
        · simp only [nameless, five, aliased, decide_true, Bool.true_and, beq_self_eq_true, if_true]
          generalize Publish.propertyGet _ PropertyTopicAlias = found
          rcases found with _ | val
          · rfl
          · cases val with
            | short val => by_cases positive : 0 < val <;> simp [positive]
            | _ => rfl
        · simp [nameless]
  · rw [if_neg five, Reader.optional_of_absent five]
    simp [five]

/-- The reader is the decoder of `Packet.Publish`. -/
theorem run_readMessage (msg : Publish) (blank : msg.properties = .empty) (remLen : Int)
    (src : Bytes) : (msg.readMessage remLen).run src = msg.decodeMessage remLen src := by
  unfold readMessage decodeMessage
  split
  · rfl
  · split
    · rfl
    · cases readTopic : readLPBytes src with
      | error fault => exact Reader.run_bind_of_error (Reader.run_counted_of_error readTopic)
      | ok result =>
          rcases result with ⟨buf, n⟩
          have topicBound := (readLPBytes_eq_ok readTopic).2.2
          have topicRead : lpField.run src = .ok (buf, n) := readTopic
          rw [Reader.run_bind_of_ok (Reader.run_counted_of_ok topicRead)]
          simp only
          split
          · rfl
          · split
            · rfl
            · rcases decodeMessageID_run { msg with topic := buf } (src.drop n) with
                ⟨id, idLen, named, idRun⟩
              change (Reader.optional (msg.qos ≠ QoS0) _ msg.packetID).run _ = _ at idRun
              rw [Reader.run_bind_of_ok (Reader.run_counted_of_ok idRun), named]
              simp only
              rw [decodeProperties_eq { msg with topic := buf, packetID := id } blank,
                List.drop_drop]
              cases props : (Reader.optional (msg.version = ProtocolV50) (block true .PUBLISH)
                  msg.properties).run (src.drop (n + idLen)) with
              | error fault =>
                  rw [Reader.run_bind_of_error (Reader.run_counted_of_error props)]
                  rfl
              | ok result =>
                  rcases result with ⟨properties, propLen⟩
                  rw [Reader.run_bind_of_ok (Reader.run_counted_of_ok props), List.drop_drop]
                  simp only
                  split
                  · rfl
                  · simp only
                    rw [decodePayload_eq]
                    split
                    · rfl
                    · cases payload : (Reader.take (Fault.error (PacketError.reason
                          (if msg.version = ProtocolV50 then CodeMalformedPacket
                            else CodeRefusedServerUnavailable))) (remLen - (n + idLen + propLen : ℕ)).toNat).run
                          (src.drop (n + idLen + propLen)) with
                      | error fault =>
                          rw [Reader.run_bind_of_error payload]
                          rfl
                      | ok result =>
                          rw [Reader.run_bind_of_ok payload]
                          simp only [Except.map, Except.ok.injEq, Prod.mk.injEq, true_and,
                            Reader.run_pure]
                          omega

end Publish

theorem Header.decode_publish (v : ProtocolVersion) {first : UInt8} (rest : Bytes)
    (announced : PacketType.ofFirstByte first = .PUBLISH) :
    Header.decode v first rest =
      (Publish.decodeHeader v (first :: rest)).map fun (msg, n) => (.publish msg, n) := by
  have flags : flagsRejected .PUBLISH (first &&& 0x0F) =
      !({ Publish.new v with mFlags := first &&& 0x0F } : Publish).qos.isValid := rfl
  simp only [Header.decode, announced, flags, Publish.decodeHeader]
  split
  · rfl
  · split
    · rfl
    · split
      · rfl
      · simp only [decodeMessage]
        rw [Reader.run_map, Publish.run_readMessage _ rfl]
        cases Publish.decodeMessage _ _ _ <;> rfl

/-- On a frame that announces a PUBLISH, `Decode` is the decoder of `Packet.Publish`. -/
theorem decode_publish (v : ProtocolVersion) {first : UInt8} (rest : Bytes)
    (announced : PacketType.ofFirstByte first = .PUBLISH) :
    decode v (first :: rest) =
      (decodePublish v (first :: rest)).map fun (msg, n) => (.publish msg, n) := by
  simp only [decode, announced, newMessage, Header.decode_publish v rest announced, decodePublish]
  rcases Publish.decodeHeader v (first :: rest) with (_ | _) | _ <;> rfl

namespace Header

/-- The properties of a header as `version` has them. -/
def blockSize (h : Header) : ℕ := if h.version = ProtocolV50 then h.properties.fullLen.toNat else 0

/-- `msg.properties.encode` in the versions that have properties -/
def encodeBlock (order : MapOrder PropertyEntry) (h : Header) : Writer PacketError :=
  if h.version = ProtocolV50 then h.properties.encode order else .skip

/-- `header.encodePacketID` behind the check that there is an identifier -/
def encodePacketID (h : Header) (next : Writer PacketError) : Writer PacketError :=
  match h.packetID with
  | none => .fail .ErrPackedIDZero
  | some id => .seq (.copy (putUint16 id)) next

/-- The size of a reason code with properties, which are left out if they say nothing. -/
def reasonSize (h : Header) (reasonCode : ReasonCode) : ℕ :=
  if h.version = ProtocolV50 then
    if 1 < h.properties.fullLen ∨ reasonCode ≠ CodeSuccess then
      1 + if 1 < h.properties.fullLen then h.properties.fullLen.toNat else 0
    else 0
  else 0

/-- The encoding of a reason code with properties, which are left out if they say nothing. -/
def encodeReason (order : MapOrder PropertyEntry) (h : Header) (reasonCode : ReasonCode) :
    Writer PacketError :=
  if h.version = ProtocolV50 then
    if 1 < h.properties.fullLen ∨ reasonCode ≠ CodeSuccess then
      .seq (.put [reasonCode])
        (if 1 < h.properties.fullLen then h.properties.encode order else .skip)
    else .skip
  else .skip

end Header

namespace Connect

/-- `Connect.size` -/
def size (h : Header) (msg : Connect) : ℕ :=
  match protocolName h.version with
  | none => 0
  | some name =>
      2 + name.length + 1 + 1 + 2 +
        (if ProtocolV50 ≤ h.version then h.properties.fullLen.toNat else 0) +
        (2 + msg.clientID.length) +
        (if willFlag msg.connectFlags then 2 + msg.willTopic.length + 2 + msg.willMessage.length
          else 0) +
        (if usernameFlag msg.connectFlags then 2 + msg.username.length else 0) +
        (if passwordFlag msg.connectFlags then 2 + msg.password.length else 0)

/-- `Connect.encodeMessage` -/
def encodeMessage (order : MapOrder PropertyEntry) (h : Header) (msg : Connect) :
    Writer PacketError :=
  match protocolName h.version with
  | none => .fail .ErrInvalidProtocolVersion
  | some name =>
      .seq (writeLPBytes name) <|
      .seq (.put [h.version]) <|
      .seq (.put [msg.connectFlags]) <|
      .seq (.put (putUint16 msg.keepAlive)) <|
      .seq (if ProtocolV50 ≤ h.version then h.properties.encode order else .skip) <|
      .seq (writeLPBytes msg.clientID) <|
      .seq (if willFlag msg.connectFlags then
        .seq (writeLPBytes msg.willTopic) (writeLPBytes msg.willMessage) else .skip) <|
      .seq (if usernameFlag msg.connectFlags then writeLPBytes msg.username else .skip) <|
      if passwordFlag msg.connectFlags then writeLPBytes msg.password else .skip

end Connect

/-- `Auth.encodeMessage`, which writes the properties over the byte of the reason. -/
def Auth.encodeMessage (order : MapOrder PropertyEntry) (h : Header) (authReason : ReasonCode) :
    Writer PacketError
  | [] => .error .panic
  | _ :: rest => h.properties.encode order (authReason :: rest)

/-- `UnSubscribe.encodeMessage` -/
def UnSubscribe.encodeMessage (h : Header) (topics : List GoString) : Writer PacketError :=
  match h.packetID with
  | none => .fail .ErrPackedIDZero
  | some id =>
      if topics.length = 0 then .fail .ErrInvalidLength
      else .seq (.copy (putUint16 id)) (.each writeLPBytes topics)

namespace Body

/-- The callback `header.cb.size` of a packet type. -/
def size (h : Header) : Body → ℕ
  | connect msg => msg.size h
  | connAck _ _ => 2 + h.blockSize
  | ack reasonCode => 2 + h.reasonSize reasonCode
  | subscribe topics => 2 + h.blockSize + (topics.map fun (t, _) => 2 + t.length + 1).sum
  | subAck returnCodes => 2 + returnCodes.length + h.blockSize
  | unSubscribe topics => 2 + (topics.map fun t => 2 + t.length).sum
  | unSubAck _ => 2 + h.blockSize
  | pingReq | pingResp => 0
  | disconnect reasonCode => h.reasonSize reasonCode
  | auth _ => 1 + h.properties.fullLen.toNat

/-- The callback `header.cb.encode` of a packet type. -/
def encodeMessage (order : MapOrder PropertyEntry) (h : Header) : Body → Writer PacketError
  | connect msg => msg.encodeMessage order h
  | connAck sessionPresent returnCode =>
      .seq (.put [if sessionPresent then 1 else 0]) <| .seq (.put [returnCode]) <|
      h.encodeBlock order
  | ack reasonCode => h.encodePacketID (h.encodeReason order reasonCode)
  | subscribe topics => h.encodePacketID <| .thenEach (h.encodeBlock order)
      (fun (t, ops) => .seq (writeLPBytes t) (.put [ops])) topics
  | subAck returnCodes => h.encodePacketID <| .thenEach (h.encodeBlock order)
      (fun q => .put [q]) returnCodes
  | unSubscribe topics => UnSubscribe.encodeMessage h topics
  | unSubAck _ => h.encodePacketID (h.encodeBlock order)
  | pingReq | pingResp => .skip
  | disconnect reasonCode => h.encodeReason order reasonCode
  | auth authReason => Auth.encodeMessage order h authReason

end Body

namespace Message

def mType : Message → PacketType
  | publish _ => .PUBLISH
  | control h _ => h.mType

def mFlags : Message → UInt8
  | publish msg => msg.mFlags
  | control h _ => h.mFlags

def packetID : Message → Option IDType
  | publish msg => msg.packetID
  | control h _ => h.packetID

def size : Message → ℕ
  | publish msg => msg.size
  | control h body => body.size h

def encodeMessage (order : MapOrder PropertyEntry) : Message → Writer PacketError
  | publish msg => msg.encodeMessage order
  | control h body => body.encodeMessage order h

/-- `header.setRemainingLength` on the truncated size -/
def remainingLength (m : Message) : Except PacketError ℕ :=
  let remLen := Publish.toInt32 m.size
  if maxRemainingLength < remLen ∨ remLen < 0 then .error .ErrInvalidLength
  else .ok remLen.toNat

/-- `header.Size` -/
def fullSize (m : Message) : Except PacketError ℕ :=
  m.remainingLength.map fun remLen => 1 + uvarintCalc (UInt32.ofNat remLen) + m.size

/-- `header.Encode` -/
def encodeTo (order : MapOrder PropertyEntry) (m : Message) : Writer PacketError := fun dest =>
  match m.remainingLength with
  | .error e => .error (.error e)
  | .ok remLen =>
      if dest.length < 1 + uvarintCalc (UInt32.ofNat remLen) + m.size then
        .error (.error .ErrInsufficientBufferSize)
      else
        Writer.seq (.put [(m.mType.code <<< 4) ||| m.mFlags])
          (.seq (.put (putUvarint remLen)) (m.encodeMessage order)) dest

/-- `packet.Encode` -/
def encode (order : MapOrder PropertyEntry) (m : Message) : Except (Fault PacketError) Bytes :=
  match m.fullSize with
  | .error e => .error (.error e)
  | .ok sz => (m.encodeTo order (List.replicate sz 0)).map Prod.fst

/-- For a PUBLISH this is the encoder of `Packet.Publish`. -/
theorem encode_publish (order : MapOrder PropertyEntry) (msg : Publish) :
    (publish msg).encode order = msg.encode order := rfl

end Message

end VolantMQ.Packet
