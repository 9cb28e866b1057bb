import VolantMQ.Lib.Buffer

/-!
# Basic types of the packet package

Byte-sized newtypes of the source (`ProtocolVersion`, `QosType`, `ReasonCode`,
`SubscriptionOptions`) stay bytes, with the source's constants, because the code compares
and masks them as bytes. A Go string is its bytes.
-/

namespace VolantMQ

open Lib

/-- A Go string: an immutable byte sequence, not necessarily UTF-8. -/
abbrev GoString := Bytes

/-- The Go string of an ASCII literal. -/
def ascii (literal : String) : GoString :=
  literal.toList.map fun char => UInt8.ofNat char.toNat

namespace Packet

abbrev ProtocolVersion := UInt8

def ProtocolV31 : ProtocolVersion := 0x3
def ProtocolV311 : ProtocolVersion := 0x4
def ProtocolV50 : ProtocolVersion := 0x5

/-- The keys of the map `packet.SupportedVersions`. -/
def SupportedVersions : List ProtocolVersion := [ProtocolV31, ProtocolV311, ProtocolV50]

/-- The protocol names in the map `packet.SupportedVersions`. -/
def protocolName (v : ProtocolVersion) : Option GoString :=
  if v = ProtocolV31 then some (ascii "MQIsdp")
  else if v = ProtocolV311 ∨ v = ProtocolV50 then some (ascii "MQTT")
  else none

/-- Maximum size of a length-prefixed string. -/
def MaxLPString : ℕ := 65535

/-- `maxRemainingLength`: 256 MB less one. -/
def maxRemainingLength : Int := 256 * 1024 * 1024 - 1

abbrev QosType := UInt8

def QoS0 : QosType := 0
def QoS1 : QosType := 1
def QoS2 : QosType := 2
def QosFailure : QosType := 0x80

def QosType.isValid (qos : QosType) : Bool := qos == QoS0 || qos == QoS1 || qos == QoS2

def QosType.isValidFull (qos : QosType) : Bool :=
  !(qos != QoS0 && qos != QoS1 && qos != QoS2 && qos != QosFailure)

abbrev IDType := UInt16

/-- `packet.Type`, the four-bit packet type. -/
inductive PacketType where
  | RESERVED | CONNECT | CONNACK | PUBLISH | PUBACK | PUBREC | PUBREL | PUBCOMP
  | SUBSCRIBE | SUBACK | UNSUBSCRIBE | UNSUBACK | PINGREQ | PINGRESP | DISCONNECT | AUTH
  deriving DecidableEq, Repr

namespace PacketType

/-- The numeric value of a packet type. -/
def code : PacketType → UInt8
  | RESERVED => 0
  | CONNECT => 1
  | CONNACK => 2
  | PUBLISH => 3
  | PUBACK => 4
  | PUBREC => 5
  | PUBREL => 6
  | PUBCOMP => 7
  | SUBSCRIBE => 8
  | SUBACK => 9
  | UNSUBSCRIBE => 10
  | UNSUBACK => 11
  | PINGREQ => 12
  | PINGRESP => 13
  | DISCONNECT => 14
  | AUTH => 15

/-- `Type(buf[0] >> offsetPacketType)` -/
def ofFirstByte (byte : UInt8) : PacketType :=
  match (byte >>> 4).toNat with
  | 1 => CONNECT
  | 2 => CONNACK
  | 3 => PUBLISH
  | 4 => PUBACK
  | 5 => PUBREC
  | 6 => PUBREL
  | 7 => PUBCOMP
  | 8 => SUBSCRIBE
  | 9 => SUBACK
  | 10 => UNSUBSCRIBE
  | 11 => UNSUBACK
  | 12 => PINGREQ
  | 13 => PINGRESP
  | 14 => DISCONNECT
  | 15 => AUTH
  | _ => RESERVED

/-- `Type.DefaultFlags`, the table `typeDefaultFlags`. -/
def defaultFlags : PacketType → UInt8
  | PUBREL | SUBSCRIBE | UNSUBSCRIBE => 2
  | _ => 0

end PacketType

abbrev ReasonCode := UInt8

def CodeSuccess : ReasonCode := 0x00
def CodeRefusedUnacceptableProtocolVersion : ReasonCode := 0x01
def CodeRefusedIdentifierRejected : ReasonCode := 0x02
def CodeRefusedServerUnavailable : ReasonCode := 0x03
def CodeRefusedBadUsernameOrPassword : ReasonCode := 0x04
def CodeRefusedNotAuthorized : ReasonCode := 0x05
def CodeNoMatchingSubscribers : ReasonCode := 0x10
def CodeNoSubscriptionExisted : ReasonCode := 0x11
def CodeContinueAuthentication : ReasonCode := 0x18
def CodeReAuthenticate : ReasonCode := 0x19
def CodeUnspecifiedError : ReasonCode := 0x80
def CodeMalformedPacket : ReasonCode := 0x81
def CodeProtocolError : ReasonCode := 0x82
def CodeImplementationSpecificError : ReasonCode := 0x83
def CodeUnsupportedProtocol : ReasonCode := 0x84
def CodeInvalidClientID : ReasonCode := 0x85
def CodeBadUserOrPassword : ReasonCode := 0x86
def CodeNotAuthorized : ReasonCode := 0x87
def CodeServerUnavailable : ReasonCode := 0x88
def CodeServerBusy : ReasonCode := 0x89
def CodeBanned : ReasonCode := 0x8A
def CodeServerShuttingDown : ReasonCode := 0x8B
def CodeBadAuthMethod : ReasonCode := 0x8C
def CodeKeepAliveTimeout : ReasonCode := 0x8D
def CodeSessionTakenOver : ReasonCode := 0x8E
def CodeInvalidTopicFilter : ReasonCode := 0x8F
def CodeInvalidTopicName : ReasonCode := 0x90
def CodePacketIDInUse : ReasonCode := 0x91
def CodePacketIDNotFound : ReasonCode := 0x92
def CodeReceiveMaximumExceeded : ReasonCode := 0x93
def CodeInvalidTopicAlias : ReasonCode := 0x94
def CodePacketTooLarge : ReasonCode := 0x95
def CodeMessageRateTooHigh : ReasonCode := 0x96
def CodeQuotaExceeded : ReasonCode := 0x97
def CodeAdministrativeAction : ReasonCode := 0x98
def CodeInvalidPayloadFormat : ReasonCode := 0x99
def CodeRetainNotSupported : ReasonCode := 0x9A
def CodeNotSupportedQoS : ReasonCode := 0x9B
def CodeUseAnotherServer : ReasonCode := 0x9C
def CodeServerMoved : ReasonCode := 0x9D
def CodeSharedSubscriptionNotSupported : ReasonCode := 0x9E
def CodeConnectionRateExceeded : ReasonCode := 0x9F
def CodeMaximumConnectTime : ReasonCode := 0xA0
def CodeSubscriptionIDNotSupported : ReasonCode := 0xA1
def CodeWildcardSubscriptionsNotSupported : ReasonCode := 0xA2

/-- The keys of `packetTypeCodeMap`: the reason codes that each packet type may carry. -/
def packetTypeCodes : PacketType → List ReasonCode
  | .CONNACK =>
      [CodeSuccess, CodeRefusedUnacceptableProtocolVersion, CodeRefusedIdentifierRejected,
        CodeRefusedServerUnavailable, CodeRefusedBadUsernameOrPassword, CodeRefusedNotAuthorized,
        CodeUnspecifiedError, CodeMalformedPacket, CodeImplementationSpecificError,
        CodeUnsupportedProtocol, CodeInvalidClientID, CodeBadUserOrPassword, CodeNotAuthorized,
        CodeServerUnavailable, CodeServerBusy, CodeBanned, CodeBadAuthMethod, CodeInvalidTopicName,
        CodePacketTooLarge, CodeQuotaExceeded, CodeRetainNotSupported, CodeNotSupportedQoS,
        CodeUseAnotherServer, CodeServerMoved, CodeConnectionRateExceeded]
  | .PUBACK =>
      [CodeSuccess, CodeNoMatchingSubscribers, CodeUnspecifiedError,
        CodeImplementationSpecificError, CodeNotAuthorized, CodeInvalidTopicName, CodeQuotaExceeded,
        CodeInvalidPayloadFormat]
  | .PUBREC =>
      [CodeSuccess, CodeNoMatchingSubscribers, CodeUnspecifiedError,
        CodeImplementationSpecificError, CodeNotAuthorized, CodeInvalidTopicName, CodePacketIDInUse,
        CodeQuotaExceeded, CodeInvalidPayloadFormat]
  | .PUBREL | .PUBCOMP =>
      [CodeSuccess, CodePacketIDNotFound]
  | .SUBACK =>
      [0, 1, 2, CodeUnspecifiedError, CodeImplementationSpecificError, CodeNotAuthorized,
        CodeInvalidTopicFilter, CodePacketIDInUse, CodeQuotaExceeded,
        CodeSharedSubscriptionNotSupported, CodeSubscriptionIDNotSupported,
        CodeWildcardSubscriptionsNotSupported]
  | .UNSUBACK =>
      [CodeSuccess, CodeNoSubscriptionExisted, CodeUnspecifiedError,
        CodeImplementationSpecificError, CodeNotAuthorized, CodeInvalidTopicFilter,
        CodePacketIDInUse]
  | .DISCONNECT =>
      [CodeSuccess, CodeRefusedBadUsernameOrPassword, CodeUnspecifiedError, CodeMalformedPacket,
        CodeProtocolError, CodeImplementationSpecificError, CodeNotAuthorized, CodeServerBusy,
        CodeServerShuttingDown, CodeKeepAliveTimeout, CodeSessionTakenOver, CodeInvalidTopicFilter,
        CodeInvalidTopicName, CodePacketTooLarge, CodeReceiveMaximumExceeded, CodeInvalidTopicAlias,
        CodeMessageRateTooHigh, CodeQuotaExceeded, CodeAdministrativeAction,
        CodeInvalidPayloadFormat, CodeRetainNotSupported, CodeNotSupportedQoS, CodeUseAnotherServer,
        CodeServerMoved, CodeSharedSubscriptionNotSupported, CodeConnectionRateExceeded,
        CodeMaximumConnectTime, CodeSubscriptionIDNotSupported,
        CodeWildcardSubscriptionsNotSupported]
  | .AUTH =>
      [CodeSuccess, CodeContinueAuthentication, CodeReAuthenticate]
  | _ => []

def ReasonCode.isValidForType (c : ReasonCode) (p : PacketType) : Bool :=
  (packetTypeCodes p).contains c

/-- The members of `packet.Error` and `packet.PropertyError` that the modelled functions
return, and a `ReasonCode` used as an error. -/
inductive PacketError where
  | ErrDupViolation
  | ErrPackedIDZero
  | ErrInvalidMessageType
  | ErrInvalidQoS
  | ErrInvalidLength
  | ErrInsufficientBufferSize
  | ErrInsufficientDataSize
  | ErrInvalidTopic
  | ErrInvalidReturnCode
  | ErrInvalidLPStringSize
  | ErrMalformedTopic
  | ErrInvalidProtocolVersion
  | ErrPanicDetected
  | ErrNotSupported
  | ErrProtocolInvalidName
  | ErrPropertyInvalidID
  | ErrPropertyPacketTypeMismatch
  | ErrPropertyWrongType
  | reason (code : ReasonCode)
  deriving DecidableEq, Repr

abbrev RetainHandling := UInt8

def RetainHandlingRetain : RetainHandling := 0
def RetainHandlingIfNotExists : RetainHandling := 1

abbrev SubscriptionOptions := UInt8

namespace SubscriptionOptions

def maskSubscriptionQoS : UInt8 := 0x03
def maskSubscriptionNL : UInt8 := 0x04
def maskSubscriptionRAP : UInt8 := 0x08
def maskSubscriptionRetainHandling : UInt8 := 0x30
def maskSubscriptionReserved : UInt8 := 0xC0

def qos (ops : SubscriptionOptions) : QosType := ops &&& maskSubscriptionQoS

/-- `SubscriptionOptions.NL`: in Go `&` and `>>` bind equally and to the left. -/
def nl (ops : SubscriptionOptions) : Bool := ((ops &&& maskSubscriptionNL) >>> 2) != 0

def rap (ops : SubscriptionOptions) : Bool := ((ops &&& maskSubscriptionRAP) >>> 3) != 0

def retainHandling (ops : SubscriptionOptions) : RetainHandling :=
  (ops &&& maskSubscriptionRetainHandling) >>> 4

end SubscriptionOptions

/-- A continuation byte. -/
def isContinuation (byte : UInt8) : Bool := 0x80 ≤ byte && byte ≤ 0xBF

/-- `utf8.Valid`: well-formed sequences of at most four bytes, without overlong forms and
without surrogates. -/
def utf8Valid : Bytes → Bool
  | [] => true
  | b0 :: rest =>
      if b0 < 0x80 then utf8Valid rest
      else
        match rest with
        | [] => false
        | b1 :: rest1 =>
            if 0xC2 ≤ b0 && b0 ≤ 0xDF then isContinuation b1 && utf8Valid rest1
            else
              match rest1 with
              | [] => false
              | b2 :: rest2 =>
                  if 0xE0 ≤ b0 && b0 ≤ 0xEF then
                    -- E0 excludes overlong forms, ED excludes the surrogates
                    (if b0 == 0xE0 then 0xA0 ≤ b1 && b1 ≤ 0xBF
                      else if b0 == 0xED then 0x80 ≤ b1 && b1 ≤ 0x9F
                      else isContinuation b1) && isContinuation b2 && utf8Valid rest2
                  else
                    match rest2 with
                    | [] => false
                    | b3 :: rest3 =>
                        -- F0 excludes overlong forms, F4 stops at U+10FFFF
                        0xF0 ≤ b0 && b0 ≤ 0xF4 &&
                          (if b0 == 0xF0 then 0x90 ≤ b1 && b1 ≤ 0xBF
                            else if b0 == 0xF4 then 0x80 ≤ b1 && b1 ≤ 0x8F
                            else isContinuation b1) &&
                          isContinuation b2 && isContinuation b3 && utf8Valid rest3

def validTopic (topic : GoString) : Bool :=
  utf8Valid topic && !topic.contains 0x23 && !topic.contains 0x2B

end Packet

end VolantMQ
