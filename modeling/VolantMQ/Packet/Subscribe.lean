import VolantMQ.Packet.Arrival

/-!
# SUBSCRIBE packets

The `Subscribe` object of `subscribe.go` and the return codes of its answer, the `SubAck` object of
`suback.go`. A V5.0 packet may carry one subscription identifier,
which comes from a variable-length integer on the wire and is therefore small.
-/

namespace VolantMQ.Packet

open Lib

/-- `packet.Subscribe`, with the filters and their options side by side. -/
structure Subscribe where
  version : ProtocolVersion
  packetID : Option IDType
  properties : Property
  topics : List (GoString × SubscriptionOptions)

namespace Subscribe

/-- `header.PropertyGet` -/
def propertyGet (msg : Subscribe) (id : PropertyID) : Option PropertyValue :=
  if msg.version != ProtocolV50 then none else msg.properties.get id

/-- The `subsID` of `onSubscribe`, zero if the packet has none. -/
def subscriptionID (msg : Subscribe) : UInt32 :=
  match msg.propertyGet PropertySubscriptionIdentifier with
  | none => 0
  | some prop =>
      match prop.asInt with
      | .ok v => v
      | .error _ => 0

/-- Only V5.0 packets have an identifier, and what the decoder has read for one is small. -/
theorem subscriptionID_spec {msg : Subscribe} {src : Bytes} {n : ℕ}
    (read : Property.empty.decode .SUBSCRIBE src = .ok (msg.properties, n))
    (positive : 0 < msg.subscriptionID) :
    msg.version = ProtocolV50 ∧ msg.subscriptionID.toNat < 2 ^ 29 := by
  have shaped := (Property.read_decode read).1.shaped PropertySubscriptionIdentifier
  unfold subscriptionID at positive ⊢
  cases found : msg.propertyGet PropertySubscriptionIdentifier with
  | none => simp [found] at positive
  | some prop =>
      have look := found
      unfold propertyGet at look
      split at look
      · simp at look
      · rename_i five
        cases shaped prop look with
        | varInt fits => exact ⟨by simpa using five, fits⟩
        | varInts fits => simp [found, PropertyValue.asInt] at positive

end Subscribe

structure SubAck where
  version : ProtocolVersion
  packetID : Option IDType
  returnCodes : List ReasonCode

namespace SubAck

/-- `New(v, SUBACK)` -/
def new (v : ProtocolVersion) : SubAck := ⟨v, none, []⟩

def setPacketID (msg : SubAck) (v : IDType) : SubAck := { msg with packetID := some v }

/-- The keys of `packetTypeCodeMap[SUBACK]`. -/
def validCodes : List ReasonCode :=
  [0, 1, 2, CodeUnspecifiedError, CodeImplementationSpecificError, CodeNotAuthorized,
    CodeInvalidTopicFilter, CodePacketIDInUse, CodeQuotaExceeded,
    CodeSharedSubscriptionNotSupported, CodeSubscriptionIDNotSupported,
    CodeWildcardSubscriptionsNotSupported]

/-- `SubAck.AddReturnCodes`, stopping at the first code that is refused. -/
def addReturnCodes (msg : SubAck) : List ReasonCode → Except PacketError SubAck
  | [] => .ok msg
  | c :: ret =>
      if msg.version = ProtocolV50 ∧ c ∉ validCodes then .error .ErrInvalidReturnCode
      else if !QosType.isValidFull c then .error .ErrInvalidReturnCode
      else addReturnCodes { msg with returnCodes := msg.returnCodes ++ [c] } ret

end SubAck

end VolantMQ.Packet
