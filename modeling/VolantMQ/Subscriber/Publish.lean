import VolantMQ.Connection.Inbound
import VolantMQ.Topics.Node

/-!
# Delivery to a subscriber

`subscriber.Type.Publish` and what becomes of the packet it hands to the session. The packet
keeps the protocol version of the publisher, while the client on the other end decodes with its
own, so the two have to agree on whether a PUBLISH has a property block.
-/

namespace VolantMQ

open Lib Packet Connection

/-- The parts of `subscriber.Type` that `Publish` uses. -/
structure Subscriber where
  version : ProtocolVersion
  offlineQoS0 : Bool
  /-- The channel `isOnline` is open. -/
  isOnline : Bool

namespace Subscriber

/-- Where `Publish` leaves its packet: with the session, with the offline storage, or nowhere. -/
inductive Handed where
  | online (pkt : Publish)
  | offline (pkt : Publish)
  | dropped

/-- The packet handed over, if any. -/
def Handed.packet? : Handed → Option Publish
  | online pkt => some pkt
  | offline pkt => some pkt
  | dropped => none

/-- The subscription identifiers are set as a property if there are any. -/
def withIDs (pkt : Publish) (ids : List UInt32) : Except PacketError Publish :=
  if 0 < ids.length then pkt.propertySet PropertySubscriptionIdentifier (.ints ids) else .ok pkt

/-- The retain flag is kept for subscriptions that ask for it. -/
def withRetain (pkt : Publish) (ops : SubscriptionOptions) : Publish :=
  if !SubscriptionOptions.rap ops then pkt.setRetain false else pkt

/-- A packet that needs an identifier gets a preliminary one. -/
def withPacketID (pkt : Publish) : Publish := if pkt.qos ≠ QoS0 then pkt.setPacketID 0 else pkt

/-- The `switch` on the granted QoS. Only the case of QoS 1 does anything. -/
def downgrade (pkt : Publish) (grantedQoS : QosType) : Publish :=
  if grantedQoS = QoS1 ∧ pkt.qos = QoS2 then
    match pkt.setQoS QoS1 with
    | .ok pkt => pkt
    | .error _ => pkt
  else pkt

/-- The packet that `Publish` builds. -/
def outgoing (s : Subscriber) (p : Publish) (grantedQoS : QosType) (ops : SubscriptionOptions)
    (ids : List UInt32) : Except PacketError Publish :=
  match p.clone s.version with
  | .error e => .error e
  | .ok pkt =>
      match withIDs pkt ids with
      | .error e => .error e
      | .ok pkt => .ok (downgrade (withPacketID (withRetain pkt ops)) grantedQoS)

/-- `Type.Publish` -/
def publish (s : Subscriber) (p : Packet.Publish) (grantedQoS : QosType)
    (ops : SubscriptionOptions) (ids : List UInt32) : Except PacketError Handed :=
  match s.outgoing p grantedQoS ops ids with
  | .error e => .error e
  | .ok pkt =>
      if s.isOnline then .ok (.online pkt)
      else if pkt.qos ≠ QoS0 ∨ (s.offlineQoS0 ∧ pkt.qos = QoS0) then .ok (.offline pkt)
      else .ok .dropped

end Subscriber

end VolantMQ
