import VolantMQ.Packet.Publish

/-!
# Acknowledgements

The `Ack` object of `puback.go`, which stands for PUBACK, PUBREC, PUBREL and PUBCOMP, and the
packets that the connection keeps until they are acknowledged. The properties of an `Ack` are
left out: no handler reads them.
-/

namespace VolantMQ.Packet

open Lib

structure Ack where
  version : ProtocolVersion
  mType : PacketType
  packetID : Option IDType
  reasonCode : ReasonCode
  deriving DecidableEq, Repr

namespace Ack

/-- `New(v, mType)` for an acknowledgement. -/
def new (v : ProtocolVersion) (mType : PacketType) : Ack := ⟨v, mType, none, CodeSuccess⟩

def setPacketID (msg : Ack) (id : IDType) : Ack := { msg with packetID := some id }

/-- `Ack.SetReason`, which only V5.0 packets have. -/
def setReason (msg : Ack) (code : ReasonCode) : Ack :=
  if msg.version ≠ ProtocolV50 then msg else { msg with reasonCode := code }

/-- The reason code as it goes on the wire: only in V5.0, and only if it says something. -/
def reasonBytes (msg : Ack) : Bytes :=
  if msg.version = ProtocolV50 ∧ msg.reasonCode ≠ CodeSuccess then [msg.reasonCode] else []

/-- `header.Size` for an acknowledgement; its remaining length always takes one byte. -/
def fullSize (msg : Ack) : ℕ := 2 + (2 + msg.reasonBytes.length)

/-- `packet.Encode` for an acknowledgement. -/
def encode (msg : Ack) : Except (Fault PacketError) Bytes :=
  match msg.packetID with
  | none => .error (.error .ErrPackedIDZero)
  | some id =>
      .ok ((msg.mType.code <<< 4 ||| msg.mType.defaultFlags) ::
        UInt8.ofNat (2 + msg.reasonBytes.length) :: (putUint16 id ++ msg.reasonBytes))

end Ack

/-- `id, _ := pkt.ID()`: an identifier that is not set reads as zero. -/
def idOrZero (packetID : Option IDType) : IDType := packetID.getD 0

/-- The packets that take part in an acknowledgement cycle: `packet.Provider` as far as the
ack queues hold it. -/
inductive Provider where
  | publish (packet : Publish)
  | ack (packet : Ack)

namespace Provider

/-- `id, _ := pkt.ID()` -/
protected def id : Provider → IDType
  | publish packet => idOrZero packet.packetID
  | ack packet => idOrZero packet.packetID

/-- `Provider.Size` -/
def fullSize : Provider → Except PacketError ℕ
  | publish packet => packet.fullSize
  | ack packet => .ok packet.fullSize

/-- `packet.Encode` -/
def encode (order : MapOrder PropertyEntry) : Provider → Except (Fault PacketError) Bytes
  | publish packet => packet.encode order
  | ack packet => packet.encode

end Provider

end VolantMQ.Packet
