import VolantMQ.Clients.ConnAck
import VolantMQ.Connection.Framing

/-!
# From the network to a session

`handleConnection` reads the first packet of a connection, has the credentials checked and leaves
the rest to `NewSession`, which writes the CONNACK packet. It closes the connection only if there
was no CONNECT packet; then it writes nothing. A client that is refused stays connected.

The way of a CONNECT packet from the setters of a client to the CONNACK packet in its hands goes
through all of the encoders, decoders and checks between them.
-/

namespace VolantMQ.Transport

open Lib Packet Clients Connection

/-- `auth.Status` -/
abbrev Status := Int

def StatusAllow : Status := 0

def StatusDeny : Status := 1

/-- The part of `auth.Provider` that a new connection needs. -/
structure Provider where
  Password : GoString → GoString → Status

/-- `Manager.Password` -/
def password (manager : List Provider) (user pass : GoString) : Status :=
  match manager with
  | [] => StatusDeny
  | p :: manager =>
      if p.Password user pass = StatusAllow then StatusAllow else password manager user pass

/-- The parts of `baseConfig` that a new connection needs. -/
structure BaseConfig where
  AllowedVersions : AList fun _ : ProtocolVersion => Bool
  AuthManager : List Provider

namespace BaseConfig

/-- The reason that goes into the CONNACK packet before `NewSession` sees it. -/
def reason (c : BaseConfig) (version : ProtocolVersion) (r : Packet.Connect) : ReasonCode :=
  if c.AllowedVersions.lookup version ≠ some true then
    if version = ProtocolV50 then CodeUnsupportedProtocol
    else CodeRefusedUnacceptableProtocolVersion
  else if password c.AuthManager r.username r.password = StatusAllow then CodeSuccess
  else if version = ProtocolV50 then CodeBadUserOrPassword
  else CodeRefusedBadUsernameOrPassword

end BaseConfig

section Handshake

variable {config : BaseConfig} {m : SessionManager} {v : ProtocolVersion} {i : Connect.Request}
  {h : Header} {pkt : Packet.Connect} {now : Circumstances}

end Handshake

/-- A server for clients of V3.1.1 that knows one user. -/
def sampleConfig : BaseConfig :=
  ⟨(∅ : AList fun _ => Bool).insert ProtocolV311 true,
    [⟨fun user _ => if user = ascii "u" then 0 else 1⟩]⟩

def sampleCircumstances : Circumstances :=
  ⟨0, genClientID (some fun _ => 0), [], ⟨none, true, false⟩, true, true⟩

end VolantMQ.Transport
