import VolantMQ.Connection.TopicAlias
import VolantMQ.Connection.Transmitter

/-!
# Topic aliases towards the client

`setTopicAlias` gives every outgoing PUBLISH of a V5.0 connection a topic alias. The client keeps
a table of its own: a packet with a topic sets the topic of its alias, and a packet without one
is for the topic in the table. The two sides are run together here, and the topic that the client
ends up with is compared with the topic the packet had before `setTopicAlias`. A packet that the
loop of `txRoutine` drops after that, since it is too large or cannot be encoded, has used up an
alias that the client never hears of.
-/

namespace VolantMQ.Connection

open Lib Packet

/-- What a client does with a packet: its table afterwards and the topic of the packet. -/
def clientReceive (table : AList fun _ : UInt16 => GoString) (p : Publish) :
    (AList fun _ : UInt16 => GoString) × Option GoString :=
  match topicAlias p with
  | none => (table, some p.topic)
  | some val =>
      if p.topic.length ≠ 0 then (table.insert val p.topic, some p.topic)
      else (table, table.lookup val)

/-- A PUBLISH that came to `setTopicAlias`: its topic until then, and whether it was written. -/
structure Use where
  topic : GoString
  written : Bool
  deriving DecidableEq

/-- The transmitter of a connection and the table of its client. -/
structure AliasLink where
  tx : Transmitter
  table : AList fun _ : UInt16 => GoString
  /-- The topic before `setTopicAlias` and the topic that the client obtained, for each packet that
  was written. -/
  topics : List (GoString × Option GoString)
  uses : List Use

namespace AliasLink

/-- A connection that has loaded its session and has sent nothing. -/
def start (tx : Transmitter) : AliasLink := { tx, table := ∅, topics := [], uses := [] }

/-- The client receives a PUBLISH if the loop has appended it to the send buffers. -/
def receive (s : AliasLink) (appended : Bool) (before : Outgoing) (after : Option Outgoing) :
    AliasLink :=
  match before, after with
  | .provider (.publish p), some (.provider (.publish q)) =>
      let uses := s.uses ++ [⟨p.topic, appended⟩]
      if appended then
        let (table, topic) := clientReceive s.table q
        { s with table, topics := s.topics ++ [(p.topic, topic)], uses }
      else { s with uses }
  | _, _ => s

/-- One step of the transmitter. -/
def step (s : AliasLink) (op : Transmitter.Op) : AliasLink :=
  let received :=
    match op, s.tx.packets with
    | .send now roll order, taken :: _ =>
        s.receive (s.tx.sendPacket now roll order taken).2 taken.packet
          (s.tx.prepare now roll taken).2
    | _, _ => s
  { received with tx := s.tx.step op }

/-- A PUBLISH with the alias it gets after `used` others: the next one and the topic, or one chosen
at random and no topic. -/
def aliased (limit used roll : ℕ) (p : Publish) : Publish :=
  let number := UInt16.ofNat (if used < limit then used + 1 else roll % limit + 1)
  { p with
    topic := if used < limit then p.topic else []
    properties := ⟨p.properties.properties.insert PropertyTopicAlias (.short number),
      p.properties.len + UInt32.ofNat (propertyCalcLen PropertyTopicAlias (.short number))⟩ }

section Step

variable {s : AliasLink}

end Step

/-- Two messages of QoS 0 are queued and sent. -/
def sampleOps (first second : GoString) : List Transmitter.Op :=
  let m (topic : GoString) : Outgoing :=
    .provider (.publish { Publish.new ProtocolV50 with topic })
  [.gPush (m first), .gPush (m second), .popPackets, .send 0 0 (.insertion _), .popPackets,
    .send 0 0 (.insertion _)]

end AliasLink

end VolantMQ.Connection
