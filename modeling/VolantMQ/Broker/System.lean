import VolantMQ.Packet.Subscribe
import VolantMQ.Subscriber.Publish
import VolantMQ.Topics.Contents

/-!
# The broker

Clients, their connections and the topics provider with its two channels. A connection puts what
it forwards into `inbound` and, if it is to be retained, into `inRetained`; the goroutines
`publisher` and `retainer` drain one channel each. Every packet queued for a client because of a
subscription is recorded together with the message it stems from and the QoS that was granted.

Handlers and rounds of the goroutines are single steps here, in any order: the provider runs each
of them under its mutex.
-/

namespace VolantMQ

open Lib Packet Connection Topics

/-- A client: its subscriber, and its connection while there is one. -/
structure Client where
  conn : Option (Inbound Unit)
  subscriber : Subscriber

/-- A packet queued for a client because of a subscription. -/
structure Delivery where
  subscriber : Hash
  granted : QosType
  message : Publish
  packet : Publish

/-- The state of the broker. -/
structure Broker where
  topics : Topics.Provider
  clients : AList fun _ : Hash => Client
  /-- The channel `provider.inbound`. -/
  inbound : List Publish
  /-- The channel `provider.inRetained`. -/
  inRetained : List RetainObject
  /-- The QoS granted to subscribers so far. -/
  granted : List (Hash × QosType)
  queued : List Delivery

namespace Broker

/-- A broker that has just been started. -/
def new (allowOverlapping : Bool) : Broker := ⟨.empty allowOverlapping, ∅, [], [], [], []⟩

/-- The loop of `onSubscribe` over the filters of a packet: for each of them the granted QoS and
the retained messages found. -/
def subscribeTopics (s : Hash) (subsID : UInt32) (now : Time) :
    List (GoString × SubscriptionOptions) → Topics.Provider →
      Topics.Provider × List (QosType × List Publish)
  | [], mT => (mT, [])
  | (t, ops) :: topics, mT =>
      let (mT, answer) := mT.subscribe t s ⟨subsID, ops, 0⟩ now
      let (mT, answers) := subscribeTopics s subsID now topics mT
      (mT, (answer.granted, answer.retained) :: answers)

/-- The packet that `onSubscribe` queues for a retained message. -/
def retainedClone (v : ProtocolVersion) (rp : Publish) : Option Publish :=
  match rp.clone v with
  | .ok pkt => some (pkt.setRetain true)
  | .error _ => none

/-- What `onSubscribe` queues for the answers to its filters. -/
def retainedDeliveries (v : ProtocolVersion) (s : Hash) (answers : List (QosType × List Publish)) :
    List Delivery :=
  answers.flatMap fun answer =>
    answer.2.filterMap fun rp => (retainedClone v rp).map fun pkt => ⟨s, answer.1, rp, pkt⟩

/-- `onSubscribe` of a connection of version `v` with subscriber `s`: the response as well. It
queues nothing if the return codes are refused. -/
def onSubscribe (b : Broker) (v : ProtocolVersion) (s : Hash) (msg : Subscribe) (now : Time) :
    Broker × Option SubAck :=
  let (topics, answers) := subscribeTopics s msg.subscriptionID now msg.topics b.topics
  let retCodes := answers.map Prod.fst
  let b := { b with topics, granted := b.granted ++ retCodes.map fun code => (s, code) }
  match ((SubAck.new v).setPacketID (idOrZero msg.packetID)).addReturnCodes retCodes with
  | .error _ => (b, none)
  | .ok resp => ({ b with queued := b.queued ++ retainedDeliveries v s answers }, some resp)

/-- `e.s.Publish(msg, e.qos, e.ops, e.ids)`: the packet handed over, if any. -/
def publishTo (clients : AList fun _ : Hash => Client) (msg : Publish) (e : PublishEntry) :
    Option Delivery :=
  match clients.lookup e.s with
  | none => none
  | some client =>
      match client.subscriber.publish msg e.qos e.ops e.ids with
      | .error _ => none
      | .ok handed => handed.packet?.map fun packet => ⟨e.s, e.qos, msg, packet⟩

/-- The entries that the publisher finds for a message. -/
def receivers (mT : Topics.Provider) (msg : Publish) : List PublishEntry :=
  NodeData.flat (mT.subscriptionSearch msg.topic msg.publishID)

/-- One round of `provider.publisher`. -/
def publisher (b : Broker) : Broker :=
  match b.inbound with
  | [] => b
  | msg :: rest =>
      { b with
        inbound := rest
        queued := b.queued ++ (receivers b.topics msg).filterMap (publishTo b.clients msg) }

/-- One round of `provider.retainer`. -/
def retainer (b : Broker) : Broker :=
  match b.inRetained with
  | [] => b
  | obj :: rest => { b with inRetained := rest, topics := b.topics.retain obj }

/-- A connection handles a packet; what it forwards goes to the channels. -/
def receive (b : Broker) (s : Hash) (client : Client) (conn : Inbound Unit)
    (input : Inbound.Rx Unit) : Broker :=
  let conn := conn.rx input
  { b with
    clients := b.clients.insert s
      { client with conn := some { conn with retained := [], published := [] } }
    inRetained := b.inRetained ++ conn.retained.map fun m => .publish m.packet
    inbound := b.inbound ++ conn.published.map Marked.packet }

/-- What can happen to the broker. -/
inductive Op where
  | connect (s : Hash) (version : ProtocolVersion) (RetainAvailable : Bool)
      (MaxRxTopicAlias : UInt16) (offlineQoS0 : Bool)
  | disconnect (s : Hash)
  | receive (s : Hash) (input : Inbound.Rx Unit)
  | subscribe (s : Hash) (msg : Subscribe) (now : Time)
  | unSubscribe (s : Hash) (topics : List GoString)
  | systree (value : DynamicValue)
  | publisher
  | retainer

/-- A new connection of a client; a client that is known keeps its subscriber. -/
def connect (b : Broker) (s : Hash) (version : ProtocolVersion) (RetainAvailable : Bool)
    (MaxRxTopicAlias : UInt16) (offlineQoS0 : Bool) : Broker :=
  let subscriber :=
    match b.clients.lookup s with
    | none => ⟨version, offlineQoS0, true⟩
    | some client => { client.subscriber with isOnline := true }
  { b with
    clients := b.clients.insert s
      ⟨some (.new version RetainAvailable MaxRxTopicAlias s), subscriber⟩ }

/-- One step of the broker. Packets need a connection, the CONNECT decoder accepts the supported
versions only, and the SUBSCRIBE decoder valid QoS only. -/
def step (b : Broker) : Op → Broker
  | .connect s version RetainAvailable MaxRxTopicAlias offlineQoS0 =>
      if version ∈ SupportedVersions then
        b.connect s version RetainAvailable MaxRxTopicAlias offlineQoS0
      else b
  | .disconnect s =>
      match b.clients.lookup s with
      | none => b
      | some client =>
          { b with
            clients := b.clients.insert s
              ⟨none, { client.subscriber with isOnline := false }⟩ }
  | .receive s input =>
      match b.clients.lookup s with
      | some ⟨some conn, subscriber⟩ => b.receive s ⟨some conn, subscriber⟩ conn input
      | _ => b
  | .subscribe s msg now =>
      match b.clients.lookup s with
      | some ⟨some conn, _⟩ =>
          if msg.topics.all fun topic => QosType.isValid (SubscriptionOptions.qos topic.2) then
            (b.onSubscribe conn.Version s msg now).1
          else b
      | _ => b
  | .unSubscribe s topics =>
      { b with topics := topics.foldl (fun mT t => (mT.unSubscribe t (some s)).1) b.topics }
  | .systree value => { b with inRetained := b.inRetained ++ [.dynamic value] }
  | .publisher => b.publisher
  | .retainer => b.retainer

end Broker

end VolantMQ
