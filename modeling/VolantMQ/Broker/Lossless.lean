import VolantMQ.Broker.System
import VolantMQ.Subscriber.Delivery

/-!
# Messages lost to their version

`Subscriber.Publish` clones a message and sets the subscription identifiers on the clone. The clone
has the version of the publisher, and only V5.0 packets take properties. A subscription that was
made with an identifier therefore loses every message of an older client.
-/

namespace VolantMQ

open Lib Packet Connection Topics

namespace Subscriber

section Outgoing

variable (s : Subscriber) (msg : Packet.Publish) (grantedQoS : QosType)
  (ops : SubscriptionOptions) (ids : List UInt32)

/-- The steps after the identifiers are set leave version and properties alone. -/
theorem finish_keeps (pkt : Packet.Publish) :
    (downgrade (withPacketID (withRetain pkt ops)) grantedQoS).version = pkt.version ∧
      (downgrade (withPacketID (withRetain pkt ops)) grantedQoS).properties = pkt.properties := by
  rw [withRetain_eq, withPacketID_eq, downgrade_eq]
  exact ⟨rfl, rfl⟩

/-- The packet carries the identifiers, if there are any. -/
def Carries (pkt : Packet.Publish) : Prop :=
  ids ≠ [] → pkt.propertyGet PropertySubscriptionIdentifier = some (.ints ids)

theorem withIDs_of_settable {pkt : Packet.Publish}
    (settable : ids = [] ∨ pkt.version = ProtocolV50) :
    ∃ next, withIDs pkt ids = .ok next ∧ Carries ids next := by
  by_cases positive : 0 < ids.length
  · have some : ids ≠ [] := List.length_pos_iff.mp positive
    have five : pkt.version = ProtocolV50 := settable.resolve_left some
    have known : PropertySubscriptionIdentifier ∈ publishPropertyIDs := by decide
    rw [withIDs, if_pos positive, Publish.propertySet, five, bne_self_eq_false,
      Property.set_of_allowed (isValidPacketType_of_mem known)]
    refine ⟨_, rfl, fun _ => ?_⟩
    simp only [Publish.propertyGet, bne_self_eq_false, Property.get, AList.lookup_insert]
    rfl
  · have none : ids = [] := by simpa using positive
    exact ⟨pkt, if_neg positive, fun some => absurd none some⟩

/-- With identifiers that can be set, `Publish` gets as far as a packet. -/
theorem outgoing_of_settable (settable : ids = [] ∨ msg.version = ProtocolV50) :
    ∃ pkt, s.outgoing msg grantedQoS ops ids = .ok pkt ∧ Carries ids pkt := by
  rcases msg.clone_built s.version with ⟨clone, cloned, version, -⟩
  rw [← version] at settable
  rcases withIDs_of_settable ids settable with ⟨next, run, carried⟩
  rcases finish_keeps grantedQoS ops next with ⟨version, properties⟩
  refine ⟨downgrade (withPacketID (withRetain next ops)) grantedQoS, ?_, fun some => ?_⟩
  · simp only [outgoing, cloned, run]
  · rw [Publish.propertyGet, version, properties]
    exact carried some

/-- One packet was handed to the callback for the state of the subscriber, or it was dropped
because the subscriber is offline and the packet of QoS 0 is not to be stored. -/
def Handed.Proper (pkt : Packet.Publish) : Handed → Prop
  | online handed => handed = pkt ∧ s.isOnline = true
  | offline handed => handed = pkt ∧ s.isOnline = false
  | dropped => s.isOnline = false ∧ pkt.qos = QoS0 ∧ s.offlineQoS0 = false

/-- `Publish` reports no error and the message is not lost on the way. -/
def HandsOver : Prop :=
  ∃ handed pkt, s.publish msg grantedQoS ops ids = .ok handed ∧
    s.outgoing msg grantedQoS ops ids = .ok pkt ∧ handed.Proper s pkt ∧
    (msg.version = ProtocolV50 → s.version = ProtocolV50 → Carries ids pkt)

theorem publish_proper {pkt : Packet.Publish}
    (built : s.outgoing msg grantedQoS ops ids = .ok pkt) :
    ∃ handed, s.publish msg grantedQoS ops ids = .ok handed ∧ handed.Proper s pkt := by
  unfold publish
  rw [built]
  simp only
  split
  · rename_i online
    exact ⟨_, rfl, rfl, online⟩
  · rename_i offline
    have offline : s.isOnline = false := by simpa using offline
    split
    · exact ⟨_, rfl, rfl, offline⟩
    · rename_i unwanted
      rw [not_or, not_not] at unwanted
      exact ⟨_, rfl, offline, unwanted.1, by simpa [unwanted.1] using unwanted.2⟩

/-- When the message reaches the session or its storage. -/
theorem handsOver_iff :
    s.HandsOver msg grantedQoS ops ids ↔ ids = [] ∨ msg.version = ProtocolV50 := by
  constructor
  · rintro ⟨handed, pkt, -, built, -⟩
    by_contra unsettable
    rw [not_or] at unsettable
    rw [outgoing_of_unsettable s grantedQoS ops unsettable.1 unsettable.2] at built
    simp at built
  · intro settable
    rcases outgoing_of_settable s msg grantedQoS ops ids settable with ⟨pkt, built, carried⟩
    rcases publish_proper s msg grantedQoS ops ids built with ⟨handed, run, proper⟩
    exact ⟨handed, pkt, run, built, proper, fun _ _ => carried⟩

end Outgoing

end Subscriber

namespace Broker

/-- Every message, of whatever version, is handed over to a subscriber of whatever version exactly
when it is a V5.0 message or comes with no subscription identifiers. For a message that the
publisher takes from its channel, these are the identifiers of the subscriptions it finds in the
trie. -/
theorem published_handsOver_iff (mT : Topics.Provider) (msg : Publish) :
    (∀ (s : Subscriber) (grantedQoS : QosType) (ops : SubscriptionOptions) (ids : List UInt32),
        s.HandsOver msg grantedQoS ops ids ↔ ids = [] ∨ msg.version = ProtocolV50) ∧
      ((∀ e ∈ receivers mT msg, ∀ s : Subscriber, s.HandsOver msg e.qos e.ops e.ids) ↔
        msg.version = ProtocolV50 ∨ ∀ e ∈ receivers mT msg, e.ids = []) := by
  refine ⟨fun s grantedQoS ops ids => s.handsOver_iff msg grantedQoS ops ids, ?_⟩
  constructor
  · intro all
    by_cases five : msg.version = ProtocolV50
    · exact .inl five
    · refine .inr fun e found => ?_
      have reached := all e found ⟨ProtocolV50, false, true⟩
      exact ((Subscriber.handsOver_iff _ _ _ _ _).mp reached).resolve_right five
  · intro settable e found s
    refine (s.handsOver_iff msg e.qos e.ops e.ids).mpr ?_
    rcases settable with five | plain
    · exact .inr five
    · exact .inl (plain e found)

/-- A V5.0 subscriber with the identifier 7 on its subscription to `a`. -/
def identifiedTopics : Topics.Provider :=
  ((Topics.Provider.empty false).subscribe [0x61] 1 ⟨7, 1, 0⟩ 0).1

/-- A V3.1.1 message to `a`. -/
def olderMessage : Publish := { Publish.new ProtocolV311 with topic := [0x61], payload := [0x68] }

/-- The subscriber is online, but does not get the message. -/
theorem older_message_lost :
    receivers identifiedTopics olderMessage = [⟨1, 1, QoS1, [7]⟩] ∧
      (∃ e, (⟨ProtocolV50, false, true⟩ : Subscriber).publish olderMessage QoS1 1 [7] = .error e) ∧
      ¬(⟨ProtocolV50, false, true⟩ : Subscriber).HandsOver olderMessage QoS1 1 [7] := by
  refine ⟨by decide, ⟨.ErrNotSupported, rfl⟩, fun reached => ?_⟩
  have settable := (Subscriber.handsOver_iff _ _ _ _ _).mp reached
  exact absurd settable (by decide)

end Broker

end VolantMQ
