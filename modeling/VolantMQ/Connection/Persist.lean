import VolantMQ.Connection.Transmitter
import VolantMQ.Topics.Restart

/-!
# Saving a connection

When a connection is closed and its session stays, `persist` writes down what the client has not
received or not acknowledged: the two queues of the transmitter, and then the packets in `pubOut`.
One closure decides for each of them whether there is anything to encode, and then encodes in any
case. A PUBLISH that is to be skipped leaves it with a `nil` packet.
-/

namespace VolantMQ.Connection

open Lib Packet

open Topics (PersistedPacket formatRFC3339 parseRFC3339)

/-- `persistence.PersistedPacket` as `persist` fills it. -/
structure StoredPacket extends PersistedPacket where
  UnAck : Bool
  deriving DecidableEq, Repr

namespace Queued

/-- The test of `persistAppend`. -/
def wanted (OfflineQoS0 : Bool) (now : Time) : Queued → Bool
  | publish tp => (OfflineQoS0 || tp.qos != QoS0) && !tp.expired now
  | unacknowledged _ => true

/-- The packet as `persistAppend` changes it before encoding: a PUBLISH that was never sent gets
some identifier, and one that was sent gets the DUP flag, but only if its QoS is 1. -/
def toStore : Queued → Provider
  | publish tp => .publish (if tp.qos ≠ QoS0 then tp.setPacketID 0 else tp)
  | unacknowledged (.publish pb) => .publish (if pb.qos = QoS1 then pb.setDup true else pb)
  | unacknowledged pkt => pkt

/-- `pPkt.ExpireAt` -/
def expireAt : Queued → Option Int
  | publish tp => tp.expireAt.map formatRFC3339
  | unacknowledged _ => none

/-- The packet that `persistAppend` gives to `Encode`. -/
def selected (OfflineQoS0 : Bool) (now : Time) (p : Queued) : Option Provider :=
  if p.wanted OfflineQoS0 now then some p.toStore else none

/-- What is stored for a packet with the given encoding. -/
def stored (p : Queued) (Data : Bytes) : StoredPacket := ⟨⟨Data, p.expireAt⟩, p.isUnacknowledged⟩

/-- The packet is stored as it should be. -/
def StoredAs (order : MapOrder PropertyEntry) (p : Queued) (d : StoredPacket) : Prop :=
  p.toStore.encode order = .ok d.Data ∧ d = p.stored d.Data

end Queued

/-- `persistAppend`. Encoding a `nil` packet panics, and an error is only logged. -/
def persistAppend (OfflineQoS0 : Bool) (now : Time) (order : MapOrder PropertyEntry)
    (packets : List StoredPacket) (p : Queued) : Except (Fault PacketError) (List StoredPacket) :=
  match p.selected OfflineQoS0 now with
  | none => .error .panic
  | some pkt =>
      match pkt.encode order with
      | .error .panic => .error .panic
      | .error (.error _) => .ok packets
      | .ok Data => .ok (packets ++ [p.stored Data])

/-- What `persist` looks at in `txGMessages`. -/
def Outgoing.toPersist : Outgoing → Option Queued
  | provider (.publish tp) => some (.publish tp)
  | _ => none

namespace Transmitter

/-- What `persist` gives to `persistAppend`, one after the other; `range` is the order in which it
goes through `pubOut`. -/
def toPersist (s : Transmitter) (range : MapOrder (Σ _ : IDType, Provider)) : List Queued :=
  s.out.txQMessages ++ s.txGMessages.filterMap Outgoing.toPersist ++
    (range.range s.out.pubOut.entries).map fun entry => .unacknowledged entry.2

/-- `persist`: the packets given to `PacketsStore`. -/
def persist (s : Transmitter) (OfflineQoS0 : Bool) (now : Time) (order : MapOrder PropertyEntry)
    (range : MapOrder (Σ _ : IDType, Provider)) : Except (Fault PacketError) (List StoredPacket) :=
  (s.toPersist range).foldlM (persistAppend OfflineQoS0 now order) []

/-- A packet that the connection holds when it is closed. -/
inductive Holds (s : Transmitter) : Queued → Prop
  | queued {p : Queued} (member : p ∈ s.out.txQMessages) : Holds s p
  | general {tp : Publish} (member : .provider (.publish tp) ∈ s.txGMessages) :
      Holds s (.publish tp)
  | sent {id : IDType} {pkt : Provider} (member : s.out.pubOut.lookup id = some pkt) :
      Holds s (.unacknowledged pkt)

/-- `persist` returns, and stores one packet after the other: those that are wanted, and no
other. -/
def Saves (s : Transmitter) (OfflineQoS0 : Bool) (now : Time) (order : MapOrder PropertyEntry)
    (range : MapOrder (Σ _ : IDType, Provider)) : Prop :=
  ∃ packets, s.persist OfflineQoS0 now order range = .ok packets ∧
    List.Forall₂ (Queued.StoredAs order)
      ((s.toPersist range).filter (Queued.wanted OfflineQoS0 now)) packets

section Saves

variable {s : Transmitter} {OfflineQoS0 : Bool} {now : Time} {order : MapOrder PropertyEntry}
  {range : MapOrder (Σ _ : IDType, Provider)}

theorem mem_toPersist {p : Queued} : p ∈ s.toPersist range ↔ s.Holds p := by
  simp only [toPersist, List.mem_append, List.mem_filterMap, List.mem_map]
  constructor
  · rintro ((member | ⟨pkt, member, same⟩) | ⟨entry, member, same⟩)
    · exact .queued member
    · match pkt, same with
      | .provider (.publish tp), rfl => exact .general member
    · rw [← same]
      have held : entry ∈ s.out.pubOut.entries := (range.perm _).mem_iff.mp member
      exact .sent (AList.mem_lookup_iff.mpr held)
  · rintro (member | member | member)
    · exact .inl (.inl member)
    · exact .inl (.inr ⟨_, member, rfl⟩)
    · have held := AList.mem_lookup_iff.mp member
      exact .inr ⟨_, (range.perm _).mem_iff.mpr held, rfl⟩

theorem persistAppend_of_unwanted {packets : List StoredPacket} {p : Queued}
    (unwanted : p.wanted OfflineQoS0 now = false) :
    persistAppend OfflineQoS0 now order packets p = .error .panic := by
  rw [persistAppend, Queued.selected, unwanted]
  rfl

theorem persistAppend_of_wanted {packets : List StoredPacket} {p : Queued}
    (wanted : p.wanted OfflineQoS0 now = true) :
    persistAppend OfflineQoS0 now order packets p =
      match p.toStore.encode order with
      | .error .panic => .error .panic
      | .error (.error _) => .ok packets
      | .ok Data => .ok (packets ++ [p.stored Data]) := by
  rw [persistAppend, Queued.selected, if_pos wanted]

/-- A loop over `persistAppend` that returns has met nothing to skip. -/
theorem wanted_of_persist {items : List Queued} {packets after : List StoredPacket}
    (run : items.foldlM (persistAppend OfflineQoS0 now order) packets = .ok after) :
    ∀ p ∈ items, p.wanted OfflineQoS0 now = true := by
  induction items generalizing packets with
  | nil => simp
  | cons p items ih =>
      cases wanted : p.wanted OfflineQoS0 now with
      | false =>
          rw [List.foldlM_cons, persistAppend_of_unwanted wanted] at run
          cases run
      | true =>
          rw [List.foldlM_cons] at run
          cases step : persistAppend OfflineQoS0 now order packets p with
          | error fault =>
              rw [step] at run
              cases run
          | ok next =>
              rw [step] at run
              exact List.forall_mem_cons.mpr ⟨wanted, ih run⟩

/-- A loop over packets that are all wanted and can be encoded stores them all. -/
theorem persist_of_encodes {items : List Queued}
    (wanted : ∀ p ∈ items, p.wanted OfflineQoS0 now = true)
    (encodes : ∀ p ∈ items, ∃ Data, p.toStore.encode order = .ok Data)
    (packets : List StoredPacket) :
    ∃ more, items.foldlM (persistAppend OfflineQoS0 now order) packets = .ok (packets ++ more) ∧
      List.Forall₂ (Queued.StoredAs order) items more := by
  induction items generalizing packets with
  | nil => exact ⟨[], by rw [List.append_nil]; rfl, .nil⟩
  | cons p items ih =>
      rcases encodes p List.mem_cons_self with ⟨Data, encoded⟩
      have later := ih (fun other member => wanted other (List.mem_cons_of_mem p member))
        (fun other member => encodes other (List.mem_cons_of_mem p member))
        (packets ++ [p.stored Data])
      rcases later with ⟨more, run, matched⟩
      refine ⟨p.stored Data :: more, ?_, .cons ⟨encoded, rfl⟩ matched⟩
      rw [List.append_assoc] at run
      rw [List.foldlM_cons, persistAppend_of_wanted (wanted p List.mem_cons_self), encoded]
      exact run

end Saves

/-- A connection is saved exactly when none of its queued packets is to be skipped, that is, expired
or of a QoS 0 that is not kept, and all its packets can be encoded. -/
theorem saves_iff (s : Transmitter) (OfflineQoS0 : Bool) (now : Time)
    (order : MapOrder PropertyEntry) (range : MapOrder (Σ _ : IDType, Provider)) :
    s.Saves OfflineQoS0 now order range ↔
      ∀ p, s.Holds p → p.wanted OfflineQoS0 now = true ∧
        ∃ Data, p.toStore.encode order = .ok Data := by
  simp only [← @mem_toPersist s range]
  constructor
  · rintro ⟨packets, run, matched⟩ p member
    have wanted := wanted_of_persist run
    rw [List.filter_eq_self.mpr wanted] at matched
    have encodes : ∀ p ∈ s.toPersist range, ∃ Data, p.toStore.encode order = .ok Data := by
      have each : List.Forall₂ (fun p d => (∃ Data, p.toStore.encode order = .ok Data) ∧
          p.StoredAs order d) (s.toPersist range) packets :=
        matched.imp fun p d same => ⟨⟨d.Data, same.1⟩, same⟩
      exact ((List.forall₂_and_left _ _).mp each).1
    exact ⟨wanted p member, encodes p member⟩
  · intro all
    rcases persist_of_encodes (fun p member => (all p member).1) (fun p member => (all p member).2)
      [] with ⟨packets, run, matched⟩
    refine ⟨packets, run, ?_⟩
    rwa [List.filter_eq_self.mpr fun p member => (all p member).1]

/-- A session that keeps no QoS 0 messages has one in its queue. -/
def sampleQueue : Transmitter :=
  (load ProtocolV311 10 1000 0 []).step
    (.gPush (.provider (.publish { Publish.new ProtocolV311 with topic := [0x61] })))

/-- Closing its connection stops the broker. -/
theorem sampleQueue_panics :
    sampleQueue.persist false 0 (.insertion _) (.insertion _) = .error .panic ∧
      ¬sampleQueue.Saves false 0 (.insertion _) (.insertion _) := by
  have panics : sampleQueue.persist false 0 (.insertion _) (.insertion _) = .error .panic := rfl
  refine ⟨panics, ?_⟩
  rintro ⟨packets, run, -⟩
  rw [panics] at run
  cases run

end Transmitter

end VolantMQ.Connection
