import VolantMQ.Connection.FlowControl
import VolantMQ.Connection.Inbound

/-!
# The sending side of a connection

The queue of PUBLISH packets that need an acknowledgement, the ack queue `pubOut`, and the
handlers of `onAck` for PUBACK, PUBREC and PUBCOMP. `qPopPacket` takes an identifier and a unit of
the quota and puts the packet into `pubOut`; a final acknowledgement undoes this.

Three parts of the state have to agree: the quota, the identifiers in use and the keys of
`pubOut`. The main result says which inputs keep them in agreement.
-/

namespace VolantMQ.Connection

open Lib Packet

/-- An element of `txQMessages`. -/
inductive Queued where
  | publish (m : Publish)
  | unacknowledged (packet : Provider)

/-- The parts of `connection.Type` that the sending side uses. -/
structure Outbound where
  Version : ProtocolVersion
  flow : Flow
  txQuotaExceeded : Bool
  txQMessages : List Queued
  pubOut : AckQueue Provider

namespace Outbound

/-- A new connection, before anything is loaded. -/
def new (Version : ProtocolVersion) (SendQuota : UInt16) : Outbound :=
  ⟨Version, .new SendQuota, false, [], ∅⟩

/-- `qPush`, `qLoad` -/
def qPush (s : Outbound) (pkt : Queued) : Outbound :=
  { s with txQMessages := s.txQMessages ++ [pkt] }

/-- `pubOut.store` -/
def store (s : Outbound) (pkt : Provider) : Outbound :=
  { s with pubOut := s.pubOut.insert pkt.id pkt }

/-- The part of `qPopPacket` after `flowAcquire` for a PUBLISH at the front. -/
def endPop (s : Outbound) (m : Publish) (rest : List Queued) (id : IDType) (exceeded : Bool) :
    Outbound :=
  ({ s with
      txQuotaExceeded := s.txQuotaExceeded || exceeded
      txQMessages := rest } : Outbound).store (.publish (m.setPacketID id))

/-- `qPopPacket`: the connection afterwards and the packet. -/
def qPopPacket (s : Outbound) : Outbound × Option Provider :=
  if s.txQuotaExceeded then (s, none)
  else
    match s.txQMessages with
    | [] => (s, none)
    | .publish m :: rest =>
        match s.flow.flowAcquire with
        | (flow, .exit) => ({ s with flow }, none)
        | (flow, .granted id exceeded) =>
            (({ s with flow } : Outbound).endPop m rest id exceeded,
              some (.publish (m.setPacketID id)))
    | .unacknowledged pkt :: rest =>
        (({ s with txQMessages := rest } : Outbound).store pkt, some pkt)

/-- `signalQuota`; waking up the transmitter has no effect on this part of the state. -/
def signalQuota (s : Outbound) : Outbound := { s with txQuotaExceeded := false }

/-- `if s.flowRelease(id) { s.signalQuota() }` -/
def flowReleaseSignal (s : Outbound) (id : IDType) : Outbound :=
  match s.flow.flowRelease id with
  | (flow, true) => ({ s with flow } : Outbound).signalQuota
  | (flow, false) => { s with flow }

/-- `onReleaseOut`, which only looks at the acknowledgement. -/
def onReleaseOut (s : Outbound) (n : Ack) : Outbound :=
  match n.mType with
  | .PUBACK => s.flowReleaseSignal (idOrZero n.packetID)
  | .PUBCOMP => s.flowReleaseSignal (idOrZero n.packetID)
  | _ => s

/-- `pubOut.release` -/
def release (s : Outbound) (pkt : Ack) : Outbound :=
  let id := idOrZero pkt.packetID
  match s.pubOut.lookup id with
  | none => s
  | some _ =>
      let s := s.onReleaseOut pkt
      { s with pubOut := s.pubOut.erase id }

/-- `onAck` for the acknowledgements of packets this side has sent: the connection afterwards and
the response. -/
def onAck (s : Outbound) (msg : Ack) : Outbound × Option Ack :=
  match msg.mType with
  | .PUBACK => (s.release msg, none)
  | .PUBREC =>
      let s := s.release msg
      let id := idOrZero msg.packetID
      if s.Version = ProtocolV50 ∧ CodeUnspecifiedError ≤ msg.reasonCode then
        (s.flowReleaseSignal id, none)
      else
        let resp := (Ack.new s.Version .PUBREL).setPacketID id
        (s.store (.ack resp), some resp)
  | .PUBCOMP => (s.release msg, none)
  | _ => (s, none)

/-- What can happen to the sending side of a new connection. -/
inductive Op where
  | push (m : Publish)
  | pop
  | ack (msg : Ack)
  | close

/-- One step. -/
def step (s : Outbound) : Op → Outbound
  | .push m => s.qPush (.publish m)
  | .pop => s.qPopPacket.1
  | .ack msg => (s.onAck msg).1
  | .close => { s with flow := { s.flow with quit := true } }

/-- The quota is what the identifiers in use leave of `R`, and these are the keys of `pubOut`. -/
structure Balanced (R : UInt16) (s : Outbound) : Prop where
  quota : s.flow.SendQuota = R.toNat - s.flow.flowInUse.card
  keys : ∀ id, id ∈ s.flow.flowInUse ↔ id ∈ s.pubOut

/-- What a step must meet: a PUBREC is for a packet in `pubOut`, and a PUBLISH is not popped while
all identifiers are in use. -/
def Answerable (s : Outbound) : Op → Prop
  | .ack msg => msg.mType = .PUBREC → idOrZero msg.packetID ∈ s.pubOut
  | .pop => s.flow.quit = false → s.txQuotaExceeded = false → s.txQMessages ≠ [] →
      s.flow.flowInUse.card < 65536
  | _ => True

section Steps

variable {R : UInt16} {s : Outbound}

/-- The quota is never near the bounds of its type. -/
theorem Balanced.range (balanced : s.Balanced R) :
    -65536 ≤ s.flow.SendQuota ∧ s.flow.SendQuota ≤ 65535 := by
  have few := Flow.card_le s.flow.flowInUse
  have small : R.toNat < 65536 := R.toNat_lt
  have quota := balanced.quota
  omega

theorem flowReleaseSignal_spec (s : Outbound) (id : IDType) :
    (s.flowReleaseSignal id).flow = (s.flow.flowRelease id).1 ∧
      (s.flowReleaseSignal id).pubOut = s.pubOut ∧
      (s.flowReleaseSignal id).Version = s.Version ∧
      (s.flowReleaseSignal id).txQMessages = s.txQMessages := by
  unfold flowReleaseSignal
  split
  · rename_i flow run
    exact ⟨by rw [run]; rfl, rfl, rfl, rfl⟩
  · rename_i flow run
    exact ⟨by rw [run], rfl, rfl, rfl⟩

/-- Giving back an identifier in use together with its entry in `pubOut`. -/
theorem Balanced.giveBack (balanced : s.Balanced R) {id : IDType} (held : id ∈ s.pubOut)
    {next : Outbound} (flow : next.flow = (s.flow.flowRelease id).1)
    (pubOut : next.pubOut = s.pubOut.erase id) : next.Balanced R := by
  have range := balanced.range
  have used := (balanced.keys id).mpr held
  have positive := Finset.card_pos.mpr ⟨id, used⟩
  refine ⟨?_, ?_⟩
  · rw [flow]
    simp only [Flow.flowRelease]
    rw [addInt32_eq (by omega) (by omega), Finset.card_erase_of_mem used, balanced.quota]
    omega
  · intro other
    rw [flow, pubOut, AList.mem_erase]
    simp only [Flow.flowRelease, Finset.mem_erase, balanced.keys]

theorem release_of_absent {msg : Ack} (absent : idOrZero msg.packetID ∉ s.pubOut) :
    s.release msg = s := by
  have look : s.pubOut.lookup (idOrZero msg.packetID) = none := AList.lookup_eq_none.mpr absent
  simp only [Outbound.release]
  rw [look]

theorem release_of_held {msg : Ack} (held : idOrZero msg.packetID ∈ s.pubOut) :
    s.release msg = { s.onReleaseOut msg with
      pubOut := (s.onReleaseOut msg).pubOut.erase (idOrZero msg.packetID) } := by
  rcases Option.isSome_iff_exists.mp (AList.lookup_isSome.mpr held) with ⟨pkt, look⟩
  simp only [Outbound.release]
  rw [look]

/-- `pubOut.release` for an acknowledgement that ends the cycle of its packet. -/
theorem Balanced.release (balanced : s.Balanced R) {msg : Ack}
    (final : msg.mType = .PUBACK ∨ msg.mType = .PUBCOMP) : (s.release msg).Balanced R := by
  by_cases held : idOrZero msg.packetID ∈ s.pubOut
  · have released : s.onReleaseOut msg = s.flowReleaseSignal (idOrZero msg.packetID) := by
      rcases final with type | type <;> rw [onReleaseOut, type]
    have spec := flowReleaseSignal_spec s (idOrZero msg.packetID)
    rw [release_of_held held, released]
    exact balanced.giveBack held spec.1 (by rw [spec.2.1])
  · rw [release_of_absent held]
    exact balanced

/-- A PUBREC takes its packet out of `pubOut` and leaves the rest as it is. -/
theorem release_pubRec {msg : Ack} (type : msg.mType = .PUBREC) :
    s.release msg = { s with pubOut := s.pubOut.erase (idOrZero msg.packetID) } := by
  by_cases held : idOrZero msg.packetID ∈ s.pubOut
  · rw [release_of_held held, onReleaseOut, type]
  · have same : s.pubOut.erase (idOrZero msg.packetID) = s.pubOut :=
      AList.ext (List.kerase_of_notMem_keys held)
    rw [release_of_absent held, same]

/-- A PUBREC keeps the balance exactly when its packet is in `pubOut`. -/
theorem balanced_pubRec_iff (balanced : s.Balanced R) {msg : Ack} (type : msg.mType = .PUBREC) :
    (s.onAck msg).1.Balanced R ↔ idOrZero msg.packetID ∈ s.pubOut := by
  have range := balanced.range
  simp only [onAck, type, release_pubRec type]
  generalize idOrZero msg.packetID = id
  by_cases error : s.Version = ProtocolV50 ∧ CodeUnspecifiedError ≤ msg.reasonCode
  · rw [if_pos error]
    have spec := flowReleaseSignal_spec { s with pubOut := s.pubOut.erase id } id
    constructor
    · intro next
      by_contra absent
      have unused : id ∉ s.flow.flowInUse := fun used => absent ((balanced.keys id).mp used)
      have quota := next.quota
      rw [spec.1] at quota
      simp only [Flow.flowRelease, Finset.erase_eq_of_notMem unused] at quota
      rw [addInt32_eq (by omega) (by omega), balanced.quota] at quota
      omega
    · exact fun held => balanced.giveBack held spec.1 spec.2.1
  · rw [if_neg error]
    constructor
    · intro next
      have used := (next.keys id).mpr ((AList.mem_insert _).mpr (.inl rfl))
      exact (balanced.keys id).mp used
    · intro held
      refine ⟨balanced.quota, fun other => ?_⟩
      refine (balanced.keys other).trans ?_
      change other ∈ s.pubOut ↔ other ∈ (s.pubOut.erase id).insert id _
      rw [AList.mem_insert, AList.mem_erase]
      by_cases same : other = id
      · simp [same, held]
      · simp [same]

/-- A pop keeps the balance exactly when an identifier is free for the PUBLISH it takes. -/
theorem balanced_pop_iff (balanced : s.Balanced R)
    (fresh : ∀ pkt ∈ s.txQMessages, ∃ m, pkt = .publish m) :
    s.qPopPacket.1.Balanced R ↔ s.Answerable .pop := by
  have range := balanced.range
  unfold qPopPacket Answerable
  split
  · rename_i exceeded
    simp [exceeded, balanced]
  · rename_i allowed
    split
    · rename_i empty
      simp [empty, balanced]
    · rename_i m rest front
      cases closed : s.flow.quit with
      | true =>
          simp only [Flow.flowAcquire, closed, if_true]
          simp [balanced]
      | false =>
          simp only [Bool.not_eq_true] at allowed
          simp only [allowed, front, ne_eq, reduceCtorEq, not_false_eq_true, true_imp_iff]
          rcases Nat.lt_or_ge s.flow.flowInUse.card 65536 with room | full
          · rcases Flow.flowAcquire_spec closed room with ⟨j, -, -, free, -, run⟩
            rw [run]
            refine ⟨fun _ => room, fun _ => ⟨?_, ?_⟩⟩
            · simp only [endPop, store]
              rw [addInt32_eq (by omega) (by omega), Finset.card_insert_of_notMem free,
                balanced.quota]
              omega
            · intro other
              simp only [endPop, store, Finset.mem_insert, AList.mem_insert, balanced.keys]
              rfl
          · have all : s.flow.flowInUse.card = 65536 :=
              le_antisymm (Flow.card_le s.flow.flowInUse) full
            have kept := Flow.probe_of_full all 65536 s.flow.flowCounter
            simp only [Flow.flowAcquire, closed, Bool.false_eq_true, if_false]
            refine ⟨fun next => ?_, fun room => absurd room (by omega)⟩
            have quota := next.quota
            simp only [endPop, store, kept] at quota
            rw [addInt32_eq (by omega) (by omega), balanced.quota] at quota
            omega
    · rename_i pkt rest front
      rcases fresh (.unacknowledged pkt) (by rw [front]; simp) with ⟨m, impossible⟩
      simp at impossible

theorem balanced_step_iff (balanced : s.Balanced R)
    (fresh : ∀ pkt ∈ s.txQMessages, ∃ m, pkt = .publish m) (op : Op) :
    (s.step op).Balanced R ↔ s.Answerable op := by
  cases op with
  | push m => exact ⟨fun _ => trivial, fun _ => ⟨balanced.quota, balanced.keys⟩⟩
  | close => exact ⟨fun _ => trivial, fun _ => ⟨balanced.quota, balanced.keys⟩⟩
  | pop => exact balanced_pop_iff balanced fresh
  | ack msg =>
      by_cases type : msg.mType = .PUBREC
      · simp only [Answerable, type, true_imp_iff]
        exact balanced_pubRec_iff balanced type
      · simp only [Answerable, type, false_imp_iff, iff_true, step]
        unfold onAck
        split
        · rename_i final
          exact balanced.release (.inl final)
        · rename_i pubRec
          exact absurd pubRec type
        · rename_i final
          exact balanced.release (.inr final)
        · exact balanced

end Steps

theorem txQMessages_ack (s : Outbound) (msg : Ack) :
    (s.onAck msg).1.txQMessages = s.txQMessages := by
  have released : (s.release msg).txQMessages = s.txQMessages := by
    by_cases held : idOrZero msg.packetID ∈ s.pubOut
    · rw [release_of_held held]
      simp only [onReleaseOut]
      split
      · exact (flowReleaseSignal_spec s _).2.2.2
      · exact (flowReleaseSignal_spec s _).2.2.2
      · rfl
    · rw [release_of_absent held]
  unfold onAck
  split
  · exact released
  · simp only
    split
    · exact (flowReleaseSignal_spec _ _).2.2.2.trans released
    · exact released
  · exact released
  · rfl

/-- A new connection queues nothing but PUBLISH packets. -/
theorem fresh_step {s : Outbound} (fresh : ∀ pkt ∈ s.txQMessages, ∃ m, pkt = .publish m) (op : Op) :
    ∀ pkt ∈ (s.step op).txQMessages, ∃ m, pkt = .publish m := by
  cases op with
  | push m =>
      intro pkt member
      rcases List.mem_append.mp member with before | new
      · exact fresh pkt before
      · exact ⟨m, List.mem_singleton.mp new⟩
  | close => exact fresh
  | ack msg =>
      simp only [step, txQMessages_ack]
      exact fresh
  | pop =>
      simp only [step, qPopPacket]
      split
      · exact fresh
      · split
        · exact fresh
        · rename_i m rest front
          rw [front] at fresh
          split
          · simp only [front]
            exact fresh
          · exact fun pkt member => fresh pkt (List.mem_cons_of_mem _ member)
        · rename_i packet rest front
          rw [front] at fresh
          exact fun pkt member => fresh pkt (List.mem_cons_of_mem _ member)

/-- In every run of a new connection with send quota `R`, the balance holds at all times exactly
when every PUBREC is for a packet in `pubOut` and no PUBLISH is popped while all identifiers are
in use. -/
theorem balanced_run_iff (Version : ProtocolVersion) (R : UInt16) (ops : List Op) :
    (∀ n, ((ops.take n).foldl step (new Version R)).Balanced R) ↔
      Along step Answerable (new Version R) ops := by
  have start : (new Version R).Balanced R := ⟨by simp [new, Flow.new], by simp [new, Flow.new]⟩
  have law := always_iff_along (fun s => ∀ pkt ∈ s.txQMessages, ∃ m, pkt = Queued.publish m)
    (Balanced R) (fun _ op fresh => fresh_step fresh op)
    (fun _ op fresh balanced => balanced_step_iff balanced fresh op)
    (show ∀ pkt ∈ (new Version R).txQMessages, ∃ m, pkt = Queued.publish m by simp [new]) ops
  simpa [start] using law

/-- On a new V5.0 connection with quota 10, a PUBREC with an error code for an identifier that was
never sent adds to the quota, and one without an error code puts an entry into `pubOut` that has
no identifier in use. -/
theorem pubRec_breaks_balance :
    let error : Op := .ack ⟨ProtocolV50, .PUBREC, some 7, CodeUnspecifiedError⟩
    let success : Op := .ack ⟨ProtocolV50, .PUBREC, some 7, CodeSuccess⟩
    (((new ProtocolV50 10).step error).flow.SendQuota = 11 ∧
        ((new ProtocolV50 10).step error).flow.flowInUse = ∅ ∧
        ¬((new ProtocolV50 10).step error).Balanced 10) ∧
      (7 ∈ ((new ProtocolV50 10).step success).pubOut ∧
        7 ∉ ((new ProtocolV50 10).step success).flow.flowInUse ∧
        ¬((new ProtocolV50 10).step success).Balanced 10) := by
  intro error success
  refine ⟨⟨by decide, by decide, fun balanced => ?_⟩, by decide, by decide, fun balanced => ?_⟩
  · exact absurd balanced.quota (by decide)
  · exact absurd ((balanced.keys 7).mpr (by decide)) (by decide)

end Outbound

end VolantMQ.Connection
