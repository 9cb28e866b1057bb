import VolantMQ.Connection.Outbound

/-!
# The send window

The transmitter and the receiver of a connection run at the same time. `qPopPacket` holds a lock
from its test of `txQuotaExceeded` to the end, but the acknowledgement handlers change the quota
without it and take it only to clear the flag. This file splits the two into steps that may
interleave in any order, on a connection that has reloaded the packets of its session, and records
how many packets are in flight whenever a new PUBLISH takes its place in the window.

The window holds for sessions that reload fewer packets than it admits. The quota of any other
starts at zero or below and never meets the test for zero.
-/

namespace VolantMQ.Connection

open Lib Packet

/-- `persistence.PersistedPacket` with its packet decoded and its time parsed. -/
structure Persisted where
  UnAck : Bool
  ExpireAt : Option Time
  packet : Provider

/-- `p.SetExpiry(tm)` if the packet was stored with a time. -/
def Persisted.setExpiry (entry : Persisted) (p : Publish) : Publish :=
  match entry.ExpireAt with
  | none => p
  | some tm => { p with expireAt := some tm }

/-- The callback of `loadPersistence` for one packet. A PUBLISH of QoS 0 goes to the other queue. -/
def Outbound.loadPacket (s : Outbound) (entry : Persisted) : Outbound :=
  if entry.UnAck then
    ({ s with flow := s.flow.flowReAcquire entry.packet.id } : Outbound).qPush
      (.unacknowledged entry.packet)
  else
    match entry.packet with
    | .ack _ => s
    | .publish p =>
        if p.qos = QoS0 then s else s.qPush (.publish (entry.setExpiry p))

/-- A connection after `loadPersistence`. -/
def Outbound.loadPersistence (Version : ProtocolVersion) (SendQuota : UInt16)
    (entries : List Persisted) : Outbound :=
  entries.foldl loadPacket (new Version SendQuota)

/-- Loaded as unacknowledged. -/
def Queued.isUnacknowledged : Queued → Bool
  | .publish _ => false
  | .unacknowledged _ => true

/-- What the receiver still has to do for an acknowledgement. -/
inductive Pending where
  | flowRelease (id : IDType)
  | signalQuota
  | delete (id : IDType)
  | store (pkt : Provider)

/-- The steps of `onAck` after it has looked into `pubOut`. -/
def Outbound.handle (s : Outbound) (msg : Ack) : List Pending :=
  let id := idOrZero msg.packetID
  let release (steps : List Pending) := if id ∈ s.pubOut then steps else []
  match msg.mType with
  | .PUBACK => release [.flowRelease id, .delete id]
  | .PUBREC =>
      release [.delete id] ++
        if s.Version = ProtocolV50 ∧ CodeUnspecifiedError ≤ msg.reasonCode then [.flowRelease id]
        else [.store (.ack ((Ack.new s.Version .PUBREL).setPacketID id))]
  | .PUBCOMP => release [.flowRelease id, .delete id]
  | _ => []

/-- The step leads to giving back a unit of the quota for the identifier: at once, or by an entry
of `pubOut` for the last acknowledgement. -/
def Pending.owes (id : IDType) : Pending → Bool
  | .flowRelease other => other == id
  | .store pkt => pkt.id == id
  | _ => false

/-- The step takes the identifier out of `pubOut`. -/
def Pending.deletes (id : IDType) : Pending → Bool
  | .delete other => other == id
  | _ => false

section Simp

variable (id other : IDType) (pkt : Provider)

@[simp] theorem Pending.owes_flowRelease : (flowRelease other).owes id = (other == id) := rfl
@[simp] theorem Pending.owes_signalQuota : signalQuota.owes id = false := rfl
@[simp] theorem Pending.owes_delete : (delete other).owes id = false := rfl
@[simp] theorem Pending.owes_store : (store pkt).owes id = (pkt.id == id) := rfl
@[simp] theorem Pending.deletes_flowRelease : (flowRelease other).deletes id = false := rfl
@[simp] theorem Pending.deletes_signalQuota : signalQuota.deletes id = false := rfl
@[simp] theorem Pending.deletes_delete : (delete other).deletes id = (other == id) := rfl
@[simp] theorem Pending.deletes_store : (store pkt).deletes id = false := rfl

end Simp

/-- The local variables of `qPopPacket` after `flowAcquire`. -/
structure Popping where
  m : Publish
  rest : List Queued
  id : IDType
  exceeded : Bool

/-- The sending side with its two routines. -/
structure Window where
  conn : Outbound
  /-- The transmitter holds `txQLock`. -/
  popping : Option Popping
  /-- The rest of the acknowledgement that the receiver handles. -/
  pending : List Pending
  /-- The packets sent over this connection whose quota has not been given back. -/
  sent : List IDType
  /-- The number of packets in flight at each pop of a new PUBLISH. -/
  windows : List ℕ

namespace Window

/-- The packets in flight: those sent, those loaded as unacknowledged that wait to be sent again,
and the one being popped. -/
def inFlight (s : Window) : ℕ :=
  s.sent.length + s.conn.txQMessages.countP Queued.isUnacknowledged +
    if s.popping.isSome then 1 else 0

/-- `qPopPacket` up to `flowAcquire`, or all of it if the packet at the front needs none. -/
def beginPop (s : Window) : Window :=
  if s.conn.txQuotaExceeded then s
  else
    match s.conn.txQMessages with
    | [] => s
    | .publish m :: rest =>
        match s.conn.flow.flowAcquire with
        | (flow, .exit) => { s with conn := { s.conn with flow } }
        | (flow, .granted id exceeded) =>
            { s with
              conn := { s.conn with flow }
              popping := some ⟨m, rest, id, exceeded⟩
              windows := s.windows ++ [s.inFlight] }
    | .unacknowledged pkt :: rest =>
        { s with
          conn := ({ s.conn with txQMessages := rest } : Outbound).store pkt
          sent := pkt.id :: s.sent }

/-- The rest of `qPopPacket`. -/
def endPop (s : Window) : Window :=
  match s.popping with
  | none => s
  | some p =>
      { s with
        conn := s.conn.endPop p.m p.rest p.id p.exceeded
        popping := none
        sent := p.id :: s.sent }

/-- One step of the receiver. A packet is finally acknowledged when it gives back its quota, and
`signalQuota` waits for the lock. -/
def receive (s : Window) : Window :=
  match s.pending with
  | [] => s
  | .flowRelease id :: rest =>
      let (flow, wake) := s.conn.flow.flowRelease id
      { s with
        conn := { s.conn with flow }
        pending := if wake then .signalQuota :: rest else rest
        sent := s.sent.erase id }
  | .signalQuota :: rest =>
      if s.popping.isSome then s
      else { s with conn := s.conn.signalQuota, pending := rest }
  | .delete id :: rest =>
      { s with conn := { s.conn with pubOut := s.conn.pubOut.erase id }, pending := rest }
  | .store pkt :: rest => { s with conn := s.conn.store pkt, pending := rest }

/-- What can happen next. -/
inductive Op where
  | push (m : Publish)
  | beginPop
  | endPop
  | ack (msg : Ack)
  | receive
  | close

/-- One step. Nothing is pushed or popped while the lock is held, and the receiver takes the next
acknowledgement when it is done with the last. -/
def step (s : Window) : Op → Window
  | .push m => if s.popping.isSome then s else { s with conn := s.conn.qPush (.publish m) }
  | .beginPop => if s.popping.isSome then s else s.beginPop
  | .endPop => s.endPop
  | .ack msg =>
      match s.pending with
      | [] => { s with pending := s.conn.handle msg }
      | _ :: _ => s
  | .receive => s.receive
  | .close => { s with conn := { s.conn with flow := { s.conn.flow with quit := true } } }

/-- The window of a connection that has loaded its session. -/
def load (Version : ProtocolVersion) (R : UInt16) (entries : List Persisted) : Window :=
  ⟨.loadPersistence Version R entries, none, [], [], []⟩

/-- The client answers a packet with PUBREC only if it was sent over this connection and is not
finally acknowledged. -/
def Received (s : Window) : Op → Prop
  | .ack msg => msg.mType = .PUBREC → idOrZero msg.packetID ∈ s.sent
  | _ => True

/-- Without interference, the two steps of a pop are `qPopPacket`. -/
theorem pop_uninterrupted {s : Window} (free : s.popping = none) :
    ([.beginPop, .endPop].foldl step s).conn = s.conn.qPopPacket.1 := by
  simp only [List.foldl_cons, List.foldl_nil, step, free, Option.isSome_none, Bool.false_eq_true,
    if_false, beginPop, Outbound.qPopPacket]
  by_cases exceeded : s.conn.txQuotaExceeded = true
  · simp [exceeded, endPop, free]
  · simp only [exceeded, Bool.false_eq_true, if_false]
    cases s.conn.txQMessages with
    | nil => simp [endPop, free]
    | cons front rest =>
        cases front with
        | unacknowledged pkt => simp [endPop]
        | publish m =>
            rcases s.conn.flow.flowAcquire with ⟨flow, acquired⟩
            cases acquired with
            | exit => simp [endPop]
            | granted id exceeded => simp [endPop]

/-- Without interference, the steps of the receiver are `onAck`. -/
theorem ack_uninterrupted {s : Window} (free : s.popping = none) (done : s.pending = [])
    (msg : Ack) :
    ([.ack msg, .receive, .receive, .receive].foldl step s).conn = (s.conn.onAck msg).1 := by
  rcases run : s.conn.flow.flowRelease (idOrZero msg.packetID) with ⟨flow, wake⟩
  simp only [List.foldl_cons, List.foldl_nil, step, done, Outbound.handle, Outbound.onAck]
  by_cases held : idOrZero msg.packetID ∈ s.conn.pubOut
  · simp only [Outbound.release_of_held held, Outbound.onReleaseOut, held, if_true]
    cases msg.mType with
    | PUBACK =>
        cases wake <;> simp [receive, run, free, Outbound.flowReleaseSignal, Outbound.signalQuota]
    | PUBCOMP =>
        cases wake <;> simp [receive, run, free, Outbound.flowReleaseSignal, Outbound.signalQuota]
    | PUBREC =>
        by_cases error : s.conn.Version = ProtocolV50 ∧ CodeUnspecifiedError ≤ msg.reasonCode
        · cases wake <;>
            simp [receive, run, free, error, Outbound.flowReleaseSignal, Outbound.signalQuota]
        · simp [receive, error]
    | _ => simp [receive]
  · simp only [Outbound.release_of_absent held, held, if_false]
    cases msg.mType with
    | PUBREC =>
        by_cases error : s.conn.Version = ProtocolV50 ∧ CodeUnspecifiedError ≤ msg.reasonCode
        · cases wake <;>
            simp [receive, run, free, error, Outbound.flowReleaseSignal, Outbound.signalQuota]
        · simp [receive, error]
    | _ => simp [receive]

/-- The units of the quota that may still be given back for an identifier: one for a step of the
receiver that leads to it, and one for an entry of `pubOut` that is not about to be deleted. -/
def due (s : Window) (id : IDType) : ℕ :=
  s.pending.countP (Pending.owes id) +
    if id ∈ s.conn.pubOut ∧ s.pending.all (fun next => !next.deletes id) then 1 else 0

/-- The invariant. The flag is set whenever the quota is used up, and until the receiver that gave
back the first unit clears it. -/
structure Kept (R : UInt16) (s : Window) : Prop where
  quota : s.conn.flow.SendQuota = R.toNat - s.inFlight
  bounded : s.inFlight ≤ R.toNat
  covered : ∀ id, s.due id ≤ s.sent.count id
  stopped : s.conn.flow.SendQuota = 0 ∨ .signalQuota ∈ s.pending →
    s.conn.txQuotaExceeded = true ∨ ∃ p, s.popping = some p ∧ p.exceeded = true
  woken : .signalQuota ∈ s.pending → 1 ≤ s.conn.flow.SendQuota
  once : .signalQuota ∉ s.pending.tail
  front : ∀ p, s.popping = some p → s.conn.txQMessages = .publish p.m :: p.rest
  windows : ∀ window ∈ s.windows, window < R.toNat

section Steps

variable {R : UInt16} {s : Window}

/-- The quota stays far from the bounds of its type. -/
theorem Kept.range (kept : s.Kept R) :
    0 ≤ s.conn.flow.SendQuota ∧ s.conn.flow.SendQuota ≤ 65535 := by
  have small : R.toNat < 65536 := R.toNat_lt
  have quota := kept.quota
  have bounded := kept.bounded
  omega

/-- A packet put into `pubOut` is one more that was sent. -/
theorem due_store (covered : ∀ id, s.due id ≤ s.sent.count id) (pkt : Provider) (id : IDType) :
    ({ s with
        conn := s.conn.store pkt
        sent := pkt.id :: s.sent } : Window).due id ≤ (pkt.id :: s.sent).count id := by
  have before := covered id
  simp only [due, Outbound.store, AList.mem_insert] at before ⊢
  by_cases same : id = pkt.id
  · subst id
    simp only [List.count_cons_self]
    split <;> split at before <;> omega
  · rw [List.count_cons_of_ne (Ne.symm same)]
    simpa [same] using before

theorem kept_push (kept : s.Kept R) (m : Publish) : (s.step (.push m)).Kept R := by
  simp only [step]
  split
  · exact kept
  · rename_i free
    have same : ({ s with conn := s.conn.qPush (.publish m) } : Window).inFlight = s.inFlight := by
      simp [inFlight, Outbound.qPush, Queued.isUnacknowledged]
    refine ⟨same ▸ kept.quota, same ▸ kept.bounded, kept.covered, kept.stopped, kept.woken,
      kept.once, ?_, kept.windows⟩
    intro p popping
    simp only at popping
    simp [popping] at free

theorem kept_beginPop (kept : s.Kept R) : (s.step .beginPop).Kept R := by
  simp only [step]
  split
  · exact kept
  · rename_i free
    simp only [Option.isSome_iff_ne_none, ne_eq, not_not] at free
    unfold beginPop
    split
    · exact kept
    · rename_i allowed
      split
      · exact kept
      · rename_i m rest front
        cases closed : s.conn.flow.quit with
        | true =>
            simp only [Flow.flowAcquire, closed, if_true]
            exact kept
        | false =>
            have range := kept.range
            have positive : s.conn.flow.SendQuota ≠ 0 := by
              intro zero
              rcases kept.stopped (.inl zero) with flag | ⟨p, popping, _⟩
              · exact allowed flag
              · simp [free] at popping
            have quiet : .signalQuota ∉ s.pending := by
              intro waiting
              rcases kept.stopped (.inr waiting) with flag | ⟨p, popping, _⟩
              · exact allowed flag
              · simp [free] at popping
            have quota := kept.quota
            simp only [Flow.flowAcquire, closed, Bool.false_eq_true, if_false]
            rw [addInt32_eq (by omega) (by omega)]
            have same : s.inFlight = s.sent.length +
                s.conn.txQMessages.countP Queued.isUnacknowledged := by
              simp [inFlight, free]
            refine ⟨?_, ?_, kept.covered, ?_, fun waiting => absurd waiting quiet, kept.once, ?_, ?_⟩
            · simp only [inFlight, Option.isSome_some, if_true]
              omega
            · simp only [inFlight, Option.isSome_some, if_true]
              omega
            · rintro (zero | waiting)
              · exact .inr ⟨_, rfl, by simpa using zero⟩
              · exact absurd waiting quiet
            · intro p popping
              cases popping
              exact front
            · simp only [List.forall_mem_append, List.forall_mem_singleton]
              exact ⟨kept.windows, by omega⟩
      · rename_i pkt rest front
        have same : ({ s with
            conn := ({ s.conn with txQMessages := rest } : Outbound).store pkt
            sent := pkt.id :: s.sent } : Window).inFlight = s.inFlight := by
          simp only [inFlight, Outbound.store, front, List.countP_cons, Queued.isUnacknowledged,
            List.length_cons, if_true]
          omega
        refine ⟨same ▸ kept.quota, same ▸ kept.bounded, ?_, kept.stopped, kept.woken, kept.once,
          ?_, kept.windows⟩
        · exact fun id => due_store kept.covered pkt id
        · intro p popping
          simp [free] at popping

theorem kept_endPop (kept : s.Kept R) : (s.step .endPop).Kept R := by
  simp only [step, endPop]
  cases popping : s.popping with
  | none => exact kept
  | some p =>
      have front := kept.front p popping
      have same : ({ s with
          conn := s.conn.endPop p.m p.rest p.id p.exceeded
          popping := none
          sent := p.id :: s.sent } : Window).inFlight = s.inFlight := by
        simp [inFlight, Outbound.endPop, Outbound.store, front, popping, Queued.isUnacknowledged]
        omega
      refine ⟨same ▸ kept.quota, same ▸ kept.bounded, ?_, ?_, kept.woken, kept.once, by simp,
        kept.windows⟩
      · exact fun id => due_store kept.covered (.publish (p.m.setPacketID p.id)) id
      · intro reason
        left
        simp only [Outbound.endPop, Outbound.store, Bool.or_eq_true]
        rcases kept.stopped reason with flag | ⟨q, holds, exceeded⟩
        · exact .inl flag
        · rw [popping, Option.some.injEq] at holds
          exact .inr (holds ▸ exceeded)

/-- The steps of an acknowledgement: none, those of a final one, or those of a PUBREC. -/
theorem handle_cases (conn : Outbound) (msg : Ack) :
    conn.handle msg = [] ∨
      (idOrZero msg.packetID ∈ conn.pubOut ∧ conn.handle msg =
        [.flowRelease (idOrZero msg.packetID), .delete (idOrZero msg.packetID)]) ∨
      (msg.mType = .PUBREC ∧ ∃ last : Pending,
        (last = .flowRelease (idOrZero msg.packetID) ∨
          ∃ pkt : Provider, pkt.id = idOrZero msg.packetID ∧ last = .store pkt) ∧
        ((idOrZero msg.packetID ∈ conn.pubOut ∧
            conn.handle msg = [.delete (idOrZero msg.packetID), last]) ∨
          (idOrZero msg.packetID ∉ conn.pubOut ∧ conn.handle msg = [last]))) := by
  simp only [Outbound.handle]
  split
  · split
    · rename_i held
      exact .inr (.inl ⟨held, rfl⟩)
    · exact .inl rfl
  · rename_i type
    refine .inr (.inr ⟨type, ?_⟩)
    by_cases error : conn.Version = ProtocolV50 ∧ CodeUnspecifiedError ≤ msg.reasonCode
    · refine ⟨_, .inl rfl, ?_⟩
      by_cases held : idOrZero msg.packetID ∈ conn.pubOut <;> simp [held, error]
    · refine ⟨_, .inr ⟨.ack ((Ack.new conn.Version .PUBREL).setPacketID (idOrZero msg.packetID)),
        rfl, rfl⟩, ?_⟩
      by_cases held : idOrZero msg.packetID ∈ conn.pubOut <;> simp [held, error]
  · split
    · rename_i held
      exact .inr (.inl ⟨held, rfl⟩)
    · exact .inl rfl
  · exact .inl rfl

/-- What is due once the receiver starts to handle an acknowledgement. -/
theorem due_handle (idle : s.pending = []) (covered : ∀ id, s.due id ≤ s.sent.count id)
    {msg : Ack} (received : s.Received (.ack msg)) (id : IDType) :
    ({ s with pending := s.conn.handle msg } : Window).due id ≤ s.sent.count id := by
  have before := covered id
  simp only [due, idle, List.countP_nil, List.all_nil, and_true, Nat.zero_add] at before
  simp only [due]
  by_cases same : idOrZero msg.packetID = id
  · rcases handle_cases s.conn msg with none | ⟨held, final⟩ | ⟨type, last, kind, steps⟩
    · simpa [none] using before
    · rw [same] at held final
      simpa [final, held] using before
    · have sent : 0 < s.sent.count id := List.count_pos_iff.mpr (same ▸ received type)
      rw [same] at kind steps
      have owes : last.owes id = true := by
        rcases kind with rfl | ⟨pkt, rfl, rfl⟩ <;> simp
      rcases steps with ⟨held, steps⟩ | ⟨absent, steps⟩
      · simpa [steps, owes] using Nat.succ_le_of_lt sent
      · simpa [steps, owes, absent] using Nat.succ_le_of_lt sent
  · have others : ∀ next ∈ s.conn.handle msg, next.owes id = false ∧ next.deletes id = false := by
      rcases handle_cases s.conn msg with none | ⟨held, final⟩ | ⟨type, last, kind, steps⟩
      · simp [none]
      · simp [final, same]
      · have apart : last.owes id = false ∧ last.deletes id = false := by
          rcases kind with rfl | ⟨pkt, own, rfl⟩
          · simp [same]
          · simp [own, same]
        rcases steps with ⟨_, steps⟩ | ⟨_, steps⟩
        · simp [steps, apart, same]
        · simp [steps, apart]
    have none : (s.conn.handle msg).countP (Pending.owes id) = 0 :=
      List.countP_eq_zero.mpr fun next member => by simp [(others next member).1]
    have keep : (s.conn.handle msg).all (fun next => !next.deletes id) = true :=
      List.all_eq_true.mpr fun next member => by simp [(others next member).2]
    simpa [none, keep] using before

/-- Handling an acknowledgement starts with steps for packets that were sent. -/
theorem kept_ack (kept : s.Kept R) {msg : Ack} (received : s.Received (.ack msg)) :
    (s.step (.ack msg)).Kept R := by
  simp only [step]
  cases idle : s.pending with
  | cons next rest => exact kept
  | nil =>
      have noSignal : .signalQuota ∉ s.conn.handle msg := by
        simp only [Outbound.handle]
        split <;> (repeat' split) <;> simp
      refine ⟨kept.quota, kept.bounded, ?_, ?_, fun waiting => absurd waiting noSignal,
        fun waiting => noSignal (List.mem_of_mem_tail waiting), kept.front, kept.windows⟩
      · exact due_handle idle kept.covered received
      · rintro (zero | waiting)
        · exact kept.stopped (.inl zero)
        · exact absurd waiting noSignal

/-- Giving back a unit of the quota. Only the first one after the quota was used up has to clear
the flag, which is set then. -/
theorem kept_flowRelease (kept : s.Kept R) {id : IDType} {rest : List Pending}
    (pending : s.pending = .flowRelease id :: rest) : s.receive.Kept R := by
  have range := kept.range
  have once : .signalQuota ∉ rest := by
    have tail := kept.once
    rwa [pending] at tail
  have quiet : .signalQuota ∉ rest.tail := fun later => once (List.mem_of_mem_tail later)
  have covered := kept.covered
  simp only [due, pending, List.countP_cons, List.all_cons, Pending.owes_flowRelease,
    Pending.deletes_flowRelease] at covered
  have member : id ∈ s.sent := by
    have here := covered id
    simp only [beq_self_eq_true, if_true] at here
    exact List.count_pos_iff.mp (by omega)
  have shorter := List.length_erase_of_mem member
  have positive := List.length_pos_of_mem member
  have quota := kept.quota
  have bounded := kept.bounded
  simp only [inFlight] at quota bounded
  have released : ∀ other, rest.countP (Pending.owes other) +
      (if other ∈ s.conn.pubOut ∧ rest.all (fun next => !next.deletes other) then 1 else 0) ≤
        (s.sent.erase id).count other := by
    intro other
    have before := covered other
    by_cases same : id = other
    · subst other
      rw [List.count_erase_self]
      simp only [beq_self_eq_true, if_true] at before
      simp only [Bool.not_false, Bool.true_and] at before
      omega
    · rw [List.count_erase_of_ne (Ne.symm same)]
      simpa [same] using before
  have run : s.conn.flow.flowRelease id =
      ({ s.conn.flow with
          SendQuota := s.conn.flow.SendQuota + 1
          flowInUse := s.conn.flow.flowInUse.erase id },
        s.conn.flow.SendQuota + 1 == 1) := by
    rw [Flow.flowRelease, addInt32_eq (by omega) (by omega)]
  simp only [receive, pending, run]
  by_cases first : s.conn.flow.SendQuota = 0
  · have wake : (s.conn.flow.SendQuota + 1 == 1) = true := by simp [first]
    simp only [wake, if_true]
    refine ⟨?_, ?_, ?_, fun _ => kept.stopped (.inl first), fun _ => ?_, once, kept.front,
      kept.windows⟩
    · simp only [inFlight]
      omega
    · simp only [inFlight]
      omega
    · simpa [due] using released
    · simp [first]
  · have silent : (s.conn.flow.SendQuota + 1 == 1) = false := by simp [first]
    simp only [silent, Bool.false_eq_true, if_false]
    refine ⟨?_, ?_, released, ?_, fun waiting => absurd waiting once, quiet, kept.front,
      kept.windows⟩
    · simp only [inFlight]
      omega
    · simp only [inFlight]
      omega
    · rintro (zero | waiting)
      · simp only at zero
        omega
      · exact absurd waiting once

theorem kept_receive (kept : s.Kept R) : (s.step .receive).Kept R := by
  simp only [step, receive]
  cases pending : s.pending with
  | nil => exact kept
  | cons next rest =>
      have once : .signalQuota ∉ rest := by
        have tail := kept.once
        rwa [pending] at tail
      have quiet : .signalQuota ∉ rest.tail := fun later => once (List.mem_of_mem_tail later)
      cases next with
      | delete id =>
          refine ⟨kept.quota, kept.bounded, ?_, ?_, fun waiting => absurd waiting once, quiet,
            kept.front, kept.windows⟩
          · intro other
            have before := kept.covered other
            simp only [due, pending, List.countP_cons, List.all_cons, Pending.owes_delete,
              Pending.deletes_delete, Bool.false_eq_true, if_false] at before
            simp only [due, AList.mem_erase]
            by_cases same : id = other
            · subst other
              simpa using before
            · simpa [same, Ne.symm same] using before
          · rintro (zero | waiting)
            · exact kept.stopped (.inl zero)
            · exact absurd waiting once
      | store pkt =>
          refine ⟨kept.quota, kept.bounded, ?_, ?_, fun waiting => absurd waiting once, quiet,
            kept.front, kept.windows⟩
          · intro other
            have before := kept.covered other
            simp only [due, pending, List.countP_cons, List.all_cons, Pending.owes_store,
              Pending.deletes_store] at before
            simp only [due, Outbound.store, AList.mem_insert]
            by_cases same : pkt.id = other
            · subst other
              simp only [beq_self_eq_true, if_true] at before
              split <;> omega
            · simpa [same, Ne.symm same] using before
          · rintro (zero | waiting)
            · exact kept.stopped (.inl zero)
            · exact absurd waiting once
      | signalQuota =>
          simp only
          split
          · exact kept
          · rename_i free
            have positive := kept.woken (by simp [pending])
            refine ⟨kept.quota, kept.bounded, ?_, ?_, fun waiting => absurd waiting once, quiet,
              kept.front, kept.windows⟩
            · intro other
              simpa [due, pending, Outbound.signalQuota] using kept.covered other
            · rintro (zero | waiting)
              · simp only [Outbound.signalQuota] at zero
                omega
              · exact absurd waiting once
      | flowRelease id => simpa only [receive, pending] using kept_flowRelease kept pending

theorem kept_step (kept : s.Kept R) (op : Op) (received : s.Received op) : (s.step op).Kept R := by
  cases op with
  | push m => exact kept_push kept m
  | beginPop => exact kept_beginPop kept
  | endPop => exact kept_endPop kept
  | ack msg => exact kept_ack kept received
  | receive => exact kept_receive kept
  | close =>
      exact ⟨kept.quota, kept.bounded, kept.covered, kept.stopped, kept.woken, kept.once, kept.front,
        kept.windows⟩

end Steps

/-- What loading one packet does to the quota and the queue, and what it leaves alone. -/
theorem loadPacket_spec (s : Outbound) (entry : Persisted) :
    (s.loadPacket entry).txQuotaExceeded = s.txQuotaExceeded ∧
      (s.loadPacket entry).pubOut = s.pubOut ∧
      (s.loadPacket entry).flow.quit = s.flow.quit ∧
      (s.loadPacket entry).txQMessages.countP Queued.isUnacknowledged =
        s.txQMessages.countP Queued.isUnacknowledged + (if entry.UnAck then 1 else 0) ∧
      (s.loadPacket entry).flow.SendQuota =
        if entry.UnAck then addInt32 s.flow.SendQuota (-1) else s.flow.SendQuota := by
  unfold Outbound.loadPacket
  by_cases unacknowledged : entry.UnAck
  · simp [unacknowledged, Outbound.qPush, Flow.flowReAcquire, Queued.isUnacknowledged]
  · simp only [unacknowledged, Bool.false_eq_true, if_false, Nat.add_zero]
    split
    · simp
    · split
      · simp
      · simp [Outbound.qPush, Queued.isUnacknowledged]

theorem load_spec (s : Outbound) (entries : List Persisted) :
    (entries.foldl Outbound.loadPacket s).txQuotaExceeded = s.txQuotaExceeded ∧
      (entries.foldl Outbound.loadPacket s).pubOut = s.pubOut ∧
      (entries.foldl Outbound.loadPacket s).flow.quit = s.flow.quit ∧
      (entries.foldl Outbound.loadPacket s).txQMessages.countP Queued.isUnacknowledged =
        s.txQMessages.countP Queued.isUnacknowledged + entries.countP Persisted.UnAck := by
  induction entries generalizing s with
  | nil => simp
  | cons entry entries ih =>
      rcases loadPacket_spec s entry with ⟨flag, pubOut, quit, count, _⟩
      rcases ih (s.loadPacket entry) with ⟨flag', pubOut', quit', count'⟩
      simp only [List.foldl_cons, List.countP_cons]
      exact ⟨flag'.trans flag, pubOut'.trans pubOut, quit'.trans quit, by omega⟩

/-- Each packet loaded as unacknowledged takes a unit of the quota. -/
theorem load_quota {s : Outbound} {entries : List Persisted}
    (enough : (entries.countP Persisted.UnAck : ℤ) ≤ s.flow.SendQuota)
    (small : s.flow.SendQuota ≤ 65535) :
    (entries.foldl Outbound.loadPacket s).flow.SendQuota =
      s.flow.SendQuota - entries.countP Persisted.UnAck := by
  induction entries generalizing s with
  | nil => simp
  | cons entry entries ih =>
      have one := (loadPacket_spec s entry).2.2.2.2
      rw [List.countP_cons] at enough ⊢
      by_cases unacknowledged : entry.UnAck
      · rw [if_pos unacknowledged] at one enough ⊢
        rw [addInt32_eq (by omega) (by omega)] at one
        rw [List.foldl_cons, ih (by omega) (by omega), one]
        omega
      · rw [if_neg unacknowledged] at one enough ⊢
        rw [List.foldl_cons, ih (by omega) (by omega), one]
        omega

theorem inFlight_load (Version : ProtocolVersion) (R : UInt16) (entries : List Persisted) :
    (load Version R entries).inFlight = entries.countP Persisted.UnAck := by
  have count := (load_spec (Outbound.new Version R) entries).2.2.2
  simp only [inFlight, load, Outbound.loadPersistence, count]
  simp [Outbound.new]

/-- With fewer packets to reload than the window admits, the invariant holds from the start. -/
theorem kept_load (Version : ProtocolVersion) {R : UInt16} {entries : List Persisted}
    (few : entries.countP Persisted.UnAck < R.toNat) : (load Version R entries).Kept R := by
  have small : R.toNat < 65536 := R.toNat_lt
  rcases load_spec (Outbound.new Version R) entries with ⟨_, pubOut, _, _⟩
  have quota : (load Version R entries).conn.flow.SendQuota =
      R.toNat - entries.countP Persisted.UnAck :=
    load_quota (by simp only [Outbound.new, Flow.new]; omega)
      (by simp only [Outbound.new, Flow.new]; omega)
  have empty : (load Version R entries).conn.pubOut = ∅ := pubOut
  refine ⟨?_, ?_, ?_, ?_, by simp [load], by simp [load], by simp [load], by simp [load]⟩
  · rw [quota, inFlight_load]
  · rw [inFlight_load]
    omega
  · intro id
    simp only [due, empty]
    simp [load]
  · rintro (zero | waiting)
    · rw [quota] at zero
      omega
    · simp [load] at waiting

/-- As long as the flag is not set, the packets loaded as unacknowledged are popped one after the
other, and the next PUBLISH takes its place while all of them are in flight. -/
theorem pops_to_publish {s : Window} {m : Publish} (free : s.popping = none)
    (allowed : s.conn.txQuotaExceeded = false) (opened : s.conn.flow.quit = false)
    (queued : .publish m ∈ s.conn.txQMessages) :
    ∃ n, s.inFlight ∈ ((List.replicate n .beginPop).foldl step s).windows := by
  generalize contents : s.conn.txQMessages = queue at queued
  induction queue generalizing s with
  | nil => simp at queued
  | cons front rest ih =>
      cases front with
      | publish first =>
          refine ⟨1, ?_⟩
          simp [step, beginPop, free, allowed, contents, Flow.flowAcquire, opened]
      | unacknowledged pkt =>
          have next : s.step .beginPop = { s with
              conn := ({ s.conn with txQMessages := rest } : Outbound).store pkt
              sent := pkt.id :: s.sent } := by
            simp [step, beginPop, free, allowed, contents]
          have same : (s.step .beginPop).inFlight = s.inFlight := by
            rw [next]
            simp only [inFlight, Outbound.store, contents, List.countP_cons,
              Queued.isUnacknowledged, List.length_cons, if_true]
            omega
          rcases @ih (s.step .beginPop) (by rw [next]; exact free) (by rw [next]; exact allowed)
            (by rw [next]; exact opened) (by rw [next]; rfl) (by simpa using queued) with ⟨n, window⟩
          exact ⟨n + 1, by rwa [same] at window⟩

/-- On a connection with Receive Maximum `R`, whatever is queued and however the routines
interleave, no new PUBLISH is popped while `R` packets are in flight, exactly when fewer than `R`
packets were reloaded as unacknowledged. -/
theorem window_iff (Version : ProtocolVersion) (R : UInt16) (entries : List Persisted) :
    (∀ ops, Along step Received (load Version R entries) ops →
      ∀ window ∈ (ops.foldl step (load Version R entries)).windows, window < R.toNat) ↔
      entries.countP Persisted.UnAck < R.toNat := by
  constructor
  · intro always
    rcases load_spec (Outbound.new Version R) entries with ⟨flag, _, quit, _⟩
    let m := Publish.new Version
    let pushed := (load Version R entries).step (.push m)
    have inFlight : pushed.inFlight = entries.countP Persisted.UnAck := by
      rw [← inFlight_load Version R entries]
      simp [pushed, step, load, Window.inFlight, Outbound.qPush, Queued.isUnacknowledged]
    rcases @pops_to_publish pushed m rfl flag quit (by simp [pushed, step, load, Outbound.qPush])
      with ⟨n, window⟩
    have along : Along step Received (load Version R entries)
        (.push m :: List.replicate n .beginPop) := by
      apply along_of_forall
      intro op member s
      rcases List.mem_cons.mp member with rfl | pop
      · trivial
      · rw [List.eq_of_mem_replicate pop]
        trivial
    rw [← inFlight]
    exact always _ along _ window
  · intro few ops along
    exact (along.invariant (Kept R) (fun s op kept received => kept_step kept op received)
      (kept_load Version few)).windows

/-- With Receive Maximum 1 and one QoS 1 packet reloaded, that packet is sent again and a new
PUBLISH after it, without any acknowledgement in between. -/
theorem window_exceeded :
    let m : Publish := { Publish.new ProtocolV50 with mFlags := 2, topic := ascii "a" }
    let entries : List Persisted := [⟨true, none, .publish (m.setPacketID 1)⟩]
    let ops : List Op := [.push m, .beginPop, .beginPop]
    Along step Received (load ProtocolV50 1 entries) ops ∧
      (ops.foldl step (load ProtocolV50 1 entries)).windows = [1] ∧
      ¬∀ window ∈ (ops.foldl step (load ProtocolV50 1 entries)).windows,
        window < (1 : UInt16).toNat := by
  intro m entries ops
  have windows : (ops.foldl step (load ProtocolV50 1 entries)).windows = [1] := rfl
  refine ⟨⟨trivial, trivial, trivial, trivial⟩, windows, ?_⟩
  rw [windows]
  decide

end Window

end VolantMQ.Connection
