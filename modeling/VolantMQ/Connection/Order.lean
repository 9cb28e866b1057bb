import VolantMQ.Connection.Transmitter

/-!
# The order of what is sent

`Connection.WakeUp` counts the buffers of the loop of `txRoutine` and does not look into packets.
Here one goroutine runs the loop on the packets themselves, from its start to its end, and writes
succeed. All other goroutines are free to push packets, to signal, to set the flag `txRunning` and
to close the connection at any point in between. A call of `gPush` is three steps: the change of the
queue, the signal and the compare-and-swap. None of them starts a second transmitter: whoever wins
the compare-and-swap of `txRun` waits for this one to end. Nothing is assumed of the quota, the
identifiers in use and `pubOut`, which acknowledgements change also in the middle of `qPopPacket`.

Beside the connection the state has what was pushed to each queue and what became of each packet
that was taken.
-/

namespace VolantMQ.Connection

open Lib Packet

/-- The packet if it comes from the general queue. -/
def Taken.outgoing : Taken → Option Outgoing
  | general packet => some packet
  | _ => none

/-- What `qPopPacket` returns for an element of `txQMessages`. -/
def Queued.Becomes : Queued → Taken → Prop
  | publish m, .acquired p => ∃ id, p = m.setPacketID id
  | unacknowledged packet, .loaded p => p = packet
  | _, _ => False

/-- The loop looks at a packet that it has taken. -/
structure Fate where
  taken : Taken
  /-- The connection at this moment. -/
  state : Transmitter
  now : Time
  roll : ℕ
  order : MapOrder PropertyEntry

namespace Fate

/-- The packet that is to be encoded. -/
def pkt (fate : Fate) : Option Outgoing := (fate.state.prepare fate.now fate.roll fate.taken).2

/-- What is appended to the send buffers. -/
def buf (fate : Fate) : Option Bytes :=
  let (state, pkt) := fate.state.prepare fate.now fate.roll fate.taken
  state.toWrite fate.order pkt

def Expired (fate : Fate) : Prop :=
  ∃ p, fate.taken.packet = .provider (.publish p) ∧ p.expired fate.now = true

def Oversized (fate : Fate) : Prop :=
  ∃ pkt sz, fate.pkt = some pkt ∧ pkt.fullSize = .ok sz ∧ fate.state.MaxTxPacketSize.toNat < sz

def Unencodable (fate : Fate) : Prop :=
  ∃ pkt fault, fate.pkt = some pkt ∧ pkt.encode fate.order = .error fault

/-- The packet is appended as it is encoded, or there is a reason why it is not. -/
def Fair (fate : Fate) : Prop :=
  match fate.buf with
  | some buf => ∃ pkt, fate.pkt = some pkt ∧ pkt.encode fate.order = .ok buf
  | none => fate.Expired ∨ fate.Oversized ∨ fate.Unencodable

theorem encode_of_size_error {pkt : Outgoing} {e : PacketError} (failed : pkt.fullSize = .error e)
    (order : MapOrder PropertyEntry) : pkt.encode order = .error (.error e) := by
  cases pkt with
  | control buf => simp [Outgoing.fullSize] at failed
  | provider packet =>
      cases packet with
      | ack packet => simp [Outgoing.fullSize, Provider.fullSize] at failed
      | publish p =>
          have size : p.fullSize = .error e := failed
          simp only [Outgoing.encode, Provider.encode, Publish.encode, size]

theorem expired_of_prepare {fate : Fate} (nothing : fate.pkt = none) : fate.Expired := by
  unfold pkt Transmitter.prepare at nothing
  split at nothing
  · rename_i p isPublish
    have expiry := Transmitter.expiredSet_fst p fate.now
    rcases run : p.expiredSet fate.now with ⟨expired, q⟩
    rw [run] at expiry nothing
    cases expired with
    | true => exact ⟨p, isPublish, expiry.symm⟩
    | false => simp at nothing
  · simp at nothing

theorem fair (fate : Fate) : fate.Fair := by
  have limit := (Transmitter.untouched_prepare fate.state fate.now fate.roll fate.taken).limit
  unfold Fair buf
  cases found : fate.pkt with
  | none =>
      have expired := expired_of_prepare found
      unfold pkt at found
      simp only [found, Transmitter.toWrite]
      exact .inl expired
  | some packet =>
      have same := found
      unfold pkt at same
      simp only [same, Transmitter.toWrite, Transmitter.packetFitsSize, limit]
      cases size : packet.fullSize with
      | error e =>
          simp only [Bool.false_eq_true, if_false]
          exact .inr (.inr ⟨packet, _, found, encode_of_size_error size fate.order⟩)
      | ok sz =>
          by_cases fits : sz ≤ fate.state.MaxTxPacketSize.toNat
          · simp only [fits, decide_true, if_true]
            cases encoded : packet.encode fate.order with
            | error fault => exact .inr (.inr ⟨packet, fault, found, encoded⟩)
            | ok bytes => exact ⟨packet, rfl, encoded⟩
          · simp only [fits, decide_false, Bool.false_eq_true, if_false]
            exact .inr (.inl ⟨packet, sz, found, size, by omega⟩)

end Fate

/-- `qPopPacket` finds the connection closed, and clears the flag `txRunning`. -/
def Outbound.errExit (s : Outbound) : Bool :=
  match s.txQMessages with
  | .publish _ :: _ => !s.txQuotaExceeded && s.flow.quit
  | _ => false

def Outbound.qAvailable (s : Outbound) : Bool := !s.txQuotaExceeded && !s.txQMessages.isEmpty

def Transmitter.gAvailable (s : Transmitter) : Bool := !s.txGMessages.isEmpty

namespace TxLoop

/-- The case of the `select` that looks into the queues. -/
inductive Case where
  | timer
  | available (prevLen : ℕ)

/-- Where the goroutine is in `txRoutine`. -/
inductive Stage where
  /-- Before the condition of the loop; `idle` if it has cleared the flag because it found nothing
  to send. -/
  | loop (idle : Bool)
  | select
  /-- Before `flushBuffers`, after a tick. -/
  | timer
  | gPopPacket (prevLen : ℕ)
  | qPopPacket (prevLen : ℕ)
  /-- Before the next packet, or the end of the loop over the packets. -/
  | encode (prevLen : ℕ)
  | qAvailable (case_ : Case)
  | gAvailable (case_ : Case)
  /-- Before `txSignalAvailable`. -/
  | signal (case_ : Case)
  /-- Before `txTimer.Reset`. -/
  | reset
  /-- Before `txTimer.Stop` and `flushBuffers`. -/
  | flush (available : Bool)
  /-- Before `txRunning` is set to zero. -/
  | store
  | done (idle : Bool)

/-- The channel that the `select` receives from. -/
inductive Channel where
  | quit
  | txTimer
  | txAvailable

/-- What is left open about a step of the goroutine. -/
structure Choice where
  channel : Channel
  now : Time
  roll : ℕ
  order : MapOrder PropertyEntry

/-- What can happen next. -/
inductive Op where
  | gPush (pkt : Outgoing)
  | qPush (pkt : Queued)
  /-- A handler of an incoming packet changes what it shares with the goroutine. -/
  | handle (flow : Flow) (txQuotaExceeded : Bool) (pubOut : AckQueue Provider)
  /-- Somebody sends on `txAvailable`, in `txSignalAvailable`. -/
  | signal
  /-- Somebody gets to the compare-and-swap of `txRun`. -/
  | swap
  | transmit (choice : Choice)
  /-- `txTimer` fires. -/
  | fire
  | close
  /-- `txShutdown`, which then waits for the goroutine. -/
  | txShutdown

end TxLoop

/-- A connection with the goroutine that runs `txRoutine`. -/
structure TxLoop where
  tx : Transmitter
  /-- The channel of this name is full. -/
  txAvailable : Bool
  txRunning : ℕ
  /-- `txTimer` is running. -/
  armed : Bool
  /-- The channel of `txTimer` is full. -/
  tick : Bool
  stage : TxLoop.Stage
  /-- What was in the general queue at first, and was pushed to it since. -/
  gPushed : List Outgoing
  qPushed : List Queued
  /-- What became of each packet that was taken, in order. -/
  log : List Fate

namespace TxLoop

/-- The end of a case. -/
def Case.next (available : Bool) (sendBuffers : ℕ) : Case → Stage
  | timer => if available then .loop false else .store
  | Case.available prevLen =>
      if prevLen = 0 then .reset
      else if 5 ≤ sendBuffers then .flush available
      else .loop false

def select (s : TxLoop) : Channel → TxLoop
  | .quit =>
      if s.tx.out.flow.quit then { s with txRunning := 0, stage := .done false } else s
  | .txTimer => if s.tick then { s with tick := false, stage := .timer } else s
  | .txAvailable =>
      if s.txAvailable then
        { s with txAvailable := false, stage := .gPopPacket s.tx.sendBuffers.length }
      else s

/-- The goroutine goes on. -/
def transmit (s : TxLoop) (choice : Choice) : TxLoop :=
  match s.stage with
  | .loop idle => { s with stage := if s.txRunning = 1 then .select else .done idle }
  | .select => s.select choice.channel
  | .timer => { s with tx := s.tx.step .flushBuffers, stage := .qAvailable .timer }
  | .gPopPacket prevLen => { s with tx := s.tx.gPopPacket, stage := .qPopPacket prevLen }
  | .qPopPacket prevLen =>
      { s with
        tx := s.tx.qPopPacket
        txRunning := if s.tx.out.errExit then 0 else s.txRunning
        stage := .encode prevLen }
  | .encode prevLen =>
      match s.tx.packets with
      | [] => { s with stage := .qAvailable (.available prevLen) }
      | taken :: _ =>
          { s with
            tx := s.tx.step (.send choice.now choice.roll choice.order)
            log := s.log ++ [⟨taken, s.tx, choice.now, choice.roll, choice.order⟩] }
  | .qAvailable case_ =>
      { s with stage := if s.tx.out.qAvailable then .signal case_ else .gAvailable case_ }
  | .gAvailable case_ =>
      { s with
        stage :=
          if s.tx.gAvailable then .signal case_
          else case_.next false s.tx.sendBuffers.length }
  | .signal case_ =>
      { s with
        txAvailable := s.txAvailable || !s.tx.out.flow.quit
        stage := case_.next true s.tx.sendBuffers.length }
  | .reset => { s with armed := true, stage := .loop false }
  | .flush available =>
      { s with
        tx := s.tx.step .flushBuffers
        armed := false
        stage := if available then .loop false else .store }
  | .store => { s with txRunning := 0, stage := .loop true }
  | .done _ => s

/-- One step. -/
def step (s : TxLoop) : Op → TxLoop
  | .gPush pkt => { s with tx := s.tx.step (.gPush pkt), gPushed := s.gPushed ++ [pkt] }
  | .qPush pkt =>
      { s with
        tx := { s.tx with out := s.tx.out.qPush pkt }
        qPushed := s.qPushed ++ [pkt] }
  | .handle flow txQuotaExceeded pubOut =>
      let flow := { flow with quit := s.tx.out.flow.quit }
      { s with tx := { s.tx with out := { s.tx.out with flow, txQuotaExceeded, pubOut } } }
  | .signal => { s with txAvailable := true }
  | .swap => if s.txRunning = 0 then { s with txRunning := 1 } else s
  | .transmit choice => s.transmit choice
  | .fire => if s.armed then { s with armed := false, tick := true } else s
  | .close => { s with tx := s.tx.step .close }
  | .txShutdown => { s with txRunning := 2, armed := false }

/-- The goroutine starts on a connection that may have sent packets before. -/
def start (tx : Transmitter) (txAvailable : Bool) (txRunning : ℕ) (armed tick : Bool) : TxLoop :=
  { tx := { tx with packets := [], sendBuffers := [] }
    txAvailable, txRunning, armed, tick
    stage := .loop false
    gPushed := tx.txGMessages
    qPushed := tx.out.txQMessages
    log := [] }

/-- The packets taken so far, in order. -/
def taken (s : TxLoop) : List Taken := s.log.map Fate.taken ++ s.tx.packets

/-- From each queue the packets are taken in the order they were pushed, each once. The buffers
written and those to be written are those of the packets taken, in the order they were taken, each
once, and a packet without a buffer has expired, is too large or cannot be encoded. -/
structure Ordered (old : List Bytes) (s : TxLoop) : Prop where
  general : s.gPushed = s.taken.filterMap Taken.outgoing ++ s.tx.txGMessages
  queued : ∃ front, s.qPushed = front ++ s.tx.out.txQMessages ∧
    List.Forall₂ Queued.Becomes front (s.taken.filter Taken.isStored)
  appended : s.tx.written ++ s.tx.sendBuffers = old ++ s.log.filterMap Fate.buf
  fair : ∀ fate ∈ s.log, fate.Fair

/-- When the goroutine has stopped because it found nothing to send, it has looked at every packet
that it took, and nothing is left to be written. -/
def Flushed (s : TxLoop) : Prop :=
  s.stage = .done true → s.tx.packets = [] ∧ s.tx.sendBuffers = []

end TxLoop

namespace Transmitter

/-- The queues and the buffers are left alone. -/
structure Kept (s next : Transmitter) : Prop where
  general : next.txGMessages = s.txGMessages
  queued : next.out.txQMessages = s.out.txQMessages
  sendBuffers : next.sendBuffers = s.sendBuffers
  written : next.written = s.written

theorem kept_prepare (s : Transmitter) (now : Time) (roll : ℕ) (taken : Taken) :
    Kept s (s.prepare now roll taken).1 := by
  rcases prepare_fst s now roll taken with ⟨last, pubOut, same⟩
  rw [same]
  exact ⟨rfl, rfl, rfl, rfl⟩

/-- The loop looks at the next packet. -/
theorem step_send {s : Transmitter} {taken : Taken} {rest : List Taken}
    (front : s.packets = taken :: rest) (now : Time) (roll : ℕ) (order : MapOrder PropertyEntry) :
    let next := s.step (.send now roll order)
    next.txGMessages = s.txGMessages ∧ next.out.txQMessages = s.out.txQMessages ∧
      next.packets = rest ∧ next.written = s.written ∧
      next.sendBuffers = s.sendBuffers ++ (Fate.buf ⟨taken, s, now, roll, order⟩).toList := by
  have kept := kept_prepare s now roll taken
  have accounted : ∀ (before after : Transmitter) (appended : Bool),
      (account before after appended taken).packets = after.packets ∧
        Kept after (account before after appended taken) := by
    intro before after appended
    cases taken <;> exact ⟨rfl, rfl, rfl, rfl, rfl⟩
  have sent : Kept { (s.prepare now roll taken).1 with
      sendBuffers := s.sendBuffers ++ (Fate.buf ⟨taken, s, now, roll, order⟩).toList }
      (s.sendPacket now roll order taken).1 := by
    unfold sendPacket Fate.buf
    simp only
    split
    · rename_i buf found
      simp only [found, Option.toList_some]
      exact ⟨rfl, rfl, by rw [kept.sendBuffers], rfl⟩
    · rename_i found
      simp only [found, Option.toList_none, List.append_nil]
      exact ⟨rfl, rfl, kept.sendBuffers, rfl⟩
  simp only [step, front]
  rcases accounted s { (s.sendPacket now roll order taken).1 with packets := rest }
    (s.sendPacket now roll order taken).2 with ⟨packets, same⟩
  refine ⟨?_, ?_, packets, ?_, ?_⟩
  · exact same.general.trans (sent.general.trans kept.general)
  · exact same.queued.trans (sent.queued.trans kept.queued)
  · exact same.written.trans (sent.written.trans kept.written)
  · exact same.sendBuffers.trans sent.sendBuffers

theorem gPopPacket_cases (s : Transmitter) :
    s.gPopPacket = s ∨ ∃ pkt rest, s.txGMessages = pkt :: rest ∧
      s.gPopPacket = { s with txGMessages := rest, packets := s.packets ++ [.general pkt] } := by
  unfold gPopPacket
  cases queue : s.txGMessages with
  | nil => exact .inl rfl
  | cons pkt rest => exact .inr ⟨pkt, rest, rfl, rfl⟩

/-- What is taken from the queue of packets of QoS 1 and 2 is its first element. -/
theorem qPopPacket_front (s : Transmitter) :
    (∃ flow, s.qPopPacket = { s with out := { s.out with flow } }) ∨
      ∃ pkt rest taken out backed, s.out.txQMessages = pkt :: rest ∧ out.txQMessages = rest ∧
        pkt.Becomes taken ∧
        s.qPopPacket = { s with out, packets := s.packets ++ [taken], backed } := by
  unfold qPopPacket Outbound.qPopPacket
  cases quota : s.out.txQuotaExceeded with
  | true => exact .inl ⟨s.out.flow, by simp [← quota]⟩
  | false =>
      cases queue : s.out.txQMessages with
      | nil => exact .inl ⟨s.out.flow, by simp [← quota, ← queue]⟩
      | cons pkt rest =>
          cases pkt with
          | unacknowledged packet =>
              exact .inr ⟨_, rest, .loaded packet, _, _, rfl, rfl, rfl, rfl⟩
          | publish m =>
              rcases acquired : s.out.flow.flowAcquire with ⟨flow, outcome⟩
              cases outcome with
              | exit => exact .inl ⟨flow, by simp [quota, queue]⟩
              | granted id exceeded =>
                  exact .inr ⟨_, rest, .acquired (m.setPacketID id), _, _, rfl, rfl, ⟨id, rfl⟩, rfl⟩

end Transmitter

namespace TxLoop

/-- Packets may be taken and not looked at. -/
def Stage.Holding : Stage → Prop
  | qPopPacket _ | encode _ => True
  | _ => False

/-- The send buffers have been flushed since a packet was last looked at. -/
def Stage.Clear : Stage → Prop
  | qAvailable .timer | gAvailable .timer | signal .timer | store | loop true | done true => True
  | _ => False

/-- The `select` waits, or receives and goes on to a stage where nothing has been flushed. -/
theorem select_cases (s : TxLoop) (channel : Channel) :
    s.select channel = s ∨ ∃ txAvailable txRunning tick stage, ¬stage.Clear ∧
      s.select channel = { s with txAvailable, txRunning, tick, stage } := by
  unfold select
  split
  · split
    · exact .inr ⟨_, _, _, _, id, rfl⟩
    · exact .inl rfl
  · split
    · exact .inr ⟨_, _, _, _, id, rfl⟩
    · exact .inl rfl
  · split
    · exact .inr ⟨_, _, _, _, id, rfl⟩
    · exact .inl rfl

section Steps

variable {s : TxLoop} {old : List Bytes}

/-- The order does not depend on where the goroutine is. -/
theorem Ordered.moved (ordered : s.Ordered old) (txAvailable : Bool) (txRunning : ℕ)
    (armed tick : Bool) (stage : Stage) :
    ({ s with txAvailable, txRunning, armed, tick, stage } : TxLoop).Ordered old :=
  ⟨ordered.general, ordered.queued, ordered.appended, ordered.fair⟩

theorem Ordered.gPush (ordered : s.Ordered old) (pkt : Outgoing) :
    (s.step (.gPush pkt)).Ordered old := by
  refine ⟨?_, ordered.queued, ordered.appended, ordered.fair⟩
  change s.gPushed ++ [pkt] = s.taken.filterMap Taken.outgoing ++ (s.tx.txGMessages ++ [pkt])
  rw [ordered.general, List.append_assoc]

theorem Ordered.qPush (ordered : s.Ordered old) (pkt : Queued) :
    (s.step (.qPush pkt)).Ordered old := by
  rcases ordered.queued with ⟨front, pushed, becomes⟩
  refine ⟨ordered.general, ⟨front, ?_, becomes⟩, ordered.appended, ordered.fair⟩
  change s.qPushed ++ [pkt] = front ++ (s.tx.out.txQMessages ++ [pkt])
  rw [pushed, List.append_assoc]

theorem Ordered.flush (ordered : s.Ordered old) :
    ({ s with tx := s.tx.step .flushBuffers } : TxLoop).Ordered old := by
  refine ⟨ordered.general, ordered.queued, ?_, ordered.fair⟩
  change (s.tx.written ++ s.tx.sendBuffers) ++ [] = old ++ s.log.filterMap Fate.buf
  rw [List.append_nil, ordered.appended]

/-- The packet goes from the front of the queue to the end of those taken. -/
theorem Ordered.gPop (ordered : s.Ordered old) :
    ({ s with tx := s.tx.gPopPacket } : TxLoop).Ordered old := by
  rcases s.tx.gPopPacket_cases with same | ⟨pkt, rest, queue, popped⟩
  · rw [same]
    exact ordered
  · rw [popped]
    have grown : ({ s with tx := { s.tx with
        txGMessages := rest, packets := s.tx.packets ++ [.general pkt] } } : TxLoop).taken =
          s.taken ++ [.general pkt] := (List.append_assoc _ _ _).symm
    refine ⟨?_, ?_, ordered.appended, ordered.fair⟩
    · have pushed := ordered.general
      rw [queue] at pushed
      rw [grown, List.filterMap_append, List.append_assoc]
      exact pushed
    · rw [grown, List.filter_append]
      simpa [Taken.isStored] using ordered.queued

theorem Ordered.qPop (ordered : s.Ordered old) :
    ({ s with tx := s.tx.qPopPacket } : TxLoop).Ordered old := by
  rcases s.tx.qPopPacket_front with ⟨flow, same⟩ |
    ⟨pkt, rest, next, out, backed, queue, remaining, becomes, popped⟩
  · rw [same]
    exact ⟨ordered.general, ordered.queued, ordered.appended, ordered.fair⟩
  · rw [popped]
    have grown : ({ s with tx := { s.tx with
        out, packets := s.tx.packets ++ [next], backed } } : TxLoop).taken = s.taken ++ [next] :=
      (List.append_assoc _ _ _).symm
    have stored : next.isStored = true ∧ next.outgoing = none := by
      cases next with
      | general packet => cases pkt <;> exact becomes.elim
      | loaded packet => exact ⟨rfl, rfl⟩
      | acquired packet => exact ⟨rfl, rfl⟩
    refine ⟨?_, ?_, ordered.appended, ordered.fair⟩
    · rw [grown, List.filterMap_append]
      simpa [stored.2] using ordered.general
    · rcases ordered.queued with ⟨front, pushed, before⟩
      refine ⟨front ++ [pkt], ?_, ?_⟩
      · rw [pushed, queue, remaining, List.append_assoc, List.singleton_append]
      · rw [grown, List.filter_append, List.filter_singleton, stored.1]
        exact List.rel_append before (.cons becomes .nil)

/-- The packet goes from those taken to the log, and its buffer to the send buffers. -/
theorem Ordered.send (ordered : s.Ordered old) {first : Taken} {rest : List Taken}
    (front : s.tx.packets = first :: rest) (now : Time) (roll : ℕ)
    (order : MapOrder PropertyEntry) :
    ({ s with
        tx := s.tx.step (.send now roll order)
        log := s.log ++ [⟨first, s.tx, now, roll, order⟩] } : TxLoop).Ordered old := by
  rcases Transmitter.step_send front now roll order with
    ⟨general, queued, packets, written, sendBuffers⟩
  have same : ({ s with
      tx := s.tx.step (.send now roll order)
      log := s.log ++ [⟨first, s.tx, now, roll, order⟩] } : TxLoop).taken = s.taken := by
    simp only [taken, packets, front, List.map_append, List.append_assoc]
    rfl
  refine ⟨?_, ?_, ?_, fun fate _ => fate.fair⟩
  · rw [same, general]
    exact ordered.general
  · rw [same, queued]
    exact ordered.queued
  · rw [written, sendBuffers, ← List.append_assoc, ordered.appended, List.filterMap_append,
      List.append_assoc]
    cases buf : Fate.buf ⟨first, s.tx, now, roll, order⟩ with
    | none => simp [buf]
    | some bytes => simp [buf]

theorem Ordered.transmit (ordered : s.Ordered old) (choice : Choice) :
    (s.transmit choice).Ordered old := by
  unfold TxLoop.transmit
  split
  · exact ordered.moved _ _ _ _ _
  · rcases s.select_cases choice.channel with same | ⟨txAvailable, txRunning, tick, stage, -, next⟩
    · rw [same]
      exact ordered
    · rw [next]
      exact ordered.moved txAvailable txRunning s.armed tick stage
  · exact ordered.flush.moved _ _ _ _ _
  · exact ordered.gPop.moved _ _ _ _ _
  · exact ordered.qPop.moved _ _ _ _ _
  · split
    · exact ordered.moved _ _ _ _ _
    · rename_i first rest front
      exact ordered.send front choice.now choice.roll choice.order
  · exact ordered.moved _ _ _ _ _
  · exact ordered.moved _ _ _ _ _
  · exact ordered.moved _ _ _ _ _
  · exact ordered.moved _ _ _ _ _
  · exact ordered.flush.moved _ _ _ _ _
  · exact ordered.moved _ _ _ _ _
  · exact ordered

theorem Ordered.step (ordered : s.Ordered old) (op : Op) : (s.step op).Ordered old := by
  cases op with
  | gPush pkt => exact ordered.gPush pkt
  | qPush pkt => exact ordered.qPush pkt
  | handle flow txQuotaExceeded pubOut =>
      exact ⟨ordered.general, ordered.queued, ordered.appended, ordered.fair⟩
  | signal => exact ordered.moved _ _ _ _ _
  | swap =>
      unfold TxLoop.step
      dsimp only
      split
      · exact ordered.moved _ _ _ _ _
      · exact ordered
  | transmit choice => exact ordered.transmit choice
  | fire =>
      unfold TxLoop.step
      dsimp only
      split
      · exact ordered.moved _ _ _ _ _
      · exact ordered
  | close => exact ⟨ordered.general, ordered.queued, ordered.appended, ordered.fair⟩
  | txShutdown => exact ordered.moved _ _ _ _ _

end Steps

structure Held (s : TxLoop) : Prop where
  packets : ¬s.stage.Holding → s.tx.packets = []
  sendBuffers : s.stage.Clear → s.tx.sendBuffers = []

theorem eq_timer_of_clear_next {available : Bool} {n : ℕ} {case_ : Case}
    (clear : (case_.next available n).Clear) : case_ = .timer := by
  cases case_ with
  | timer => rfl
  | available prevLen =>
      unfold Case.next at clear
      dsimp only at clear
      split at clear
      · exact clear.elim
      · split at clear <;> exact clear.elim

section Held

variable {s : TxLoop}

/-- The goroutine goes on without a look at a packet. -/
theorem Held.moved {next : TxLoop} {before : Stage} (held : s.Held) (here : s.stage = before)
    (free : ¬before.Holding) (packets : next.tx.packets = s.tx.packets)
    (sendBuffers : next.tx.sendBuffers = s.tx.sendBuffers)
    (clear : next.stage.Clear → before.Clear) : next.Held := by
  subst here
  constructor
  · intro _
    rw [packets]
    exact held.packets free
  · intro after
    rw [sendBuffers]
    exact held.sendBuffers (clear after)

/-- Others leave the goroutine where it is. -/
theorem Held.others {next : TxLoop} (held : s.Held) (packets : next.tx.packets = s.tx.packets)
    (sendBuffers : next.tx.sendBuffers = s.tx.sendBuffers) (stage : next.stage = s.stage) :
    next.Held := by
  constructor
  · rw [packets, stage]
    exact held.packets
  · rw [sendBuffers, stage]
    exact held.sendBuffers

theorem Held.flush {before : Stage} (held : s.Held) (here : s.stage = before)
    (free : ¬before.Holding) (armed : Bool) (stage : Stage) :
    ({ s with tx := s.tx.step .flushBuffers, armed, stage } : TxLoop).Held := by
  subst here
  exact ⟨fun _ => held.packets free, fun _ => rfl⟩

theorem Held.select (held : s.Held) (here : s.stage = .select) (channel : Channel) :
    (s.select channel).Held := by
  rcases s.select_cases channel with same | ⟨txAvailable, txRunning, tick, stage, busy, next⟩
  · rw [same]
    exact held
  · rw [next]
    exact held.moved here id rfl rfl fun clear => absurd clear busy

theorem Held.transmit (held : s.Held) (choice : Choice) : (s.transmit choice).Held := by
  unfold TxLoop.transmit
  split
  · rename_i idle here
    refine held.moved here id rfl rfl ?_
    dsimp only
    split
    · exact False.elim
    · cases idle <;> exact id
  · rename_i here
    exact held.select here choice.channel
  · rename_i here
    exact held.flush here id _ _
  · exact ⟨fun free => absurd trivial free, False.elim⟩
  · exact ⟨fun free => absurd trivial free, False.elim⟩
  · rename_i prevLen here
    split
    · rename_i nothing
      exact ⟨fun _ => nothing, False.elim⟩
    · -- more packets may follow, so the stage stays
      constructor
      · intro free
        dsimp only at free
        rw [here] at free
        exact absurd trivial free
      · intro clear
        dsimp only at clear
        rw [here] at clear
        exact clear.elim
  · rename_i case_ here
    refine held.moved here id rfl rfl ?_
    dsimp only
    split
    · cases case_ <;> exact id
    · cases case_ <;> exact id
  · rename_i case_ here
    refine held.moved here id rfl rfl ?_
    dsimp only
    split
    · cases case_ <;> exact id
    · intro clear
      rw [eq_timer_of_clear_next clear]
      trivial
  · rename_i case_ here
    refine held.moved here id rfl rfl ?_
    intro clear
    rw [eq_timer_of_clear_next clear]
    trivial
  · rename_i here
    exact held.moved here id rfl rfl False.elim
  · rename_i available here
    exact held.flush here id _ _
  · rename_i here
    exact held.moved here id rfl rfl id
  · exact held

theorem Held.step (held : s.Held) (op : Op) : (s.step op).Held := by
  cases op with
  | transmit choice => exact held.transmit choice
  | swap =>
      unfold TxLoop.step
      dsimp only
      split
      · exact held.others rfl rfl rfl
      · exact held
  | fire =>
      unfold TxLoop.step
      dsimp only
      split
      · exact held.others rfl rfl rfl
      · exact held
  | _ => exact held.others rfl rfl rfl

end Held

/-- In every run of the goroutine on any connection, whatever others do and however its packets are
batched. -/
theorem ordered_run (tx : Transmitter) (txAvailable : Bool) (txRunning : ℕ) (armed tick : Bool)
    (ops : List Op) :
    let s := ops.foldl step (start tx txAvailable txRunning armed tick)
    s.Ordered tx.written ∧ s.Flushed := by
  have ordered : (start tx txAvailable txRunning armed tick).Ordered tx.written :=
    ⟨rfl, ⟨[], rfl, .nil⟩, rfl, fun fate _ => fate.fair⟩
  have held : (start tx txAvailable txRunning armed tick).Held := ⟨fun _ => rfl, False.elim⟩
  have both := invariant_run (fun s : TxLoop => s.Ordered tx.written ∧ s.Held)
    (fun s op inv => ⟨inv.1.step op, inv.2.step op⟩) ⟨ordered, held⟩ ops
  refine ⟨both.1, fun idle => ⟨both.2.packets ?_, both.2.sendBuffers ?_⟩⟩
  · rw [idle]
    exact id
  · rw [idle]
    trivial

def sampleGo (channel : Channel) : Op := .transmit ⟨channel, 0, 0, .insertion _⟩

/-- A packet is pushed and taken, the timer fires, and the goroutine finds nothing more to send. -/
def sampleRun : List Op :=
  [.gPush (.control [1])] ++ List.replicate 9 (sampleGo .txAvailable) ++
    [.fire] ++ List.replicate 7 (sampleGo .txTimer)

example :
    let s := sampleRun.foldl step (start (.load ProtocolV311 1 9 0 []) true 1 false false)
    (s.stage, s.tx.written) = (.done true, [[1]]) := by
  simp only [sampleRun]
  rfl

end TxLoop

end VolantMQ.Connection
