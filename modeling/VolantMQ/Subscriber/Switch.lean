import Mathlib.Data.List.Perm.Basic
import VolantMQ.Lib.Run
import VolantMQ.Packet.Property

/-!
# Going online and offline

A persistent subscriber gives the packets published to it to its connection while it is online, and
to the persistence backend while it is offline. To go online, a connection first collects what is
published in a list, loads what is stored, redirects publications to its queue, adds the list to the
queue, and then deletes what was stored. To go offline, it closes the channel, waits for the
publications under way, and stores its queue and behind it what was sent and is not acknowledged.

A publication that has looked at the channel is not under way yet for either of them. What becomes
of it depends on how far they are when it goes on.

The packets here are of QoS 1 or 2, can be encoded and do not expire, and the publisher of the
topics gives them to the subscriber one after another. A message that the client has answered with
PUBACK or PUBREC is done with; the PUBREL that takes its place in `pubOut` is no message.
-/

namespace VolantMQ.Subscriber

open Lib

open Packet (MapOrder)

/-- A message in the queue or in the backend, and whether it was sent before. -/
structure Entry (α : Type) where
  UnAck : Bool
  packet : α
  deriving DecidableEq, Repr

namespace Entry

variable {α : Type}

def fresh (packet : α) : Entry α := ⟨false, packet⟩

def again (packet : α) : Entry α := ⟨true, packet⟩

end Entry

/-- What the broker uses of the persistence backend for the packets of one session. -/
structure Backend (α : Type) where
  State : Type
  PacketStore : State → Entry α → State
  PacketsStore : State → List (Entry α) → State
  /-- The packets in the order in which they are visited. -/
  PacketsForEach : State → List (Entry α)
  Delete : State → State
  packetStore_last : ∀ storage entry,
    PacketsForEach (PacketStore storage entry) = PacketsForEach storage ++ [entry]
  packetsStore_last : ∀ storage packets,
    PacketsForEach (PacketsStore storage packets) = PacketsForEach storage ++ packets
  delete_all : ∀ storage, PacketsForEach (Delete storage) = []

/-- The values of `publishOnline`, with the number of the connection they belong to. -/
inductive Callback where
  /-- The function in `New` that puts packets into the list. -/
  | subscribedPublish (conn : ℕ)
  | onSubscribedPublish (conn : ℕ)
  deriving DecidableEq, Repr

/-- Where the session is. -/
inductive Phase (α : Type) where
  | offline
  /-- In `Online`, behind `wgOffline.Wait`. -/
  | waited
  /-- In `Online`, with the lock, between the two assignments. -/
  | assigned
  /-- Before `loadPersistence`. -/
  | opened
  /-- Before `OnlineRedirect`. -/
  | loaded
  /-- Before `qLoadList`. -/
  | redirected
  /-- Before `persistence.Delete`. -/
  | merged
  | online
  /-- In `Offline`, behind `close`. -/
  | closed
  /-- In `Offline`, with the lock, before `wgOnline.Wait`. -/
  | locked
  /-- Before `persist`. -/
  | drained
  /-- In `persist`, before `PacketsStore`. -/
  | collected (packets : List (Entry α))
  deriving DecidableEq, Repr

/-- Where the publisher is in `Publish`. -/
inductive Publisher (α : Type) where
  | idle
  /-- It has found the channel closed. -/
  | offline (pkt : α)
  /-- Behind `wgOffline.Add`. -/
  | storing (pkt : α)
  | stored
  /-- It has found the channel open. -/
  | online (pkt : α)
  /-- Behind `wgOnline.Add`. -/
  | reading (pkt : α)
  /-- It has read `publishOnline`. -/
  | calling (pkt : α) (callback : Callback)
  | called
  deriving DecidableEq, Repr

/-- A subscriber with its connection and its publisher. -/
structure Switch {α : Type} (backend : Backend α) where
  /-- All packets that were given to `Publish` so far. -/
  published : List α
  /-- The packets that were sent, in the order of their first time. -/
  sent : List α
  /-- The packets that the client has acknowledged. -/
  acked : List α
  storage : backend.State
  /-- The channel of this name is open. -/
  isOnline : Bool
  publishOnline : Option Callback
  /-- The number of connections so far. -/
  conn : ℕ
  /-- The list in `New` of the last connection. -/
  qList : List α
  /-- The queue of the last connection. -/
  txQMessages : List (Entry α)
  /-- What the last connection has sent and is not acknowledged, in the order of sending. -/
  pubOut : List α
  phase : Phase α
  publisher : Publisher α

namespace Switch

variable {α : Type} {backend : Backend α}

def stored (s : Switch backend) : List (Entry α) := backend.PacketsForEach s.storage

/-- Somebody else has `publishLock`. -/
def writing (s : Switch backend) : Bool :=
  match s.phase with
  | .assigned | .locked => true
  | _ => false

/-- The count of `wgOffline` is not zero. -/
def busyOffline (s : Switch backend) : Bool :=
  match s.publisher with
  | .storing _ | .stored => true
  | _ => false

/-- The count of `wgOnline` is not zero. -/
def busyOnline (s : Switch backend) : Bool :=
  match s.publisher with
  | .reading _ | .calling _ _ | .called => true
  | _ => false

/-- `Publish` is called, and looks at the channel. -/
def publish (s : Switch backend) (pkt : α) : Switch backend :=
  match s.publisher with
  | .idle =>
      { s with
        published := s.published ++ [pkt]
        publisher := if s.isOnline then .online pkt else .offline pkt }
  | _ => s

/-- A callback is called. That of an older connection has no effect on the last one. -/
def call (s : Switch backend) (pkt : α) : Callback → Switch backend
  | .subscribedPublish conn =>
      if conn = s.conn then { s with qList := s.qList ++ [pkt] } else s
  | .onSubscribedPublish conn =>
      if conn = s.conn then { s with txQMessages := s.txQMessages ++ [.fresh pkt] } else s

/-- `Publish` goes on. -/
def proceed (s : Switch backend) : Switch backend :=
  match s.publisher with
  | .idle => s
  | .offline pkt => if s.writing then s else { s with publisher := .storing pkt }
  | .storing pkt =>
      { s with storage := backend.PacketStore s.storage (.fresh pkt), publisher := .stored }
  | .stored => { s with publisher := .idle }
  | .online pkt => if s.writing then s else { s with publisher := .reading pkt }
  | .reading pkt =>
      match s.publishOnline with
      | some callback => { s with publisher := .calling pkt callback }
      | none => s
  | .calling pkt callback => { s.call pkt callback with publisher := .called }
  | .called => { s with publisher := .idle }

/-- The session goes on: a connection is made, or closed; `persist` goes through `pubOut` in any
order. -/
def control (s : Switch backend) (order : MapOrder α) : Switch backend :=
  match s.phase with
  | .offline =>
      if s.busyOffline then s
      else
        { s with
          phase := .waited
          conn := s.conn + 1
          qList := []
          txQMessages := []
          pubOut := [] }
  | .waited =>
      { s with phase := .assigned, publishOnline := some (.subscribedPublish s.conn) }
  | .assigned => { s with phase := .opened, isOnline := true }
  | .opened => { s with phase := .loaded, txQMessages := s.txQMessages ++ s.stored }
  | .loaded =>
      { s with phase := .redirected, publishOnline := some (.onSubscribedPublish s.conn) }
  | .redirected => { s with phase := .merged, txQMessages := s.txQMessages ++ s.qList.map .fresh }
  | .merged => { s with phase := .online, storage := backend.Delete s.storage }
  | .online => { s with phase := .closed, isOnline := false }
  | .closed => { s with phase := .locked }
  | .locked => if s.busyOnline then s else { s with phase := .drained }
  | .drained =>
      { s with
        phase := .collected (s.txQMessages ++ (order.range s.pubOut).map .again)
        txQMessages := [] }
  | .collected packets =>
      { s with phase := .offline, storage := backend.PacketsStore s.storage packets }

/-- The transmitter runs. The first push starts it. -/
def transmits (s : Switch backend) : Bool :=
  match s.phase with
  | .redirected | .merged | .online => true
  | _ => false

/-- The transmitter sends the first packet. -/
def transmit (s : Switch backend) : Switch backend :=
  if s.transmits then
    match s.txQMessages with
    | [] => s
    | entry :: rest =>
        { s with
          sent := if entry.UnAck then s.sent else s.sent ++ [entry.packet]
          txQMessages := rest
          pubOut := s.pubOut ++ [entry.packet] }
  else s

/-- The receiver runs. It is started with the connection, and stopped before `persist`. -/
def receives (s : Switch backend) : Bool :=
  match s.phase with
  | .online | .closed | .locked | .drained => true
  | _ => false

/-- The client acknowledges a packet. -/
def acknowledge (s : Switch backend) (i : ℕ) : Switch backend :=
  if s.receives then
    match s.pubOut[i]? with
    | none => s
    | some pkt => { s with acked := s.acked ++ [pkt], pubOut := s.pubOut.eraseIdx i }
  else s

/-- What can happen next. -/
inductive Op (α : Type) where
  | publish (pkt : α)
  | proceed
  | control (order : MapOrder α)
  | transmit
  | acknowledge (i : ℕ)

def step (s : Switch backend) : Op α → Switch backend
  | .publish pkt => s.publish pkt
  | .proceed => s.proceed
  | .control order => s.control order
  | .transmit => s.transmit
  | .acknowledge i => s.acknowledge i

/-- A subscriber that is offline. -/
def new (storage : backend.State) : Switch backend :=
  { published := []
    sent := ((backend.PacketsForEach storage).filter Entry.UnAck).map Entry.packet
    acked := []
    storage
    isOnline := false
    publishOnline := none
    conn := 0
    qList := []
    txQMessages := []
    pubOut := []
    phase := .offline
    publisher := .idle }

/-- A packet can be stored: not between the time the backend is read and the time it is emptied, and
not after a packet was put into the list before the backend was read. -/
def MayStore (s : Switch backend) : Prop :=
  match s.phase with
  | .waited | .assigned | .opened => s.qList = []
  | .loaded | .redirected | .merged => False
  | _ => True

/-- A packet can be put into the list: before the list is added to the queue. -/
def MayCollect (s : Switch backend) : Prop :=
  match s.phase with
  | .assigned | .opened | .loaded | .redirected => True
  | _ => False

/-- A packet can be put into the queue: after the list, before the queue is stored, and with nothing
in the backend that was stored in the meantime. -/
def MayPush (s : Switch backend) : Prop :=
  match s.phase with
  | .redirected => s.qList = []
  | .merged => True
  | .online | .closed | .locked | .drained => s.stored = []
  | _ => False

/-- Publications that have looked at the channel go on in time; and when a connection stores what
it has, either everything that it has sent is acknowledged, or its queue is empty and `persist` goes
through `pubOut` in the order of sending. -/
def Timely (s : Switch backend) : Op α → Prop
  | .proceed =>
      match s.publisher with
      | .storing _ => s.MayStore
      | .calling _ (.subscribedPublish conn) => conn = s.conn ∧ s.MayCollect
      | .calling _ (.onSubscribedPublish conn) => conn = s.conn ∧ s.MayPush
      | _ => True
  | .control order =>
      match s.phase with
      | .drained => s.pubOut = [] ∨ s.txQMessages = [] ∧ order.range s.pubOut = s.pubOut
      | .collected packets => packets = [] ∨ s.stored = []
      | _ => True
  | _ => True

/-- The messages that are not lost and not acknowledged, in the order in which they are going to be
sent. What is stored does not count between the time it is read and the time it is deleted. -/
def line (s : Switch backend) : List (Entry α) :=
  match s.phase with
  | .offline => s.stored
  | .waited | .assigned | .opened => s.stored ++ s.qList.map .fresh
  | .loaded | .redirected => s.pubOut.map .again ++ (s.txQMessages ++ s.qList.map .fresh)
  | .merged => s.pubOut.map .again ++ s.txQMessages
  | .online | .closed | .locked | .drained => s.pubOut.map .again ++ (s.txQMessages ++ s.stored)
  | .collected packets => packets ++ s.stored

/-- The packet that the publisher has not put anywhere yet. -/
def underway (s : Switch backend) : List α :=
  match s.publisher with
  | .offline pkt | .storing pkt | .online pkt | .reading pkt | .calling pkt _ => [pkt]
  | .idle | .stored | .called => []

/-- There is no connection, or it has not loaded anything yet. -/
def unloaded (s : Switch backend) : Prop :=
  match s.phase with
  | .offline | .waited | .assigned | .opened | .collected _ => True
  | _ => False

/-- There is a connection, and it cannot have sent anything yet. -/
def unsent (s : Switch backend) : Prop :=
  match s.phase with
  | .waited | .assigned | .opened | .loaded => True
  | _ => False

/-- The messages of a line, those that were sent before in front: they are in the order in which
they were sent, and with those that are acknowledged they are all that was. -/
structure Lined (sent acked : List α) (line : List (Entry α)) (old new : List α) : Prop where
  split : line = old.map .again ++ new.map .fresh
  inOrder : old.Sublist sent
  all : (acked ++ old).Perm sent

/-- What holds at all times if publications go on in time. -/
structure Inv (before : List α) (s : Switch backend) : Prop where
  whole : ∃ old new, Lined s.sent s.acked s.line old new ∧
    s.sent ++ new ++ s.underway = before ++ s.published
  empty : s.unloaded → s.txQMessages = []
  nothing : s.unsent → s.pubOut = []

section Inv

variable {before : List α} {s : Switch backend}

theorem map_packet_split (old new : List α) :
    (old.map Entry.again ++ new.map Entry.fresh).map Entry.packet = old ++ new := by
  simp [Function.comp_def, Entry.again, Entry.fresh]

/-- What stands in front as sent is part of what was sent. -/
theorem split_front {front old new : List α} {rest : List (Entry α)}
    (split : front.map .again ++ rest = old.map .again ++ new.map .fresh) :
    ∃ later, old = front ++ later ∧ rest = later.map .again ++ new.map .fresh := by
  induction front generalizing old with
  | nil => exact ⟨old, rfl, split⟩
  | cons pkt front ih =>
      cases old with
      | nil =>
          cases new with
          | nil => cases split
          | cons first new =>
              have head := (List.cons.inj split).1
              cases head
      | cons first old =>
          rcases List.cons.inj split with ⟨head, tail⟩
          rcases ih tail with ⟨later, rfl, rest⟩
          cases head
          exact ⟨later, rfl, rest⟩

/-- What is not acknowledged, with what is, is all; and it is in the order of publication. -/
theorem Inv.complete (inv : s.Inv before) (idle : s.publisher = .idle) :
    (s.acked ++ s.line.map Entry.packet).Perm (before ++ s.published) ∧
      (s.line.map Entry.packet).Sublist (before ++ s.published) := by
  rcases inv.whole with ⟨old, new, lined, total⟩
  simp only [underway, idle, List.append_nil] at total
  rw [lined.split, map_packet_split, ← total]
  refine ⟨?_, lined.inOrder.append_right new⟩
  rw [← List.append_assoc]
  exact lined.all.append_right new

/-- The messages stored in the beginning, those that were sent before in front. -/
theorem inv_new (storage : backend.State) {old new : List α}
    (lined : backend.PacketsForEach storage = old.map .again ++ new.map .fresh) :
    (Switch.new storage : Switch backend).Inv
      ((backend.PacketsForEach storage).map Entry.packet) := by
  have sent : ((backend.PacketsForEach storage).filter Entry.UnAck).map Entry.packet = old := by
    rw [lined]
    simp [List.filter_append, List.filter_map, Function.comp_def, Entry.again, Entry.fresh]
  refine ⟨⟨old, new, ?_, ?_⟩, fun _ => rfl, fun _ => rfl⟩
  · refine ⟨lined, ?_, ?_⟩
    · simp only [Switch.new, sent]
      exact List.Sublist.refl _
    · simp only [Switch.new, sent]
      exact List.Perm.refl _
  · simp only [Switch.new, sent, underway, List.append_nil]
    rw [lined, map_packet_split]

/-- A step of the session keeps all packets and their order. -/
theorem line_control {order : MapOrder α} (timely : s.Timely (.control order))
    (empty : s.unloaded → s.txQMessages = []) (nothing : s.unsent → s.pubOut = []) :
    (s.control order).line = s.line := by
  unfold control
  cases phase : s.phase with
  | offline =>
      dsimp only
      split
      · rfl
      · simp [line, phase, stored]
  | waited => simp [line, phase, stored]
  | assigned => simp [line, phase, stored]
  | opened =>
      have queue := empty (by simp [unloaded, phase])
      have sent := nothing (by simp [unsent, phase])
      simp [line, phase, queue, sent, stored]
  | loaded => simp [line, phase]
  | redirected => simp [line, phase]
  | merged => simp [line, phase, stored, backend.delete_all]
  | online => simp [line, phase, stored]
  | closed => simp [line, phase, stored]
  | locked =>
      dsimp only
      split
      · rfl
      · simp [line, phase, stored]
  | drained =>
      simp only [Timely, phase] at timely
      have range : order.range [] = [] := (order.perm []).eq_nil
      rcases timely with none | ⟨queue, same⟩
      · simp [line, phase, stored, none, range]
      · simp [line, phase, stored, queue, same]
  | collected packets =>
      simp only [Timely, phase] at timely
      simp only [line, phase, stored, backend.packetsStore_last]
      rcases timely with none | none
      · simp [none]
      · rw [stored] at none
        simp [none]

/-- A step of the session changes none of the records. -/
theorem control_same (order : MapOrder α) :
    (s.control order).sent = s.sent ∧ (s.control order).acked = s.acked ∧
      (s.control order).underway = s.underway ∧ (s.control order).published = s.published := by
  unfold control
  split
  all_goals first
    | exact ⟨rfl, rfl, rfl, rfl⟩
    | (split <;> exact ⟨rfl, rfl, rfl, rfl⟩)

theorem Inv.control (inv : s.Inv before) {order : MapOrder α} (timely : s.Timely (.control order)) :
    (s.control order).Inv before := by
  refine ⟨?_, ?_, ?_⟩
  · rcases @control_same _ _ s order with ⟨sent, acked, underway, published⟩
    rw [line_control timely inv.empty inv.nothing, sent, acked, underway, published]
    exact inv.whole
  · unfold Switch.control
    cases phase : s.phase with
    | offline =>
        dsimp only
        split
        · exact inv.empty
        · exact fun _ => rfl
    | waited | assigned => exact fun _ => inv.empty (by simp [unloaded, phase])
    | locked =>
        dsimp only
        split
        · exact inv.empty
        · exact nofun
    | drained => exact fun _ => rfl
    | collected packets => exact fun _ => inv.empty (by simp [unloaded, phase])
    | _ => exact nofun
  · unfold Switch.control
    cases phase : s.phase with
    | offline =>
        dsimp only
        split
        · exact inv.nothing
        · exact fun _ => rfl
    | waited | assigned | opened => exact fun _ => inv.nothing (by simp [unsent, phase])
    | locked =>
        dsimp only
        split
        · exact inv.nothing
        · exact nofun
    | _ => exact nofun

theorem line_store (may : s.MayStore) (pkt : α) :
    line { s with storage := backend.PacketStore s.storage (.fresh pkt), publisher := .stored } =
      s.line ++ [.fresh pkt] := by
  unfold MayStore at may
  cases phase : s.phase with
  | waited | assigned | opened =>
      rw [phase] at may
      simp [line, phase, stored, backend.packetStore_last, may]
  | loaded | redirected | merged =>
      rw [phase] at may
      exact may.elim
  | _ => simp [line, phase, stored, backend.packetStore_last]

theorem line_collect (may : s.MayCollect) (pkt : α) :
    line { s with qList := s.qList ++ [pkt], publisher := .called } = s.line ++ [.fresh pkt] := by
  unfold MayCollect at may
  cases phase : s.phase with
  | assigned | opened | loaded | redirected => simp [line, phase, stored]
  | _ =>
      rw [phase] at may
      exact may.elim

theorem line_push (may : s.MayPush) (pkt : α) :
    line { s with txQMessages := s.txQMessages ++ [.fresh pkt], publisher := .called } =
      s.line ++ [.fresh pkt] := by
  unfold MayPush at may
  cases phase : s.phase with
  | redirected =>
      rw [phase] at may
      simp [line, phase, may]
  | merged => simp [line, phase]
  | online | closed | locked | drained =>
      rw [phase] at may
      simp only [stored] at may
      simp [line, phase, stored, may]
  | _ =>
      rw [phase] at may
      exact may.elim

theorem Inv.publish (inv : s.Inv before) (pkt : α) : (s.publish pkt).Inv before := by
  unfold Switch.publish
  cases publisher : s.publisher with
  | idle =>
      rcases inv.whole with ⟨old, new, lined, total⟩
      simp only [underway, publisher, List.append_nil] at total
      refine ⟨⟨old, new, lined, ?_⟩, inv.empty, inv.nothing⟩
      have begun : ∀ open_ : Bool, underway { s with
          published := s.published ++ [pkt]
          publisher := if open_ then .online pkt else .offline pkt } = [pkt] := by
        intro open_
        cases open_ <;> rfl
      rw [begun s.isOnline, ← List.append_assoc, ← total]
  | _ => exact inv

/-- A step of the publisher by which its packet does not get anywhere. -/
theorem Inv.idles (inv : s.Inv before) {publisher : Publisher α}
    (same : underway { s with publisher := publisher } = s.underway) :
    Inv before { s with publisher := publisher } := by
  refine ⟨?_, inv.empty, inv.nothing⟩
  rw [same]
  exact inv.whole

/-- A step by which its packet becomes the last one. -/
theorem Inv.arrives (inv : s.Inv before) {pkt : α} {next : Switch backend}
    (pending : s.underway = [pkt]) (done : next.underway = [])
    (last : next.line = s.line ++ [.fresh pkt])
    (same : next.sent = s.sent ∧ next.acked = s.acked ∧ next.published = s.published)
    (empty : next.unloaded → next.txQMessages = []) (nothing : next.unsent → next.pubOut = []) :
    next.Inv before := by
  rcases inv.whole with ⟨old, new, lined, total⟩
  rcases same with ⟨sent, acked, published⟩
  refine ⟨⟨old, new ++ [pkt], ?_, ?_⟩, empty, nothing⟩
  · rw [last, sent, acked]
    refine ⟨?_, lined.inOrder, lined.all⟩
    rw [lined.split, List.map_append, List.append_assoc]
    rfl
  · rw [sent, done, published, List.append_nil, ← List.append_assoc, ← pending]
    exact total

theorem Inv.calls (inv : s.Inv before) {pkt : α} {callback : Callback}
    (here : s.publisher = .calling pkt callback) (timely : s.Timely .proceed) :
    Inv before { s.call pkt callback with publisher := .called } := by
  have pending : s.underway = [pkt] := by simp [underway, here]
  simp only [Timely, here] at timely
  cases callback with
  | subscribedPublish conn =>
      rcases timely with ⟨same, may⟩
      simp only [call, if_pos same]
      exact inv.arrives pending rfl (line_collect may pkt) ⟨rfl, rfl, rfl⟩ inv.empty inv.nothing
  | onSubscribedPublish conn =>
      rcases timely with ⟨same, may⟩
      simp only [call, if_pos same]
      refine inv.arrives pending rfl (line_push may pkt) ⟨rfl, rfl, rfl⟩ (fun unloaded => ?_)
        inv.nothing
      -- a connection that has not loaded anything has no queue to push to
      unfold MayPush at may
      simp only [Switch.unloaded] at unloaded
      cases phase : s.phase with
      | offline | waited | assigned | opened | collected =>
          rw [phase] at may
          exact may.elim
      | _ =>
          rw [phase] at unloaded
          exact unloaded.elim

theorem Inv.proceed (inv : s.Inv before) (timely : s.Timely .proceed) : s.proceed.Inv before := by
  unfold Switch.proceed
  cases here : s.publisher with
  | idle => exact inv
  | offline pkt =>
      dsimp only
      split
      · exact inv
      · exact inv.idles (by simp [underway, here])
  | storing pkt =>
      have may : s.MayStore := by simpa only [Timely, here] using timely
      exact inv.arrives (by simp [underway, here]) rfl (line_store may pkt) ⟨rfl, rfl, rfl⟩
        inv.empty inv.nothing
  | stored => exact inv.idles (by simp [underway, here])
  | online pkt =>
      dsimp only
      split
      · exact inv
      · exact inv.idles (by simp [underway, here])
  | reading pkt =>
      dsimp only
      split
      · exact inv.idles (by simp [underway, here])
      · exact inv
  | calling pkt callback => exact inv.calls here timely
  | called => exact inv.idles (by simp [underway, here])

/-- While the transmitter or the receiver runs, what is sent is followed by the queue. -/
theorem line_running (running : s.transmits = true ∨ s.receives = true) :
    ¬s.unloaded ∧ ¬s.unsent ∧ ∀ (sent acked pubOut : List α) (txQMessages : List (Entry α)),
      ∃ rest, s.line = s.pubOut.map .again ++ (s.txQMessages ++ rest) ∧
        line { s with sent, acked, pubOut, txQMessages } =
          pubOut.map .again ++ (txQMessages ++ rest) := by
  unfold transmits receives at running
  unfold unloaded unsent line
  cases phase : s.phase with
  | offline | waited | assigned | opened | loaded | collected =>
      rw [phase] at running
      simp at running
  | redirected => exact ⟨nofun, nofun, fun _ _ _ _ => ⟨_, rfl, rfl⟩⟩
  | merged => exact ⟨nofun, nofun, fun _ _ _ _ => ⟨[], by simp, by simp⟩⟩
  | online | closed | locked | drained => exact ⟨nofun, nofun, fun _ _ _ _ => ⟨_, rfl, rfl⟩⟩

theorem Inv.transmit (inv : s.Inv before) : s.transmit.Inv before := by
  unfold Switch.transmit
  split
  · rename_i running
    cases queue : s.txQMessages with
    | nil => exact inv
    | cons entry rest =>
        rcases line_running (.inl running) with ⟨loaded, sending, lines⟩
        rcases inv.whole with ⟨old, new, lined, total⟩
        rcases lines (if entry.UnAck then s.sent else s.sent ++ [entry.packet]) s.acked
          (s.pubOut ++ [entry.packet]) rest with ⟨tail, line, next⟩
        refine ⟨?_, fun unloaded => absurd unloaded loaded, fun unsent => absurd unsent sending⟩
        have split := lined.split
        rw [line, queue] at split
        rcases split_front split with ⟨later, front, behind⟩
        rcases entry with ⟨UnAck, pkt⟩
        cases UnAck with
        | true =>
            refine ⟨old, new, ⟨?_, lined.inOrder, lined.all⟩, total⟩
            rw [next, ← split]
            simp [Entry.again]
        | false =>
            -- the packet is the first that was not sent before
            cases later with
            | cons first later => cases (List.cons.inj behind).1
            | nil =>
                cases new with
                | nil => cases behind
                | cons first new =>
                    rcases List.cons.inj behind with ⟨same, behind⟩
                    have remaining : rest ++ tail = new.map .fresh := behind
                    cases same
                    rw [List.append_nil] at front
                    subst front
                    refine ⟨s.pubOut ++ [pkt], new, ⟨?_, ?_, ?_⟩, ?_⟩
                    · rw [next, remaining]
                    · exact lined.inOrder.append_right [pkt]
                    · simp only [Bool.false_eq_true, if_false]
                      rw [← List.append_assoc]
                      exact lined.all.append_right [pkt]
                    · rw [← total]
                      simp [underway]
  · exact inv

theorem Inv.acknowledge (inv : s.Inv before) (i : ℕ) : (s.acknowledge i).Inv before := by
  unfold Switch.acknowledge
  split
  · rename_i running
    cases found : s.pubOut[i]? with
    | none => exact inv
    | some pkt =>
        rcases line_running (.inr running) with ⟨loaded, sending, lines⟩
        rcases inv.whole with ⟨old, new, lined, total⟩
        rcases lines s.sent (s.acked ++ [pkt]) (s.pubOut.eraseIdx i) s.txQMessages with
          ⟨tail, line, next⟩
        refine ⟨?_, fun unloaded => absurd unloaded loaded, fun unsent => absurd unsent sending⟩
        have split := lined.split
        rw [line] at split
        rcases split_front split with ⟨later, front, behind⟩
        subst front
        refine ⟨s.pubOut.eraseIdx i ++ later, new, ⟨?_, ?_, ?_⟩, total⟩
        · rw [next, behind, List.map_append, List.append_assoc]
        · exact ((List.eraseIdx_sublist _ _).append_right later).trans lined.inOrder
        · refine List.Perm.trans ?_ lined.all
          rw [List.append_assoc]
          refine List.Perm.append_left s.acked ?_
          rcases List.getElem?_eq_some_iff.mp found with ⟨within, rfl⟩
          exact (List.getElem_cons_eraseIdx_perm within).append_right later
  · exact inv

theorem Inv.step (inv : s.Inv before) {op : Op α} (timely : s.Timely op) :
    (s.step op).Inv before := by
  cases op with
  | publish pkt => exact inv.publish pkt
  | proceed => exact inv.proceed timely
  | control order => exact inv.control timely
  | transmit => exact inv.transmit
  | acknowledge i => exact inv.acknowledge i

end Inv

end Switch

end VolantMQ.Subscriber
