import VolantMQ.Connection.Window

/-!
# The transmitter

The loop of `txRoutine` takes at most one packet from each of the two queues and then, for each
packet in turn, checks its expiry, chooses a topic alias, checks its size and encodes it into the
send buffers. A PUBLISH that needs an acknowledgement has taken its slot of flow control by then.
The loop drops a packet that does not pass, but leaves its slot taken.

The packets between the two parts of the loop are part of the state, so that acknowledgements may
arrive at any point. The state also records which identifiers in use stand for a packet on the
network, and how each PUBLISH that took a slot ended.
-/

namespace VolantMQ.Connection

open Lib Packet

/-- A packet in `txGMessages`. Packets other than PUBLISH and its acknowledgements are given by
their encoding. -/
inductive Outgoing where
  | provider (packet : Provider)
  | control (buf : Bytes)

namespace Outgoing

/-- `Provider.Size` -/
def fullSize : Outgoing → Except PacketError ℕ
  | provider packet => packet.fullSize
  | control buf => .ok buf.length

/-- `packet.Encode` -/
def encode (order : MapOrder PropertyEntry) : Outgoing → Except (Fault PacketError) Bytes
  | provider packet => packet.encode order
  | control buf => .ok buf

end Outgoing

/-- The PUBLISH that `loadPersistence` puts into the general queue. -/
def Persisted.gLoad (entry : Persisted) : Option Outgoing :=
  if entry.UnAck then none
  else
    match entry.packet with
    | .ack _ => none
    | .publish p =>
        if p.qos = QoS0 then some (.provider (.publish (entry.setExpiry p))) else none

/-- A packet returned by `popPackets`: from the general queue, loaded as unacknowledged, or a
PUBLISH that has just taken a slot. -/
inductive Taken where
  | general (packet : Outgoing)
  | loaded (packet : Provider)
  | acquired (packet : Publish)

namespace Taken

/-- The packet itself. -/
def packet : Taken → Outgoing
  | general packet => packet
  | loaded packet => .provider packet
  | acquired packet => .provider (.publish packet)

/-- It is the packet that `pubOut` points to. -/
def isStored : Taken → Bool
  | general _ => false
  | loaded _ => true
  | acquired _ => true

/-- It has taken a slot under this identifier. -/
def Holds (id : IDType) : Taken → Prop
  | acquired packet => idOrZero packet.packetID = id
  | _ => False

end Taken

/-- How a PUBLISH that took a slot ended. -/
structure Outcome where
  id : IDType
  appended : Bool
  givenBack : Bool

/-- The parts of `connection.Type` that the transmitter uses. -/
structure Transmitter where
  out : Outbound
  txGMessages : List Outgoing
  MaxTxPacketSize : UInt32
  MaxTxTopicAlias : UInt16
  topicAliasCurrMax : UInt16
  txTopicAlias : AList fun _ : GoString => UInt16
  /-- The packets that the loop has taken and not yet looked at. -/
  packets : List Taken
  sendBuffers : List Bytes
  /-- What was written to the connection. -/
  written : List Bytes
  /-- The identifiers whose last packet was appended to the send buffers or loaded. -/
  backed : Finset IDType
  outcomes : List Outcome

namespace Transmitter

def packetFitsSize (s : Transmitter) (value : Outgoing) : Bool :=
  match value.fullSize with
  | .error _ => false
  | .ok sz => sz ≤ s.MaxTxPacketSize.toNat

/-- The alias that `setTopicAlias` chooses for a topic, and whether it comes with the topic; `roll`
decides the outcome of `rand.Intn`. The map `txTopicAlias` is never written. -/
def chooseAlias (s : Transmitter) (roll : ℕ) (topic : GoString) : Transmitter × UInt16 × Bool :=
  match s.txTopicAlias.lookup topic with
  | some number => (s, number, false)
  | none =>
      if s.topicAliasCurrMax < s.MaxTxTopicAlias then
        let topicAliasCurrMax := s.topicAliasCurrMax + 1
        ({ s with topicAliasCurrMax }, topicAliasCurrMax, true)
      else (s, UInt16.ofNat (roll % s.MaxTxTopicAlias.toNat + 1), false)

def setTopicAlias (s : Transmitter) (roll : ℕ) (pkt : Publish) : Transmitter × Publish :=
  if 0 < s.MaxTxTopicAlias then
    let (s, number, withTopic) := s.chooseAlias roll pkt.topic
    match pkt.propertySet PropertyTopicAlias (.short number) with
    | .error _ => (s, pkt)
    | .ok pkt =>
        if withTopic then (s, pkt)
        else
          match pkt.setTopic [] with
          | .ok pkt => (s, pkt)
          | .error _ => (s, pkt)
  else (s, pkt)

/-- The loop changes a PUBLISH in place, so `pubOut` sees the change as long as it holds it. -/
def share (s : Transmitter) (pkt : Publish) : Transmitter :=
  match s.out.pubOut.lookup (idOrZero pkt.packetID) with
  | some (.publish _) => { s with out := s.out.store (.publish pkt) }
  | _ => s

/-- The packet that the loop is about to write, if it has not expired. -/
def prepare (s : Transmitter) (now : Time) (roll : ℕ) (taken : Taken) :
    Transmitter × Option Outgoing :=
  match taken.packet with
  | .provider (.publish p) =>
      match p.expiredSet now with
      | (true, _) => (s, none)
      | (false, p) =>
          let (s, p) := s.setTopicAlias roll p
          (if taken.isStored then s.share p else s, some (.provider (.publish p)))
  | pkt => (s, some pkt)

/-- The bytes that the loop appends to the send buffers, if any. An error is only logged. -/
def toWrite (s : Transmitter) (order : MapOrder PropertyEntry) (pkt : Option Outgoing) :
    Option Bytes :=
  match pkt with
  | none => none
  | some pkt =>
      if s.packetFitsSize pkt then
        match pkt.encode order with
        | .ok buf => some buf
        | .error _ => none
      else none

/-- The body of the loop over the packets taken. -/
def sendPacket (s : Transmitter) (now : Time) (roll : ℕ) (order : MapOrder PropertyEntry)
    (taken : Taken) : Transmitter × Bool :=
  let (s, pkt) := s.prepare now roll taken
  match s.toWrite order pkt with
  | some buf => ({ s with sendBuffers := s.sendBuffers ++ [buf] }, true)
  | none => (s, false)

def gPopPacket (s : Transmitter) : Transmitter :=
  match s.txGMessages with
  | [] => s
  | pkt :: rest => { s with txGMessages := rest, packets := s.packets ++ [.general pkt] }

/-- `qPopPacket`: a PUBLISH at the front has taken a slot. -/
def qPopPacket (s : Transmitter) : Transmitter :=
  match s.out.txQMessages, s.out.qPopPacket with
  | .publish _ :: _, (out, some (.publish p)) =>
      { s with
        out
        packets := s.packets ++ [.acquired p]
        backed := s.backed.erase (idOrZero p.packetID) }
  | _, (out, some pkt) => { s with out, packets := s.packets ++ [.loaded pkt] }
  | _, (out, none) => { s with out }

/-- The slot of an identifier was given back between two states. -/
def gaveBack (before after : Outbound) (id : IDType) : Bool :=
  decide (id ∉ after.flow.flowInUse ∧ id ∉ after.pubOut ∧
    after.flow.SendQuota = addInt32 before.flow.SendQuota 1)

/-- Write down how a packet ended that had taken a slot. -/
def account (before after : Transmitter) (appended : Bool) : Taken → Transmitter
  | .acquired p =>
      let id := idOrZero p.packetID
      { after with
        backed := if appended then insert id after.backed else after.backed
        outcomes := after.outcomes ++ [⟨id, appended, gaveBack before.out after.out id⟩] }
  | _ => after

/-- What can happen next. -/
inductive Op where
  | gPush (pkt : Outgoing)
  | qPush (m : Publish)
  | popPackets
  | send (now : Time) (roll : ℕ) (order : MapOrder PropertyEntry)
  | flushBuffers
  | ack (msg : Ack)
  | close

/-- One step. The loop takes new packets when it is done with the last ones. -/
def step (s : Transmitter) : Op → Transmitter
  | .gPush pkt => { s with txGMessages := s.txGMessages ++ [pkt] }
  | .qPush m => { s with out := s.out.qPush (.publish m) }
  | .popPackets => if s.packets.isEmpty then s.gPopPacket.qPopPacket else s
  | .send now roll order =>
      match s.packets with
      | [] => s
      | taken :: rest =>
          let (after, appended) := s.sendPacket now roll order taken
          account s { after with packets := rest } appended taken
  | .flushBuffers => { s with sendBuffers := [], written := s.written ++ s.sendBuffers }
  | .ack msg =>
      let (out, resp) := s.out.onAck msg
      { s with out, txGMessages := s.txGMessages ++ (resp.map fun r => .provider (.ack r)).toList }
  | .close => { s with out := { s.out with flow := { s.out.flow with quit := true } } }

/-- The transmitter of a connection that has loaded its session. -/
def load (Version : ProtocolVersion) (R : UInt16) (MaxTxPacketSize : UInt32)
    (MaxTxTopicAlias : UInt16) (entries : List Persisted) : Transmitter :=
  { out := .loadPersistence Version R entries
    txGMessages := entries.filterMap Persisted.gLoad
    MaxTxPacketSize, MaxTxTopicAlias
    topicAliasCurrMax := 0
    txTopicAlias := ∅
    packets := []
    sendBuffers := []
    written := []
    backed := ((entries.filter Persisted.UnAck).map fun entry => entry.packet.id).toFinset
    outcomes := [] }

/-- Every PUBLISH that took a slot was appended to the send buffers or has given its slot back, and
every identifier in use belongs to a packet that was appended or loaded, or that the loop is about
to look at. -/
structure Accounted (s : Transmitter) : Prop where
  ended : ∀ outcome ∈ s.outcomes, outcome.appended = true ∨ outcome.givenBack = true
  inUse : ∀ id ∈ s.out.flow.flowInUse, id ∈ s.backed ∨ ∃ taken ∈ s.packets, taken.Holds id

/-- A PUBLISH that took a slot has not expired when the loop looks at it, is not larger than the
client allows, and can be encoded. -/
def Sendable (s : Transmitter) : Op → Prop
  | .send now roll order => ∀ p rest, s.packets = .acquired p :: rest →
      p.expired now = false ∧
        let pkt := .provider (.publish (s.setTopicAlias roll (p.expiredSet now).2).2)
        s.packetFitsSize pkt = true ∧ ∃ buf, pkt.encode order = .ok buf
  | _ => True

theorem expiredSet_fst (p : Publish) (now : Time) : (p.expiredSet now).1 = p.expired now := by
  unfold Publish.expiredSet Publish.expired
  cases p.expireAt with
  | none => rfl
  | some expireAt =>
      simp only
      split
      · rename_i alive
        rw [alive]
        split
        · split <;> rfl
        · rfl
      · rename_i dead
        simp only [Bool.not_eq_true] at dead
        rw [dead]
        rfl

/-- What the body of the loop leaves alone. -/
structure Untouched (s next : Transmitter) : Prop where
  flow : next.out.flow = s.out.flow
  packets : next.packets = s.packets
  backed : next.backed = s.backed
  outcomes : next.outcomes = s.outcomes
  limit : next.MaxTxPacketSize = s.MaxTxPacketSize

theorem setTopicAlias_fst (s : Transmitter) (roll : ℕ) (pkt : Publish) :
    ∃ topicAliasCurrMax, (s.setTopicAlias roll pkt).1 = { s with topicAliasCurrMax } := by
  have choice : ∃ topicAliasCurrMax,
      (s.chooseAlias roll pkt.topic).1 = { s with topicAliasCurrMax } := by
    unfold chooseAlias
    split
    · exact ⟨_, rfl⟩
    · split
      · exact ⟨_, rfl⟩
      · exact ⟨_, rfl⟩
  unfold setTopicAlias
  split
  · simp only
    split
    · exact choice
    · split
      · exact choice
      · split <;> exact choice
  · exact ⟨_, rfl⟩

/-- The body of the loop changes nothing before it encodes but the last alias and `pubOut`. -/
theorem prepare_fst (s : Transmitter) (now : Time) (roll : ℕ) (taken : Taken) :
    ∃ topicAliasCurrMax pubOut, (s.prepare now roll taken).1 =
      { s with topicAliasCurrMax, out := { s.out with pubOut } } := by
  unfold prepare
  split
  · split
    · exact ⟨_, _, rfl⟩
    · rename_i p run
      rcases setTopicAlias_fst s roll p with ⟨last, choice⟩
      simp only [choice]
      split
      · unfold share
        split
        · exact ⟨_, _, rfl⟩
        · exact ⟨_, _, rfl⟩
      · exact ⟨_, _, rfl⟩
  · exact ⟨_, _, rfl⟩

theorem untouched_prepare (s : Transmitter) (now : Time) (roll : ℕ) (taken : Taken) :
    Untouched s (s.prepare now roll taken).1 := by
  rcases prepare_fst s now roll taken with ⟨last, pubOut, same⟩
  rw [same]
  exact ⟨rfl, rfl, rfl, rfl, rfl⟩

theorem untouched_sendPacket (s : Transmitter) (now : Time) (roll : ℕ)
    (order : MapOrder PropertyEntry) (taken : Taken) :
    Untouched s (s.sendPacket now roll order taken).1 := by
  have prepared := untouched_prepare s now roll taken
  simp only [sendPacket]
  split
  · exact ⟨prepared.flow, prepared.packets, prepared.backed, prepared.outcomes, prepared.limit⟩
  · exact prepared

/-- When the loop appends a PUBLISH to the send buffers. -/
theorem sendPacket_appends_iff (s : Transmitter) (now : Time) (roll : ℕ)
    (order : MapOrder PropertyEntry) (taken : Taken) {p : Publish}
    (own : taken.packet = .provider (.publish p)) :
    (s.sendPacket now roll order taken).2 = true ↔
      p.expired now = false ∧
        let pkt := .provider (.publish (s.setTopicAlias roll (p.expiredSet now).2).2)
        s.packetFitsSize pkt = true ∧ ∃ buf, pkt.encode order = .ok buf := by
  have untouched := untouched_prepare s now roll taken
  have expiry := expiredSet_fst p now
  rcases run : p.expiredSet now with ⟨expired, q⟩
  rw [run] at expiry
  have limit : ∀ next pkt, Untouched s next → next.packetFitsSize pkt = s.packetFitsSize pkt := by
    intro next pkt same
    rw [packetFitsSize, packetFitsSize, same.limit]
  rw [← expiry]
  cases expired with
  | true => simp [sendPacket, prepare, own, run, toWrite]
  | false =>
      simp only [prepare, own, run] at untouched
      simp only [sendPacket, prepare, own, run, toWrite, limit _ _ untouched, true_and]
      split
      · rename_i buf written
        split at written
        · rename_i fits
          split at written
          · rename_i encoded
            simp [fits, encoded]
          · simp at written
        · simp at written
      · rename_i nothing
        simp only [Bool.false_eq_true, false_iff, not_and, not_exists]
        intro fits buf encoded
        simp [fits, encoded] at nothing

theorem ne_addInt32_one (x : ℤ) : x ≠ addInt32 x 1 := by
  unfold addInt32
  split <;> omega

theorem flowInUse_flowReleaseSignal (s : Outbound) (id : IDType) :
    (s.flowReleaseSignal id).flow.flowInUse = s.flow.flowInUse.erase id := by
  rw [(Outbound.flowReleaseSignal_spec s id).1]
  rfl

/-- An acknowledgement takes nothing into use. -/
theorem flowInUse_onAck (s : Outbound) (msg : Ack) :
    (s.onAck msg).1.flow.flowInUse ⊆ s.flow.flowInUse := by
  have released : (s.release msg).flow.flowInUse ⊆ s.flow.flowInUse := by
    by_cases held : idOrZero msg.packetID ∈ s.pubOut
    · rw [Outbound.release_of_held held]
      simp only [Outbound.onReleaseOut]
      split
      · rw [flowInUse_flowReleaseSignal]
        exact Finset.erase_subset _ _
      · rw [flowInUse_flowReleaseSignal]
        exact Finset.erase_subset _ _
      · exact Finset.Subset.refl _
    · rw [Outbound.release_of_absent held]
  unfold Outbound.onAck
  split
  · exact released
  · simp only
    split
    · rw [flowInUse_flowReleaseSignal]
      exact (Finset.erase_subset _ _).trans released
    · exact released
  · exact released
  · exact Finset.Subset.refl _

/-- The search takes nothing into use but the identifier it returns. -/
theorem probe_subset (rounds : ℕ) (flowCounter : UInt64) (flowInUse : Finset IDType) :
    (Flow.probe rounds flowCounter flowInUse).2.2 ⊆
      insert (Flow.probe rounds flowCounter flowInUse).2.1 flowInUse := by
  induction rounds generalizing flowCounter with
  | zero => exact Finset.subset_insert _ _
  | succ rounds ih =>
      simp only [Flow.probe]
      split
      · exact ih _
      · exact Finset.Subset.refl _

/-- The three outcomes of `qPopPacket`: nothing, a PUBLISH that takes a slot, or a packet loaded as
unacknowledged. -/
theorem qPopPacket_cases (s : Outbound) :
    (s.qPopPacket.2 = none ∧ s.qPopPacket.1.flow.flowInUse = s.flow.flowInUse) ∨
      (∃ m rest id out, s.txQMessages = .publish m :: rest ∧
        s.qPopPacket = (out, some (.publish (m.setPacketID id))) ∧
        out.flow.flowInUse ⊆ insert id s.flow.flowInUse) ∨
      ∃ pkt rest out, s.txQMessages = .unacknowledged pkt :: rest ∧
        s.qPopPacket = (out, some pkt) ∧ out.flow = s.flow := by
  unfold Outbound.qPopPacket
  split
  · exact .inl ⟨rfl, rfl⟩
  · split
    · exact .inl ⟨rfl, rfl⟩
    · rename_i m rest front
      cases closed : s.flow.quit with
      | true =>
          simp only [Flow.flowAcquire, closed, if_true]
          exact .inl ⟨trivial, trivial⟩
      | false =>
          simp only [Flow.flowAcquire, closed, Bool.false_eq_true, if_false]
          exact .inr (.inl ⟨m, rest, _, _, front, rfl, probe_subset _ _ _⟩)
    · rename_i pkt rest front
      exact .inr (.inr ⟨pkt, rest, _, front, rfl, rfl⟩)

section Steps

variable {s : Transmitter}

theorem accounted_gPop (accounted : s.Accounted) : s.gPopPacket.Accounted := by
  unfold gPopPacket
  split
  · exact accounted
  · refine ⟨accounted.ended, fun id used => ?_⟩
    rcases accounted.inUse id used with backed | ⟨taken, member, holds⟩
    · exact .inl backed
    · exact .inr ⟨taken, List.mem_append_left _ member, holds⟩

/-- Popping a PUBLISH leaves its slot to the packet that the loop is about to look at. -/
theorem accounted_qPop (accounted : s.Accounted) : s.qPopPacket.Accounted := by
  rcases qPopPacket_cases s.out with ⟨nothing, same⟩ | ⟨m, rest, id, out, front, run, subset⟩ |
    ⟨pkt, rest, out, front, run, same⟩
  · rcases run : s.out.qPopPacket with ⟨out, packet⟩
    rw [run] at nothing same
    subst nothing
    have next : s.qPopPacket = { s with out } := by
      simp only [qPopPacket, run]
    rw [next]
    refine ⟨accounted.ended, fun id used => ?_⟩
    rw [same] at used
    exact accounted.inUse id used
  · have next : s.qPopPacket = { s with
        out
        packets := s.packets ++ [.acquired (m.setPacketID id)]
        backed := s.backed.erase id } := by
      simp only [qPopPacket, run, front]
      rfl
    rw [next]
    refine ⟨accounted.ended, fun other used => ?_⟩
    by_cases same : other = id
    · exact .inr ⟨.acquired (m.setPacketID id), by simp, same.symm⟩
    · rcases Finset.mem_insert.mp (subset used) with equal | before
      · exact absurd equal same
      · rcases accounted.inUse other before with backed | ⟨taken, member, holds⟩
        · exact .inl (Finset.mem_erase.mpr ⟨same, backed⟩)
        · exact .inr ⟨taken, List.mem_append_left _ member, holds⟩
  · have next : s.qPopPacket = { s with out, packets := s.packets ++ [.loaded pkt] } := by
      simp only [qPopPacket, run, front]
    rw [next]
    refine ⟨accounted.ended, fun other used => ?_⟩
    rw [same] at used
    rcases accounted.inUse other used with backed | ⟨taken, member, holds⟩
    · exact .inl backed
    · exact .inr ⟨taken, List.mem_append_left _ member, holds⟩

/-- Looking at a packet keeps the slots accounted for exactly when a PUBLISH that took one is
appended to the send buffers, since the loop never gives a slot back. -/
theorem accounted_send_iff (accounted : s.Accounted) (now : Time) (roll : ℕ)
    (order : MapOrder PropertyEntry) :
    (s.step (.send now roll order)).Accounted ↔ s.Sendable (.send now roll order) := by
  cases packets : s.packets with
  | nil =>
      simp only [step, packets, Sendable]
      simp [accounted]
  | cons taken rest =>
      have untouched := untouched_sendPacket s now roll order taken
      have kept : ∀ id ∈ s.out.flow.flowInUse, ¬taken.Holds id →
          id ∈ s.backed ∨ ∃ other ∈ rest, other.Holds id := by
        intro id used free
        rcases accounted.inUse id used with backed | ⟨other, member, holds⟩
        · exact .inl backed
        · rw [packets] at member
          rcases List.mem_cons.mp member with rfl | later
          · exact absurd holds free
          · exact .inr ⟨other, later, holds⟩
      rcases run : s.sendPacket now roll order taken with ⟨after, appended⟩
      rw [run] at untouched
      have unowned (notAcquired : ∀ id, ¬taken.Holds id) :
          ({ after with packets := rest } : Transmitter).Accounted := by
        refine ⟨fun outcome member => accounted.ended outcome (untouched.outcomes ▸ member), ?_⟩
        intro id used
        rw [untouched.backed]
        exact kept id (untouched.flow ▸ used) (notAcquired id)
      simp only [step, packets, run]
      cases taken with
      | general pkt =>
          exact iff_of_true (unowned fun _ holds => holds) fun p rest' front => by
            simp [packets] at front
      | loaded pkt =>
          exact iff_of_true (unowned fun _ holds => holds) fun p rest' front => by
            simp [packets] at front
      | acquired p =>
          have appends := sendPacket_appends_iff s now roll order (.acquired p) rfl
          rw [run] at appends
          have needed : s.Sendable (.send now roll order) ↔ appended = true := by
            rw [appends]
            simp [Sendable, packets]
          have notBack : gaveBack s.out after.out (idOrZero p.packetID) = false := by
            rw [gaveBack, decide_eq_false_iff_not, untouched.flow]
            exact fun given => ne_addInt32_one _ given.2.2
          rw [needed]
          constructor
          · intro next
            have last := next.ended ⟨idOrZero p.packetID, appended, _⟩
              (List.mem_append_right _ (List.mem_singleton_self _))
            simpa [notBack] using last
          · intro sent
            refine ⟨?_, ?_⟩
            · simp only [account, List.forall_mem_append, List.forall_mem_singleton]
              exact ⟨untouched.outcomes ▸ accounted.ended, .inl sent⟩
            · intro id used
              simp only [account, sent, if_true, Finset.mem_insert]
              by_cases own : idOrZero p.packetID = id
              · exact .inl (.inl own.symm)
              · rcases kept id (untouched.flow ▸ used) own with backed | later
                · exact .inl (.inr (untouched.backed ▸ backed))
                · exact .inr later

theorem accounted_step_iff (accounted : s.Accounted) (op : Op) :
    (s.step op).Accounted ↔ s.Sendable op := by
  cases op with
  | send now roll order => exact accounted_send_iff accounted now roll order
  | gPush pkt => exact iff_of_true ⟨accounted.ended, accounted.inUse⟩ trivial
  | qPush m => exact iff_of_true ⟨accounted.ended, accounted.inUse⟩ trivial
  | flushBuffers => exact iff_of_true ⟨accounted.ended, accounted.inUse⟩ trivial
  | close => exact iff_of_true ⟨accounted.ended, accounted.inUse⟩ trivial
  | ack msg =>
      refine iff_of_true ⟨accounted.ended, fun id used => ?_⟩ trivial
      exact accounted.inUse id (flowInUse_onAck s.out msg used)
  | popPackets =>
      refine iff_of_true ?_ trivial
      simp only [step]
      split
      · exact accounted_qPop (accounted_gPop accounted)
      · exact accounted

end Steps

/-- Loading takes the identifiers of the packets loaded as unacknowledged into use. -/
theorem flowInUse_load (s : Outbound) (entries : List Persisted) :
    (entries.foldl Outbound.loadPacket s).flow.flowInUse = s.flow.flowInUse ∪
      ((entries.filter Persisted.UnAck).map fun entry => entry.packet.id).toFinset := by
  induction entries generalizing s with
  | nil => simp
  | cons entry entries ih =>
      rw [List.foldl_cons, ih]
      unfold Outbound.loadPacket
      by_cases unacknowledged : entry.UnAck
      · simp [unacknowledged, Outbound.qPush, Flow.flowReAcquire, Finset.insert_union]
      · simp only [unacknowledged, Bool.false_eq_true, if_false, List.filter_cons_of_neg,
          not_false_eq_true]
        split
        · rfl
        · split <;> rfl

theorem accounted_load (Version : ProtocolVersion) (R : UInt16) (MaxTxPacketSize : UInt32)
    (MaxTxTopicAlias : UInt16) (entries : List Persisted) :
    (load Version R MaxTxPacketSize MaxTxTopicAlias entries).Accounted := by
  refine ⟨by simp [load], fun id used => .inl ?_⟩
  simp only [load, Outbound.loadPersistence, flowInUse_load] at used ⊢
  simpa [Outbound.new, Flow.new] using used

/-- In every run of the transmitter, with any contents of the queues and any acknowledgements in
between, every slot is accounted for at all times exactly when each PUBLISH that took one is fit to
be sent when the loop looks at it. -/
theorem accounted_run_iff (Version : ProtocolVersion) (R : UInt16) (MaxTxPacketSize : UInt32)
    (MaxTxTopicAlias : UInt16) (entries : List Persisted) (ops : List Op) :
    (∀ n, ((ops.take n).foldl step
      (load Version R MaxTxPacketSize MaxTxTopicAlias entries)).Accounted) ↔
      Along step Sendable (load Version R MaxTxPacketSize MaxTxTopicAlias entries) ops := by
  have start := accounted_load Version R MaxTxPacketSize MaxTxTopicAlias entries
  refine Iff.trans ?_ (and_iff_right start)
  exact always_iff_along (fun _ => True) Accounted (fun _ _ _ => trivial)
    (fun _ op _ accounted => accounted_step_iff accounted op) trivial ops

/-- A QoS 1 message that expires while it is queued takes a slot and is dropped: nothing is sent,
the quota is one less, and its identifier stays in use without a packet. -/
theorem expired_keeps_slot :
    let m : Publish :=
      { Publish.new ProtocolV50 with mFlags := 2, topic := ascii "a", expireAt := some 0 }
    let ops : List Op := [.qPush m, .popPackets, .send 1 0 (.insertion _)]
    let s := ops.foldl step (load ProtocolV50 10 268435455 0 [])
    s.sendBuffers = [] ∧ s.out.flow.flowInUse = {1} ∧ s.out.flow.SendQuota = 9 ∧ s.packets.isEmpty ∧
      ¬s.Accounted := by
  intro m ops s
  have outcomes : s.outcomes = [⟨1, false, false⟩] := rfl
  refine ⟨rfl, rfl, rfl, rfl, fun accounted => ?_⟩
  have last := accounted.ended ⟨1, false, false⟩ (by rw [outcomes]; simp)
  simp at last

end Transmitter

end VolantMQ.Connection
