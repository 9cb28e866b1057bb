import VolantMQ.Connection.Window

/-!
# The quota and its flag

`qPopPacket` sets `txQuotaExceeded` after it has taken the last unit of the quota, and
`signalQuota` clears the flag after the first unit has been given back. The counter itself is
changed outside of the lock: units may be given back between the two halves of `qPopPacket`, and
other units before `signalQuota` runs. This file lets any number of calls of `flowRelease` and
`signalQuota` interleave with the transmitter and shows that the flag never disagrees with the
counter once everything that is under way has ended.

At all times the sending side is stopped, by the flag or by a pop that is about to set it, if and
only if the quota is used up or a `signalQuota` is due.
-/

namespace VolantMQ.Connection

open Lib Packet

/-- The sending side of a connection with what is under way. -/
structure Quota where
  conn : Outbound
  /-- The transmitter holds `txQLock`. -/
  popping : Option Popping
  /-- The calls of `signalQuota` that follow a `flowRelease` and have not taken the lock. -/
  signals : ℕ

namespace Quota

/-- A connection that has reloaded no unacknowledged packets. -/
def new (Version : ProtocolVersion) (SendQuota : Int32) : Quota :=
  ⟨⟨Version, ⟨SendQuota.toInt, 0, ∅, false⟩, false, [], ∅⟩, none, 0⟩

/-- `qPopPacket` up to `flowAcquire`, or all of it if the packet at the front needs none. -/
def beginPop (s : Quota) : Quota :=
  if s.conn.txQuotaExceeded then s
  else
    match s.conn.txQMessages with
    | [] => s
    | .publish m :: rest =>
        match s.conn.flow.flowAcquire with
        | (flow, .exit) => { s with conn := { s.conn with flow } }
        | (flow, .granted id exceeded) =>
            { s with conn := { s.conn with flow }, popping := some ⟨m, rest, id, exceeded⟩ }
    | .unacknowledged pkt :: rest =>
        { s with conn := ({ s.conn with txQMessages := rest } : Outbound).store pkt }

/-- The rest of `qPopPacket`. -/
def endPop (s : Quota) : Quota :=
  match s.popping with
  | none => s
  | some p => { s with conn := s.conn.endPop p.m p.rest p.id p.exceeded, popping := none }

/-- `flowRelease`, with the `signalQuota` that follows if it returns true. -/
def flowRelease (s : Quota) (id : IDType) : Quota :=
  let (flow, wake) := s.conn.flow.flowRelease id
  { s with
    conn := { s.conn with flow }
    signals := if wake then s.signals + 1 else s.signals }

/-- What can happen next. -/
inductive Op where
  | push (m : Publish)
  | beginPop
  | endPop
  | flowRelease (id : IDType)
  | signalQuota
  | close

/-- One step. What takes the lock waits while a pop holds it, and only identifiers in use are
given back. -/
def step (s : Quota) : Op → Quota
  | .push m => if s.popping.isSome then s else { s with conn := s.conn.qPush (.publish m) }
  | .beginPop => if s.popping.isSome then s else s.beginPop
  | .endPop => s.endPop
  | .flowRelease id => if id ∈ s.conn.flow.flowInUse then s.flowRelease id else s
  | .signalQuota =>
      if s.popping.isSome ∨ s.signals = 0 then s
      else { s with conn := s.conn.signalQuota, signals := s.signals - 1 }
  | .close => { s with conn := { s.conn with flow := { s.conn.flow with quit := true } } }

/-- A pop begins as it does in the send window. -/
theorem beginPop_window (s : Quota) (w : Window) (conn : w.conn = s.conn)
    (popping : w.popping = s.popping) :
    s.beginPop = ⟨w.beginPop.conn, w.beginPop.popping, s.signals⟩ := by
  simp only [beginPop, Window.beginPop, conn]
  by_cases exceeded : s.conn.txQuotaExceeded = true
  · simp [exceeded, conn, popping]
  · simp only [exceeded, Bool.false_eq_true, if_false]
    cases s.conn.txQMessages with
    | nil => simp [conn, popping]
    | cons front rest =>
        cases front with
        | unacknowledged pkt => simp [popping]
        | publish m =>
            rcases s.conn.flow.flowAcquire with ⟨flow, acquired⟩
            cases acquired with
            | exit => simp [popping]
            | granted id exceeded => simp

/-- Without interference, the two steps of a pop are `qPopPacket`. -/
theorem pop_uninterrupted {s : Quota} (free : s.popping = none) :
    ([.beginPop, .endPop].foldl step s).conn = s.conn.qPopPacket.1 := by
  have window := @Window.pop_uninterrupted ⟨s.conn, none, [], [], []⟩ rfl
  have begun := beginPop_window s ⟨s.conn, none, [], [], []⟩ rfl free.symm
  simp only [List.foldl_cons, List.foldl_nil, Window.step, step, free, Option.isSome_none,
    Bool.false_eq_true, if_false] at window ⊢
  rw [← window, begun]
  generalize (⟨s.conn, none, [], [], []⟩ : Window).beginPop = w
  simp only [endPop, Window.endPop]
  cases w.popping <;> rfl

/-- Without interference, a release and its signal are what the acknowledgement handlers do. -/
theorem flowRelease_uninterrupted {s : Quota} (free : s.popping = none) (quiet : s.signals = 0)
    {id : IDType} (used : id ∈ s.conn.flow.flowInUse) :
    ([.flowRelease id, .signalQuota].foldl step s).conn = s.conn.flowReleaseSignal id := by
  rcases run : s.conn.flow.flowRelease id with ⟨flow, wake⟩
  simp only [List.foldl_cons, List.foldl_nil, step, used, if_true, flowRelease, run,
    Outbound.flowReleaseSignal]
  cases wake <;> simp [free, quiet]

/-- The flag is set, or a pop that holds the lock is going to set it. -/
def Stopped (s : Quota) : Prop :=
  s.conn.txQuotaExceeded = true ∨ ∃ p, s.popping = some p ∧ p.exceeded = true

/-- The invariant of a connection whose quota was `limit` at first. -/
structure Coherent (limit : ℤ) (s : Quota) : Prop where
  positive : 0 ≤ s.conn.flow.SendQuota
  bounded : s.conn.flow.SendQuota + s.conn.flow.flowInUse.card ≤ limit
  stopped : s.Stopped ↔ s.conn.flow.SendQuota = 0 ∨ s.signals ≠ 0
  woken : s.signals ≠ 0 → 1 ≤ s.conn.flow.SendQuota
  once : s.signals ≤ 1

/-- The search for an identifier takes at most one. -/
theorem card_probe_le (rounds : ℕ) (flowCounter : UInt64) (flowInUse : Finset IDType) :
    (Flow.probe rounds flowCounter flowInUse).2.2.card ≤ flowInUse.card + 1 := by
  induction rounds generalizing flowCounter with
  | zero => exact Nat.le_succ _
  | succ rounds ih =>
      simp only [Flow.probe]
      split
      · exact ih _
      · exact Finset.card_insert_le _ _

/-- While the connection is open, `flowAcquire` takes a unit of the quota and at most one
identifier. -/
theorem flowAcquire_open {flow : Flow} (isOpen : flow.quit = false) :
    ∃ flowCounter id flowInUse, flowInUse.card ≤ flow.flowInUse.card + 1 ∧
      flow.flowAcquire = (⟨addInt32 flow.SendQuota (-1), flowCounter, flowInUse, flow.quit⟩,
        .granted id (addInt32 flow.SendQuota (-1) == 0)) := by
  have taken := card_probe_le 65536 flow.flowCounter flow.flowInUse
  rcases found : Flow.probe 65536 flow.flowCounter flow.flowInUse with ⟨flowCounter, id, flowInUse⟩
  rw [found] at taken
  refine ⟨flowCounter, id, flowInUse, taken, ?_⟩
  simp only [Flow.flowAcquire, isOpen, found, Bool.false_eq_true, if_false]

section Steps

variable {limit : ℤ} {s : Quota}

theorem Coherent.beginPop (coherent : s.Coherent limit) (small : limit < 2 ^ 31)
    (free : s.popping = none) : s.beginPop.Coherent limit := by
  unfold Quota.beginPop
  split
  · exact coherent
  · rename_i allowed
    split
    · exact coherent
    · cases closed : s.conn.flow.quit with
      | true =>
          simp only [Flow.flowAcquire, closed, if_true]
          exact coherent
      | false =>
          -- nothing stops the transmitter, so there is a unit left and no signal is due
          have running : ¬s.Stopped := by
            rintro (flag | ⟨p, popping, _⟩)
            · exact allowed flag
            · simp [free] at popping
          rw [coherent.stopped, not_or, not_not] at running
          have positive := coherent.positive
          have bounded := coherent.bounded
          rcases flowAcquire_open closed with ⟨flowCounter, id, flowInUse, taken, run⟩
          rw [run, addInt32_eq (by omega) (by omega)]
          refine ⟨?_, ?_, ?_, fun due => absurd running.2 due, coherent.once⟩
          · simp only
            omega
          · simp only
            omega
          · simp [Stopped, allowed, running.2]
    · exact ⟨coherent.positive, coherent.bounded, coherent.stopped, coherent.woken, coherent.once⟩

theorem Coherent.endPop (coherent : s.Coherent limit) : s.endPop.Coherent limit := by
  unfold Quota.endPop
  split
  · exact coherent
  · rename_i p popping
    refine ⟨coherent.positive, coherent.bounded, ?_, coherent.woken, coherent.once⟩
    apply Iff.trans _ coherent.stopped
    simp [Stopped, popping, Outbound.endPop, Outbound.store]

theorem Coherent.flowRelease (coherent : s.Coherent limit) (small : limit < 2 ^ 31) {id : IDType}
    (used : id ∈ s.conn.flow.flowInUse) : (s.flowRelease id).Coherent limit := by
  have positive := coherent.positive
  have bounded := coherent.bounded
  have woken := coherent.woken
  have once := coherent.once
  have some := Finset.card_pos.mpr ⟨id, used⟩
  have fewer := Finset.card_erase_of_mem used
  have quota : addInt32 s.conn.flow.SendQuota 1 = s.conn.flow.SendQuota + 1 :=
    addInt32_eq (by omega) (by omega)
  simp only [Quota.flowRelease, Flow.flowRelease, quota]
  by_cases last : s.conn.flow.SendQuota = 0
  · -- the first unit given back: the side is stopped, and a signal becomes due
    have stopped : s.Stopped := coherent.stopped.mpr (Or.inl last)
    simp only [last, zero_add, BEq.rfl, if_true]
    refine ⟨by simp, ?_, ?_, by simp, by simp only; omega⟩
    · simp only
      omega
    · exact iff_of_true stopped (Or.inr (Nat.succ_ne_zero _))
  · have further : (s.conn.flow.SendQuota + 1 == 1) = false := by
      simpa using last
    simp only [further, Bool.false_eq_true, if_false]
    refine ⟨by simp only; omega, ?_, ?_, ?_, once⟩
    · simp only
      omega
    · apply Iff.trans coherent.stopped
      simp only [last, false_or]
      omega
    · intro due
      simp only
      omega

theorem Coherent.signalQuota (coherent : s.Coherent limit) (free : s.popping = none)
    (due : s.signals ≠ 0) :
    ({ s with conn := s.conn.signalQuota, signals := s.signals - 1 } : Quota).Coherent limit := by
  have once := coherent.once
  have woken := coherent.woken due
  have last : s.signals - 1 = 0 := by omega
  refine ⟨coherent.positive, coherent.bounded, ?_, ?_, by simp only; omega⟩
  · simp only [Stopped, Outbound.signalQuota, free, last]
    simp
    omega
  · intro more
    exact absurd last more

theorem Coherent.step (coherent : s.Coherent limit) (small : limit < 2 ^ 31) (op : Op) :
    (s.step op).Coherent limit := by
  cases op with
  | push m =>
      simp only [Quota.step]
      split
      · exact coherent
      · exact ⟨coherent.positive, coherent.bounded, coherent.stopped, coherent.woken,
          coherent.once⟩
  | beginPop =>
      simp only [Quota.step]
      split
      · exact coherent
      · rename_i free
        exact coherent.beginPop small (by simpa using free)
  | endPop => exact coherent.endPop
  | flowRelease id =>
      simp only [Quota.step]
      split
      · rename_i used
        exact coherent.flowRelease small used
      · exact coherent
  | signalQuota =>
      simp only [Quota.step]
      split
      · exact coherent
      · rename_i ready
        rw [not_or] at ready
        exact coherent.signalQuota (by simpa using ready.1) ready.2
  | close =>
      exact ⟨coherent.positive, coherent.bounded, coherent.stopped, coherent.woken, coherent.once⟩

theorem Coherent.run (coherent : s.Coherent limit) (small : limit < 2 ^ 31) (ops : List Op) :
    (ops.foldl Quota.step s).Coherent limit := by
  induction ops generalizing s with
  | nil => exact coherent
  | cons op ops ih => exact ih (coherent.step small op)

end Steps

theorem coherent_new (Version : ProtocolVersion) {SendQuota : Int32}
    (positive : 1 ≤ SendQuota.toInt) : (new Version SendQuota).Coherent SendQuota.toInt := by
  refine ⟨by simp only [new]; omega, by simp [new], ?_, by simp [new], by simp [new]⟩
  simp [Stopped, new]
  omega

/-- In every run of a connection that starts with a quota of at least one, with calls of
`flowRelease` for identifiers in use and their `signalQuota` at any time, whenever no pop is in
progress and no `signalQuota` is due the flag is set if and only if the quota is used up. -/
theorem txQuotaExceeded_iff (Version : ProtocolVersion) {SendQuota : Int32}
    (positive : 1 ≤ SendQuota.toInt) (ops : List Op) :
    let s := ops.foldl step (new Version SendQuota)
    s.popping = none → s.signals = 0 →
      (s.conn.txQuotaExceeded = true ↔ s.conn.flow.SendQuota ≤ 0) := by
  intro s free quiet
  have coherent : s.Coherent SendQuota.toInt :=
    (coherent_new Version positive).run SendQuota.toInt_lt ops
  have nonnegative := coherent.positive
  calc s.conn.txQuotaExceeded = true
      ↔ s.Stopped := by simp [Stopped, free]
    _ ↔ s.conn.flow.SendQuota = 0 := by simp [coherent.stopped, quiet]
    _ ↔ s.conn.flow.SendQuota ≤ 0 := by omega

/-- With a quota of one, the packet is acknowledged before the pop that took the last unit has set
the flag, and its `signalQuota` comes after. -/
def earlyRelease : List Op :=
  [.push (.new ProtocolV50), .beginPop, .flowRelease 1, .endPop, .signalQuota]

/-- Nothing is under way at the end, and the flag is not set. -/
theorem earlyRelease_resumes :
    let s := earlyRelease.foldl step (new ProtocolV50 1)
    1 ≤ (1 : Int32).toInt ∧ s.popping = none ∧ s.signals = 0 ∧
      ¬s.conn.txQuotaExceeded = true ∧ s.conn.flow.SendQuota = 1 := by
  intro s
  have positive : 1 ≤ (1 : Int32).toInt := by decide
  have free : s.popping = none := by decide +kernel
  have quiet : s.signals = 0 := by decide +kernel
  have quota : s.conn.flow.SendQuota = 1 := by decide +kernel
  have agree := txQuotaExceeded_iff ProtocolV50 positive earlyRelease free quiet
  refine ⟨positive, free, quiet, ?_, quota⟩
  intro flag
  have used : s.conn.flow.SendQuota ≤ 0 := agree.mp flag
  omega

end Quota

end VolantMQ.Connection
