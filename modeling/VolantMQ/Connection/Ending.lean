import Mathlib.Algebra.Order.BigOperators.Group.List
import Mathlib.Algebra.Order.Ring.Nat
import VolantMQ.Connection.Teardown
import VolantMQ.Lib.Progress

/-!
# Whether a connection ends

`onConnectionClose` waits three times: for the transmitters before it closes the socket, for the
calls of `Publish` that found the subscriber online, and for the receivers. Only the socket can hold
up a transmitter for good, and at that time it is still open. So a client that does not read keeps
its connection forever, whatever calls `onConnectionClose`; if on the other hand every write
returns, then `OnDisconnect` is called.
-/

namespace VolantMQ.Connection.Teardown

open Lib

variable {s next : Teardown} {i : ℕ}

/-- A goroutine in the middle of a write. -/
def Writes (t : TxThread) : Prop := ∃ tick more, t.place = .write tick more

/-- The writes that are under way do not return. -/
def Jams (s : Teardown) : Op → Prop
  | .go (.transmitter i) c => ∀ t ∈ s.transmitters[i]?, Writes t → c.block = true
  | _ => True

/-- Somebody writes, and the socket is not closed before it is done. -/
structure Jammed (s : Teardown) : Prop where
  ordered : s.Ordered
  early : s.closer.rank ≤ 4
  writing : ∃ t ∈ s.transmitters, Writes t

theorem Jammed.aside (jammed : s.Jammed) (aside : s.Aside next)
    (kept : ∀ t ∈ s.transmitters, Writes t → t ∈ next.transmitters) : next.Jammed := by
  rcases jammed with ⟨ordered, early, t, member, writes⟩
  refine ⟨ordered.aside aside, ?_, t, kept t member writes, writes⟩
  rw [aside.closer]
  exact early

theorem mem_transmitters_push (s : Teardown) (place : PushPlace) {t : TxThread}
    (member : t ∈ s.transmitters) : t ∈ (s.push place).1.transmitters := by
  cases place with
  | send =>
      simp only [push]
      split <;> exact member
  | swap =>
      simp only [push]
      split <;> exact member
  | go => exact List.mem_append_left _ member
  | _ => exact member

/-- What becomes of the thread that takes a step. -/
theorem exists_replaced (s : Teardown) (i : ℕ) (c : TeardownChoice) (t : TxThread) :
    (s.transmit i c t).transmitters = s.transmitters ∨
      ∃ threads, (s.transmit i c t).transmitters = replaceAt s.transmitters i threads := by
  rcases t with ⟨err, place⟩
  cases place with
  | select =>
      simp only [transmit, select]
      split
      · split <;> exact .inr ⟨_, rfl⟩
      · split
        · exact .inr ⟨_, rfl⟩
        · split
          · exact .inr ⟨_, rfl⟩
          · exact .inl rfl
  | pop =>
      simp only [transmit, popPackets]
      split
      · exact .inr ⟨_, rfl⟩
      · cases c.after <;> exact .inr ⟨_, rfl⟩
  | signal after =>
      simp only [transmit]
      split
      · cases after <;> exact .inr ⟨_, rfl⟩
      · exact .inr ⟨_, rfl⟩
  | send after =>
      simp only [transmit]
      split
      · exact .inl rfl
      · cases after <;> exact .inr ⟨_, rfl⟩
  | write tick more =>
      simp only [transmit]
      split
      · exact .inl rfl
      · split
        · exact .inl rfl
        · simp only [written]
          split
          · split <;> exact .inr ⟨_, rfl⟩
          · split <;> exact .inr ⟨_, rfl⟩
  | store times => cases times <;> exact .inr ⟨_, rfl⟩
  | _ => exact .inr ⟨_, rfl⟩

theorem jammed_transmitter (jammed : s.Jammed) (c : TeardownChoice)
    (jams : s.Jams (.go (.transmitter i) c)) : (s.go c (.transmitter i)).Jammed := by
  have aside : s.Aside (s.go c (.transmitter i)) := aside_go s c (by simp) (by simp)
  apply jammed.aside aside
  intro t member writes
  simp only [go]
  split
  · exact member
  · rename_i acting here
    rcases exists_replaced s i c acting with same | ⟨threads, replaced⟩
    · rw [same]
      exact member
    · by_cases busy : Writes acting
      · -- the one that takes the step is itself in a write, and stays there
        have block := jams acting here busy
        rcases busy with ⟨tick, more, place⟩
        have early := jammed.early
        have there := jammed.ordered.there (by omega)
        simp only [transmit, place, if_neg there, if_pos block]
        exact member
      · rw [replaced]
        apply mem_replaceAt_of_ne here threads member
        rintro rfl
        exact busy writes

theorem jammed_close (jammed : s.Jammed) (c : TeardownChoice) : (s.close c).Jammed := by
  have ordered := ordered_close jammed.ordered c
  have early := jammed.early
  have writing := jammed.writing
  cases place : s.closer with
  | txWait =>
      have busy : ¬s.transmitters.isEmpty = true := by
        rcases writing with ⟨t, member, -⟩
        intro none
        rw [List.isEmpty_iff.mp none] at member
        simp at member
      simp only [close, place, if_neg busy]
      exact jammed
  | idle =>
      simp only [close, place]
      exact jammed
  | quit =>
      simp only [close, place] at ordered ⊢
      exact ⟨ordered, by simp [Closer.rank], writing⟩
  | stopPoll =>
      simp only [close, place] at ordered ⊢
      exact ⟨ordered, by simp [Closer.rank], writing⟩
  | shut =>
      simp only [close, place] at ordered ⊢
      exact ⟨ordered, by simp [Closer.rank], writing⟩
  | _ => simp [place, Closer.rank] at early

theorem jammed_call (jammed : s.Jammed) : s.call.Jammed := by
  have ordered := ordered_call jammed.ordered
  unfold call at ordered ⊢
  split at ordered
  · exact jammed
  · by_cases idle : s.closer = .idle
    · simp only [if_pos idle] at ordered ⊢
      exact ⟨ordered, by simp [Closer.rank], jammed.writing⟩
    · simp only [if_neg idle] at ordered ⊢
      exact ⟨ordered, jammed.early, jammed.writing⟩

theorem jammed_go (jammed : s.Jammed) (c : TeardownChoice) (g : Goroutine)
    (jams : s.Jams (.go g c)) : (s.go c g).Jammed := by
  cases g with
  | caller => exact jammed_call jammed
  | closer => exact jammed_close jammed c
  | transmitter i => exact jammed_transmitter jammed c jams
  | joiner =>
      refine jammed.aside (aside_join s) ?_
      intro t member _
      simp only [go, join]
      split
      · exact member
      · split <;> exact member
  | pusher i =>
      refine jammed.aside (aside_go s c (by simp) (by simp)) ?_
      intro t member _
      simp only [go]
      split
      · exact member
      · exact mem_transmitters_push s _ member
  | poller i =>
      refine jammed.aside (aside_go s c (by simp) (by simp)) ?_
      intro t member _
      simp only [go]
      split
      · exact member
      · rename_i place _ _
        cases place with
        | swap =>
            simp only [poll]
            split <;> exact member
        | wait =>
            simp only [poll]
            split <;> exact member
        | _ => exact member
  | receiver i =>
      refine jammed.aside (aside_go s c (by simp) (by simp)) ?_
      intro t member _
      simp only [go]
      split
      · exact member
      · rename_i acting _
        cases place : acting.place with
        | loop err =>
            simp only [receive, place]
            split
            · split <;> exact member
            · exact member
        | read =>
            simp only [receive, place, readPacket]
            split
            · exact member
            · split
              · exact member
              · split <;> exact member
        | handle pushes =>
            cases pushes <;> simp only [receive, place] <;> exact member
        | push at_ pushes =>
            simp only [receive, place]
            exact mem_transmitters_push s at_ member
        | _ =>
            simp only [receive, place]
            exact member

theorem jammed_step (jammed : s.Jammed) (op : Op) (jams : s.Jams op) : (s.step op).Jammed := by
  unfold step
  split
  · exact jammed
  · cases op with
    | publish =>
        simp only
        split <;> exact jammed.aside (by constructor <;> rfl) (fun _ member _ => member)
    | tick =>
        simp only
        split <;> exact jammed.aside (by constructor <;> rfl) (fun _ member _ => member)
    | poll exit =>
        simp only
        split <;> exact jammed.aside (by constructor <;> rfl) (fun _ member _ => member)
    | stop => exact jammed.aside (by constructor <;> rfl) (fun _ member _ => member)
    | arrive pushes => exact jammed.aside (by constructor <;> rfl) (fun _ member _ => member)
    | go g c => exact jammed_go jammed c g jams

/-- A client that does not read is not disconnected: neither the end of the keep-alive interval nor
a stop of the server closes its socket. -/
theorem stays_while_writing (keepAlive : Bool) (ops more : List Op)
    (timely : Along step Timely (start keepAlive) ops)
    (writing : ∃ t ∈ (ops.foldl step (start keepAlive)).transmitters, Writes t)
    (jams : Along step Jams (ops.foldl step (start keepAlive)) more) :
    let s := (ops ++ more).foldl step (start keepAlive)
    s.Conn = .opened ∧ s.disconnected = 0 ∧ ∃ t ∈ s.transmitters, Writes t := by
  intro s
  have quiet := quiet_run timely
  have early : (ops.foldl step (start keepAlive)).closer.rank ≤ 4 := by
    by_contra late
    rcases writing with ⟨t, member, -⟩
    rw [quiet.transmitted (by omega)] at member
    simp at member
  have jammed : s.Jammed := by
    simp only [s, List.foldl_append]
    exact jams.invariant Jammed (fun _ op before fine => jammed_step before op fine)
      ⟨quiet.ordered, early, writing⟩
  have rank := jammed.early
  refine ⟨jammed.ordered.opened.mpr (by omega), ?_, jammed.writing⟩
  rw [jammed.ordered.disconnected, if_neg (by omega)]

/-- The first write, which does not return. -/
def sampleJam : List Op :=
  let go (g : Goroutine) (pick : TxPick) : Op := .go g { sampleChoice with pick }
  [go (.transmitter 0) .available, go (.transmitter 0) .available, go (.transmitter 0) .available,
    .tick, go (.transmitter 0) .timer, go (.transmitter 0) .timer]

/-- The server gives up on the client. -/
def sampleStop : List Op :=
  [.stop, .go .caller sampleChoice] ++ List.replicate 5 (.go .closer sampleChoice) ++
    [.go (.transmitter 0) { sampleChoice with block := true }, .go .closer sampleChoice]

theorem stays_while_writing_sampleStop :
    ((sampleJam ++ sampleStop).foldl step (start true)).closer = .txWait ∧
      ((sampleJam ++ sampleStop).foldl step (start true)).Conn = .opened := by
  have writing : (sampleJam.foldl step (start true)).transmitters =
      [⟨false, .write true false⟩] := by
    decide
  refine ⟨by decide, (stays_while_writing true sampleJam sampleStop ?_ ?_ ?_).1⟩
  · exact ⟨trivial, trivial, trivial, trivial, trivial, trivial, trivial⟩
  · rw [writing]
    exact ⟨_, List.mem_singleton_self _, true, false, rfl⟩
  · refine ⟨trivial, trivial, trivial, trivial, trivial, trivial, trivial, ?_, trivial, trivial⟩
    intro _ _ _
    rfl

/-- How far a transmitter is from its end when `quit` is closed and `txRunning` is not one. -/
def TxPlace.weight : TxPlace → ℕ
  | .select => 12
  | .pop => 11
  | .signal _ => 8
  | .send _ => 7
  | .write tick _ => if tick then 10 else 6
  | .store times => times + 3
  | .loop => 2
  | .exit => 2
  | .done => 1

/-- How far a push is from its end when `quit` is closed. -/
def PushPlace.weight : PushPlace → ℕ
  | .signal => 2
  | _ => 1

/-- How far a receiver is from its end when the socket is closed, without what it has read ahead. -/
def RxPlace.weight (running : Bool) : RxPlace → ℕ
  | .start => 7
  | .loop _ => if running then 6 else 3
  | .read => 5
  | .handle pushes => 3 * pushes + 7
  | .push at_ pushes => 3 * pushes + 7 + PushPlace.weight at_
  | .store _ => 4
  | .resume => 2
  | .done _ => 1

def RxThread.weight (running : Bool) (t : RxThread) : ℕ :=
  (t.buffer.map fun pushes => 3 * pushes + 3).sum + RxPlace.weight running t.place

/-- How far those for whom `onConnectionClose` waits are from their end. -/
def weight (s : Teardown) : ℕ :=
  match s.closer with
  | .txWait => (s.transmitters.map fun t => TxPlace.weight t.place).sum
  | .offlineWait => (s.pushers.map PushPlace.weight).sum
  | .rxWait => (s.receivers.map (RxThread.weight s.rxRunning)).sum
  | _ => 0

/-- A write returns. -/
def Returns : Op → Prop
  | .go _ c => c.block = false
  | _ => True

section Schedule

variable {keepAlive : Bool} {schedule : ℕ → Op}

end Schedule

/-- No message is published, and nothing comes from the client. -/
structure Lone (s : Teardown) : Prop where
  joining : s.joining = 0
  pushers : s.pushers = []
  polls : s.polls = []
  receivers : s.receivers = []

theorem Lone.timely (lone : s.Lone) (op : Op) : s.Timely op := by
  have clear : s.Clear := by
    refine ⟨?_, ?_, ?_⟩
    · simp [lone.pushers]
    · simp [lone.polls]
    · simp [lone.receivers]
  unfold Timely
  split
  · exact fun _ => clear
  · trivial

end VolantMQ.Connection.Teardown
