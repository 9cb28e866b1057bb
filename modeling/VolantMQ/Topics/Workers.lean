import VolantMQ.Lib.Drain
import VolantMQ.Lib.Run
import VolantMQ.Topics.Refinement

/-!
# The goroutines of the topics provider

The provider has two channels and a goroutine for each of them. Callers put messages into the
channels with `Publish` and `Retain`. The publisher and the retainer take them out one at a time
and handle each one under the mutex `smu`, under which `Subscribe`, `UnSubscribe`, `Retained` and
`Close` run as well. `Close` keeps the mutex while it waits for both goroutines to end.

A channel has no bound here: a caller that finds it full waits, and sends when there is room. What
a subscriber is given is recorded, be it in the answer to `Subscribe` or by the publisher.
-/

namespace VolantMQ.Topics

open Lib Packet

/-- The threads that hold `smu` over several steps. -/
inductive Thread where
  | publisher
  | retainer
  | closer
  deriving DecidableEq, Repr

/-- Where `Close` is: before it has the mutex, with the mutex, with `inbound` closed, with both
channels closed and waiting for the goroutines, at its end. -/
inductive Closer where
  | started
  | locked
  | closing
  | waiting
  | returned
  deriving DecidableEq, Repr

/-- A provider with its channels, goroutines and mutex. -/
structure Workers where
  topics : Provider
  inbound : Drain Publish
  inRetained : Drain RetainObject
  closer : Closer
  smu : Option Thread
  /-- What subscribers have been given so far. -/
  given : List (Hash × Publish)

namespace Workers

/-- A provider that has just been created. -/
def new : Workers := ⟨.new, .new, .new, .started, none, []⟩

/-- What the publisher gives to subscribers for a message. -/
def deliveries (mT : Provider) (msg : Publish) : List (Hash × Publish) :=
  (NodeData.flat (mT.subscriptionSearch msg.topic msg.publishID)).map fun e => (e.s, msg)

/-- A step of `provider.publisher`. -/
def publisher (w : Workers) : Workers :=
  let (inbound, move) := w.inbound.step w.smu.isNone
  { w with
    inbound
    smu := move.owner .publisher w.smu
    given :=
      match move with
      | .unlock msg => w.given ++ deliveries w.topics msg
      | _ => w.given }

/-- A step of `provider.retainer`. -/
def retainer (w : Workers) : Workers :=
  let (inRetained, move) := w.inRetained.step w.smu.isNone
  { w with
    inRetained
    smu := move.owner .retainer w.smu
    topics :=
      match move with
      | .unlock obj => w.topics.retain obj
      | _ => w.topics }

/-- A step of `provider.Close`. -/
def close (w : Workers) : Workers :=
  match w.closer with
  | .started => if w.smu.isNone then { w with closer := .locked, smu := some .closer } else w
  | .locked => { w with closer := .closing, inbound := w.inbound.close }
  | .closing => { w with closer := .waiting, inRetained := w.inRetained.close }
  | .waiting =>
      match w.inbound.worker, w.inRetained.worker with
      | .done, .done => { w with closer := .returned, smu := none }
      | _, _ => w
  | .returned => w

def tick (w : Workers) : Thread → Workers
  | .publisher => w.publisher
  | .retainer => w.retainer
  | .closer => w.close

/-- Whether a call can go on to use the trie: `smu` is free, and `Close` has not dropped it. -/
def ready (w : Workers) : Bool := w.smu.isNone && w.closer != .returned

/-- What the answer to a call gives to a subscriber. -/
def answer (mT : Provider) : Provider.Op → List (Hash × Publish)
  | .subscribe filter s p now => (mT.subscribe filter s p now).2.retained.map fun m => (s, m)
  | _ => []

/-- A call by a client. `Retain` only sends; the others run under the mutex, and a call that does
not find it free has no effect yet. -/
def call (w : Workers) (op : Provider.Op) : Workers :=
  match op with
  | .retain obj => { w with inRetained := w.inRetained.send obj }
  | _ =>
      if w.ready then
        { w with topics := (w.topics.step op).1, given := w.given ++ answer w.topics op }
      else w

/-- What can happen next: a call, a call of `Publish`, or a step of a thread. -/
inductive Act where
  | call (op : Provider.Op)
  | publish (m : Publish)
  | tick (thread : Thread)

def act (w : Workers) : Act → Workers
  | .call op => w.call op
  | .publish m => { w with inbound := w.inbound.send m }
  | .tick thread => w.tick thread

/-- Any number of calls and steps, in any order. -/
def run (w : Workers) (acts : List Act) : Workers := acts.foldl act w

/-- Steps of the threads alone. -/
def schedule (w : Workers) (threads : List Thread) : Workers := threads.foldl tick w

/-- The mutex belongs to the thread that is where it says, and only `Close` closes the channels
and lets the goroutines end. -/
structure Coherent (w : Workers) : Prop where
  publisher : w.smu = some .publisher ↔ w.inbound.worker.Locks
  retainer : w.smu = some .retainer ↔ w.inRetained.worker.Locks
  closer : w.smu = some .closer ↔ w.closer ≠ .started ∧ w.closer ≠ .returned
  inbound : w.inbound.worker = .done → w.inbound.closed = true
  inRetained : w.inRetained.worker = .done → w.inRetained.closed = true
  usable : w.closer = .started → w.inbound.closed = false ∧ w.inRetained.closed = false

theorem coherent_new : new.Coherent where
  publisher := by simp [new, Drain.new, Worker.Locks]
  retainer := by simp [new, Drain.new, Worker.Locks]
  closer := by simp [new]
  inbound := by simp [new, Drain.new]
  inRetained := by simp [new, Drain.new]
  usable := by simp [new, Drain.new]

variable {w : Workers}

theorem Coherent.publisher_step (coherent : w.Coherent) : w.publisher.Coherent := by
  have owner := Drain.owner_step coherent.publisher
  exact
    { publisher := owner.1
      retainer := (owner.2 .retainer (by decide)).trans coherent.retainer
      closer := (owner.2 .closer (by decide)).trans coherent.closer
      inbound := fun done => Drain.closed_step.trans (Drain.done_step coherent.inbound done)
      inRetained := coherent.inRetained
      usable := fun started =>
        ⟨Drain.closed_step.trans (coherent.usable started).1, (coherent.usable started).2⟩ }

theorem Coherent.retainer_step (coherent : w.Coherent) : w.retainer.Coherent := by
  have owner := Drain.owner_step coherent.retainer
  exact
    { publisher := (owner.2 .publisher (by decide)).trans coherent.publisher
      retainer := owner.1
      closer := (owner.2 .closer (by decide)).trans coherent.closer
      inbound := coherent.inbound
      inRetained := fun done => Drain.closed_step.trans (Drain.done_step coherent.inRetained done)
      usable := fun started =>
        ⟨(coherent.usable started).1, Drain.closed_step.trans (coherent.usable started).2⟩ }

theorem Coherent.close_step (coherent : w.Coherent) : w.close.Coherent := by
  have holds := coherent.closer
  unfold close
  cases state : w.closer with
  | started =>
      cases free : w.smu with
      | none =>
          exact
            { coherent with
              publisher := iff_of_false (by simp) fun locks => by
                simpa [free] using coherent.publisher.mpr locks
              retainer := iff_of_false (by simp) fun locks => by
                simpa [free] using coherent.retainer.mpr locks
              closer := iff_of_true rfl (by simp)
              usable := by simp }
      | some owner => exact coherent
  | locked =>
      exact
        { coherent with
          closer := iff_of_true (holds.mpr (by simp [state])) (by simp)
          inbound := fun _ => rfl
          usable := by simp }
  | closing =>
      exact
        { coherent with
          closer := iff_of_true (holds.mpr (by simp [state])) (by simp)
          inRetained := fun _ => rfl
          usable := by simp }
  | waiting =>
      simp only
      split
      · rename_i published retained
        exact
          { coherent with
            publisher := iff_of_false (by simp) (by simp [published, Worker.Locks])
            retainer := iff_of_false (by simp) (by simp [retained, Worker.Locks])
            closer := iff_of_false (by simp) (by simp)
            usable := by simp }
      · exact coherent
  | returned => exact coherent

theorem Coherent.tick_step (coherent : w.Coherent) (thread : Thread) : (w.tick thread).Coherent := by
  cases thread with
  | publisher => exact coherent.publisher_step
  | retainer => exact coherent.retainer_step
  | closer => exact coherent.close_step

/-- Nothing that a caller does to the trie touches the threads. -/
theorem Coherent.retopics (coherent : w.Coherent) (topics : Provider)
    (given : List (Hash × Publish)) : { w with topics, given : Workers }.Coherent :=
  ⟨coherent.publisher, coherent.retainer, coherent.closer, coherent.inbound, coherent.inRetained,
    coherent.usable⟩

/-- What a call does. -/
theorem call_cases (w : Workers) (op : Provider.Op) :
    (∃ obj, op = .retain obj ∧ w.call op = { w with inRetained := w.inRetained.send obj }) ∨
      ((∀ obj, op ≠ .retain obj) ∧ w.ready = true ∧
        w.call op =
          { w with topics := (w.topics.step op).1, given := w.given ++ answer w.topics op }) ∨
      ((∀ obj, op ≠ .retain obj) ∧ w.ready = false ∧ w.call op = w) := by
  by_cases sends : ∃ obj, op = .retain obj
  · rcases sends with ⟨obj, rfl⟩
    exact .inl ⟨obj, rfl, rfl⟩
  · have other : ∀ obj, op ≠ .retain obj := fun obj same => sends ⟨obj, same⟩
    right
    cases free : w.ready with
    | false => right; cases op <;> simp_all [call]
    | true => left; cases op <;> simp_all [call]

theorem Coherent.call_step (coherent : w.Coherent) (op : Provider.Op) : (w.call op).Coherent := by
  rcases call_cases w op with ⟨obj, -, same⟩ | ⟨-, -, same⟩ | ⟨-, -, same⟩
  · rw [same]
    exact
      { coherent with
        retainer := by simpa using coherent.retainer
        inRetained := by simpa using coherent.inRetained
        usable := by simpa using coherent.usable }
  · rw [same]
    exact coherent.retopics _ _
  · rw [same]
    exact coherent

theorem Coherent.act_step (coherent : w.Coherent) (next : Act) : (w.act next).Coherent := by
  cases next with
  | call op => exact coherent.call_step op
  | publish m =>
      exact
        { coherent with
          publisher := by simpa [act] using coherent.publisher
          inbound := by simpa [act] using coherent.inbound
          usable := by simpa [act] using coherent.usable }
  | tick thread => exact coherent.tick_step thread

theorem coherent_run (acts : List Act) : (new.run acts).Coherent :=
  invariant_run Coherent (fun _ next coherent => coherent.act_step next) coherent_new acts

end Workers

end VolantMQ.Topics
