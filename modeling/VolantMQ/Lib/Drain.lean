import Mathlib.Data.List.Basic
import Mathlib.Tactic.Common

/-!
# Draining a channel under a lock

A channel with the one goroutine that ranges over it and handles each message while it holds a
lock that others use as well. What has been sent and not yet handled is `pending`: the message the
goroutine has in its hands, and behind it what is in the channel. Apart from taking the lock, a
step of the goroutine either leaves the pending messages as they are or handles the first of them.
-/

namespace Lib

/-- Where the goroutine is: at the channel, with a message before the lock, with a message inside
the lock, or at its end. -/
inductive Worker (μ : Type) where
  | idle
  | waiting (message : μ)
  | locked (message : μ)
  | done

namespace Worker

variable {μ : Type}

/-- The message in the hands of the goroutine. -/
def hand : Worker μ → List μ
  | waiting message | locked message => [message]
  | idle | done => []

/-- The goroutine waits for the lock. -/
def Waits (worker : Worker μ) : Prop := ∃ message, worker = waiting message

/-- The goroutine holds the lock. -/
def Locks (worker : Worker μ) : Prop := ∃ message, worker = locked message

end Worker

/-- A channel and the goroutine that drains it. -/
structure Drain (μ : Type) where
  queue : List μ
  closed : Bool
  worker : Worker μ

/-- What a step of the goroutine does to the lock. Giving it back ends the handling of a message. -/
inductive Move (μ : Type) where
  | stay
  | lock
  | unlock (message : μ)

/-- The owner of the lock after a step of a thread. -/
def Move.owner {μ τ : Type} (self : τ) (before : Option τ) : Move μ → Option τ
  | stay => before
  | lock => some self
  | unlock _ => none

namespace Drain

variable {μ : Type}

/-- An empty channel. -/
def new : Drain μ := ⟨[], false, .idle⟩

/-- Sending to a closed channel is a panic of the sender and leaves the channel alone. -/
def send (drain : Drain μ) (message : μ) : Drain μ :=
  if drain.closed then drain else { drain with queue := drain.queue ++ [message] }

def close (drain : Drain μ) : Drain μ := { drain with closed := true }

/-- One step of the goroutine, which may find the lock free or not. -/
def step (free : Bool) (drain : Drain μ) : Drain μ × Move μ :=
  match drain.worker with
  | .idle =>
      match drain.queue with
      | message :: rest => ({ drain with queue := rest, worker := .waiting message }, .stay)
      | [] => if drain.closed then ({ drain with worker := .done }, .stay) else (drain, .stay)
  | .waiting message =>
      if free then ({ drain with worker := .locked message }, .lock) else (drain, .stay)
  | .locked message => ({ drain with worker := .idle }, .unlock message)
  | .done => (drain, .stay)

/-- What has been sent and not yet handled, in order. -/
def pending (drain : Drain μ) : List μ := drain.worker.hand ++ drain.queue

/-- Nothing is in the channel, and no message waits for the lock. -/
def Quiet (drain : Drain μ) : Prop := drain.queue = [] ∧ ¬drain.worker.Waits

section Step

variable {drain : Drain μ} {free : Bool}

/-- What a step does to the pending messages and to the lock. -/
theorem step_cases (free : Bool) (drain : Drain μ) :
    ((drain.step free).2 = .stay ∧ (drain.step free).1.pending = drain.pending ∧
        ((drain.step free).1.worker.Locks ↔ drain.worker.Locks)) ∨
      ((drain.step free).2 = .lock ∧ free = true ∧ (drain.step free).1.pending = drain.pending ∧
        (drain.step free).1.worker.Locks ∧ ¬drain.worker.Locks) ∨
      ∃ message, (drain.step free).2 = .unlock message ∧
        drain.pending = message :: (drain.step free).1.pending ∧
        ¬(drain.step free).1.worker.Locks ∧ drain.worker.Locks := by
  rcases drain with ⟨queue, closed, worker⟩
  cases worker with
  | idle =>
      left
      cases queue with
      | nil => cases closed <;> simp [step, pending, Worker.hand, Worker.Locks]
      | cons message rest => simp [step, pending, Worker.hand, Worker.Locks]
  | waiting message =>
      cases free with
      | false => left; simp [step]
      | true => right; left; simp [step, pending, Worker.hand, Worker.Locks]
  | locked message =>
      right; right
      exact ⟨message, rfl, rfl, by simp [step, Worker.Locks], message, rfl⟩
  | done => left; simp [step]

/-- A goroutine that knows when it has the lock goes on knowing it, and does not take it from
anybody else. -/
theorem owner_step {τ : Type} {self : τ} {before : Option τ}
    (mine : before = some self ↔ drain.worker.Locks) :
    ((drain.step before.isNone).2.owner self before = some self ↔
        (drain.step before.isNone).1.worker.Locks) ∧
      ∀ other, other ≠ self →
        ((drain.step before.isNone).2.owner self before = some other ↔ before = some other) := by
  rcases step_cases before.isNone drain with ⟨move, -, same⟩ | ⟨move, free, -, locks, -⟩ |
    ⟨message, move, -, unlocks, locked⟩
  · rw [move, same]
    exact ⟨mine, fun _ _ => Iff.rfl⟩
  · rw [Option.isNone_iff_eq_none] at free
    rw [move, free]
    refine ⟨iff_of_true rfl (free ▸ locks), ?_⟩
    intro other distinct
    simp [Move.owner, distinct.symm]
  · rw [move]
    refine ⟨iff_of_false (by simp [Move.owner]) unlocks, ?_⟩
    intro other distinct
    rw [mine.mpr locked]
    simp [Move.owner, distinct.symm]

@[simp]
theorem closed_step : (drain.step free).1.closed = drain.closed := by
  rcases drain with ⟨queue, closed, worker⟩
  cases worker with
  | idle => cases queue <;> cases closed <;> rfl
  | waiting message => cases free <;> rfl
  | locked message => rfl
  | done => rfl

@[simp]
theorem worker_send (drain : Drain μ) (message : μ) :
    (drain.send message).worker = drain.worker := by
  unfold send
  split <;> rfl

@[simp]
theorem closed_send (drain : Drain μ) (message : μ) :
    (drain.send message).closed = drain.closed := by
  unfold send
  split <;> rfl

theorem pending_send (usable : drain.closed = false) (message : μ) :
    (drain.send message).pending = drain.pending ++ [message] := by
  simp [send, usable, pending]

/-- Only a closed channel lets its goroutine end. -/
theorem done_step (ends : drain.worker = .done → drain.closed = true)
    (done : (drain.step free).1.worker = .done) : drain.closed = true := by
  rcases drain with ⟨queue, closed, worker⟩
  cases worker with
  | idle => cases queue <;> cases closed <;> simp_all [step]
  | waiting message => cases free <;> simp [step] at done
  | locked message => simp [step] at done
  | done => exact ends rfl

/-- Without new messages it stays quiet. -/
theorem Quiet.step (quiet : drain.Quiet) (free : Bool) : (drain.step free).1.Quiet := by
  rcases drain with ⟨queue, closed, worker⟩
  rcases quiet with ⟨rfl, calm⟩
  cases worker with
  | idle => cases closed <;> simp [Drain.step, Quiet, Worker.Waits]
  | waiting message => exact absurd ⟨message, rfl⟩ calm
  | locked message => simp [Drain.step, Quiet, Worker.Waits]
  | done => simp [Drain.step, Quiet, Worker.Waits]

/-- A goroutine that has the lock gives it back in its next step. -/
theorem owner_of_locks {τ : Type} (self : τ) (before : Option τ) (locks : drain.worker.Locks) :
    (drain.step free).2.owner self before = none := by
  rcases locks with ⟨message, locked⟩
  simp [Drain.step, locked, Move.owner]

/-- Handling a message does not make it quiet. -/
theorem quiet_of_step (locks : drain.worker.Locks) (quiet : (drain.step free).1.Quiet) :
    drain.Quiet := by
  rcases drain with ⟨queue, closed, worker⟩
  rcases locks with ⟨message, rfl⟩
  exact ⟨quiet.1, by simp [Worker.Waits]⟩

/-- A goroutine that waits for the lock goes on waiting while somebody else has it. -/
theorem step_of_waits (waits : drain.worker.Waits) : (drain.step false).1 = drain := by
  rcases waits with ⟨message, waits⟩
  simp [Drain.step, waits]

/-- While somebody else has the lock, a message that is left makes the goroutine wait. -/
theorem waits_of_not_quiet (noisy : ¬drain.Quiet) (outside : ¬drain.worker.Locks)
    (running : drain.worker ≠ .done) : (drain.step false).1.worker.Waits := by
  rcases drain with ⟨queue, closed, worker⟩
  cases worker with
  | idle =>
      cases queue with
      | nil => exact absurd ⟨rfl, by simp [Worker.Waits]⟩ noisy
      | cons message rest => exact ⟨message, rfl⟩
  | waiting message => exact ⟨message, rfl⟩
  | locked message => exact absurd ⟨message, rfl⟩ outside
  | done => exact absurd rfl running

end Step

end Drain

end Lib
