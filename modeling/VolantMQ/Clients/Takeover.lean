import VolantMQ.Lib.Run
import Mathlib.Data.Nat.Basic
import Mathlib.Tactic.Common

/-!
# One connection for each client

`NewSession` looks up the client id in the map of sessions. If there is nothing it stores a wrap with
a new session there. Otherwise it takes the lock of the wrap it has found, turns the session in it
online again, or stops it, puts its own session into the wrap and stores the wrap under the id. A
session that comes to its end, when its connection is closed or its timer fires, deletes whatever
the map has under the id.

The lock belongs to the wrap and not to the id, and the map changes without it. A call that has found
a wrap holds on to it even when the wrap is not in the map any more.

This file is about the calls for one client id. They are numbered, and a call allocates the wrap and
the session of its number. The steps are those between which goroutines can be interrupted.
-/

namespace VolantMQ.Clients.Takeover

open Lib

/-- Where `onDisconnect` is. -/
inductive Closing where
  /-- Before `isOnline` is closed. -/
  | close
  /-- Before it is known whether the session stays. -/
  | decide
  /-- Before `signalClose`. -/
  | delete
  /-- Before `finalized` is set. -/
  | mark
  /-- Before `wgDisconnected.Done`. -/
  | done
  deriving DecidableEq, Repr

/-- Where `timerCallback` is, with `timerLock`. -/
inductive Callback where
  | run
  /-- Before `signalClose`. -/
  | delete
  /-- Before `finalized` is set. -/
  | mark
  | unlock
  deriving DecidableEq, Repr

structure Session where
  /-- The channel of this name is open. -/
  isOnline : Bool
  /-- The connection is started, and nobody has begun to close it. -/
  conn : Bool
  closing : Option Closing
  finalized : Bool
  /-- `timer` is running. -/
  armed : Bool
  /-- The number of goroutines in `timerCallback` that wait for `timerLock`. -/
  fired : ℕ
  callback : Option Callback
  deriving DecidableEq, Repr

/-- What can happen to a session that is not done by a call of `NewSession`. -/
inductive Event where
  /-- `onConnectionClose` begins. -/
  | close
  /-- `onDisconnect` goes on; with `keep` the session has to wait for its timer. -/
  | disconnect (keep : Bool)
  | fire
  /-- A callback takes `timerLock`. -/
  | lock
  /-- The callback goes on; with `restart` the timer has to run once more. -/
  | callback (restart : Bool)
  deriving DecidableEq, Repr

namespace Session

def new : Session := ⟨false, false, none, false, false, 0, none⟩

/-- `wgDisconnected` is not zero. -/
def busy (x : Session) : Bool := x.conn || x.closing.isSome

/-- The session after an event, and whether it has called `signalClose`. -/
def step (x : Session) : Event → Session × Bool
  | .close =>
      if x.conn then ({ x with conn := false, closing := some .close }, false) else (x, false)
  | .disconnect keep =>
      match x.closing with
      | some .close => ({ x with isOnline := false, closing := some .decide }, false)
      | some .decide =>
          if keep then ({ x with armed := true, closing := some .done }, false)
          else ({ x with closing := some .delete }, false)
      | some .delete => ({ x with closing := some .mark }, true)
      | some .mark => ({ x with finalized := true, closing := some .done }, false)
      | some .done => ({ x with closing := none }, false)
      | none => (x, false)
  | .fire =>
      if x.armed then ({ x with armed := false, fired := x.fired + 1 }, false) else (x, false)
  | .lock =>
      if x.callback = none ∧ 0 < x.fired then
        ({ x with fired := x.fired - 1, callback := some .run }, false)
      else (x, false)
  | .callback restart =>
      match x.callback with
      | some .run =>
          if restart then ({ x with armed := true, callback := some .unlock }, false)
          else ({ x with callback := some .delete }, false)
      | some .delete => ({ x with callback := some .mark }, true)
      | some .mark => ({ x with finalized := true, callback := some .unlock }, false)
      | some .unlock => ({ x with callback := none }, false)
      | none => (x, false)

end Session

/-- Where a call of `NewSession` is, behind its `LoadOrStore`. In `setOnline` and `stop` it waits for
the disconnect of the session and for its timer. -/
inductive Pc where
  | acquire
  | setOnline
  | stop
  /-- Before `wgDisconnected.Wait`. -/
  | wait (stopping : Bool)
  /-- Before `timer.Stop`. -/
  | timer (stopping : Bool)
  /-- Before `timerLock.Lock`. -/
  | timerLock (stopping : Bool)
  /-- Before `setOnline` reads `finalized`. -/
  | check
  /-- Before `stop` reads `finalized`. -/
  | signalClose
  /-- Before `stop` sets `finalized`. -/
  | finalize
  | swap
  | store
  | configure
  | start
  | unlock
  /-- The call has come to its end without `idLock.Unlock`. -/
  | abandoned
  | returned
  deriving DecidableEq, Repr

/-- The call is still going to use its wrap. -/
def Pc.underway : Pc → Bool
  | unlock | abandoned | returned => false
  | _ => true

structure Call where
  wrap : ℕ
  ses : ℕ
  pc : Pc
  deriving DecidableEq, Repr

structure Wrap where
  s : ℕ
  locked : Bool
  deriving DecidableEq, Repr

/-- The parts of the clients manager that the calls for one id share, and the calls. -/
structure Manager where
  AllowReplace : Bool
  /-- The number of the next call. -/
  next : ℕ
  /-- What the map of sessions has under the id. -/
  entry : Option ℕ
  wraps : ℕ → Wrap
  sessions : ℕ → Session
  calls : ℕ → Call

namespace Manager

open Function (update)

/-- A call begins, and has done its `LoadOrStore`. -/
def connect (m : Manager) : Manager :=
  match m.entry with
  | none =>
      { m with
        next := m.next + 1
        entry := some m.next
        wraps := update m.wraps m.next ⟨m.next, true⟩
        sessions := update m.sessions m.next .new
        calls := update m.calls m.next ⟨m.next, m.next, .configure⟩ }
  | some wrap =>
      { m with
        next := m.next + 1
        wraps := update m.wraps m.next ⟨m.next, false⟩
        sessions := update m.sessions m.next .new
        calls := update m.calls m.next ⟨wrap, m.next, .acquire⟩ }

def goto (m : Manager) (n : ℕ) (pc : Pc) : Manager :=
  { m with calls := update m.calls n { m.calls n with pc := pc } }

def setSession (m : Manager) (n : ℕ) (x : Session) : Manager :=
  { m with sessions := update m.sessions (m.calls n).ses x }

/-- Where a call is when it has waited for the timer. -/
def waited (stopping : Bool) : Pc := if stopping then .signalClose else .check

/-- A call goes on. What is left open is whether `configureSession` and then the writing of the
CONNACK succeed. If not, the session is not started, or the broker stops. -/
def proceed (m : Manager) (n : ℕ) (succeeds : Bool) : Manager :=
  let c := m.calls n
  let x := m.sessions c.ses
  match c.pc with
  | .acquire =>
      if (m.wraps c.wrap).locked then m
      else
        { m with
          wraps := update m.wraps c.wrap { m.wraps c.wrap with locked := true }
          calls := update m.calls n ⟨c.wrap, (m.wraps c.wrap).s, .setOnline⟩ }
  | .setOnline =>
      if x.isOnline then m.goto n (if m.AllowReplace then .stop else .unlock)
      else m.goto n (.wait false)
  | .stop => (m.setSession n (x.step .close).1).goto n (.wait true)
  | .wait stopping => if x.busy then m else m.goto n (.timer stopping)
  | .timer stopping =>
      if x.armed then (m.setSession n { x with armed := false }).goto n (waited stopping)
      else m.goto n (.timerLock stopping)
  | .timerLock stopping => if x.callback.isSome then m else m.goto n (waited stopping)
  | .check => m.goto n (if x.finalized then .swap else .configure)
  | .signalClose =>
      if x.finalized then m.goto n .swap else { m.goto n .finalize with entry := none }
  | .finalize => (m.setSession n { x with finalized := true }).goto n .swap
  | .swap =>
      { m with
        wraps := update m.wraps c.wrap { m.wraps c.wrap with s := n }
        calls := update m.calls n ⟨c.wrap, n, .store⟩ }
  | .store => { m.goto n .configure with entry := some c.wrap }
  | .configure =>
      if succeeds then (m.setSession n { x with finalized := false }).goto n .start
      else { m.goto n .abandoned with entry := none }
  | .start =>
      if succeeds then
        (m.setSession n { x with isOnline := true, conn := true }).goto n .unlock
      else m.goto n .abandoned
  | .unlock =>
      { m with
        wraps := update m.wraps c.wrap { m.wraps c.wrap with locked := false }
        calls := update m.calls n { c with pc := .returned } }
  | .abandoned => m
  | .returned => m

/-- What can happen next. -/
inductive Op where
  | connect
  | proceed (n : ℕ) (succeeds : Bool)
  | session (k : ℕ) (event : Event)

/-- An event of a session. `signalClose` deletes what the map has. -/
def handle (m : Manager) (k : ℕ) (event : Event) : Manager :=
  { m with
    sessions := update m.sessions k ((m.sessions k).step event).1
    entry := if ((m.sessions k).step event).2 then none else m.entry }

def step (m : Manager) : Op → Manager
  | .connect => m.connect
  | .proceed n succeeds => m.proceed n succeeds
  | .session k event => m.handle k event

/-- There was no call yet. The first has the number 1. -/
def new (AllowReplace : Bool) : Manager :=
  { AllowReplace
    next := 1
    entry := none
    wraps := fun n => ⟨n, false⟩
    sessions := fun _ => .new
    calls := fun n => ⟨n, n, .returned⟩ }

/-- At most one session is online, and the map has the wrap that holds it. -/
structure Exclusive (m : Manager) : Prop where
  unique : ∀ j k, (m.sessions j).isOnline = true → (m.sessions k).isOnline = true → j = k
  mapped : ∀ k, (m.sessions k).isOnline = true → ∃ wrap, m.entry = some wrap ∧ (m.wraps wrap).s = k

/-- Nobody is going to unlock the wrap. -/
def Stuck (m : Manager) (wrap : ℕ) : Prop :=
  ∃ n, (m.calls n).pc = .abandoned ∧ (m.calls n).wrap = wrap

/-- A call that finds nothing in the map comes when no other call still has a wrap that it can get;
and a call that has found the timer of a session expired goes on when no callback of the session is
to come. -/
def Timely (m : Manager) : Op → Prop
  | .connect => m.entry = none → ∀ n, (m.calls n).pc.underway = true → m.Stuck (m.calls n).wrap
  | .proceed n _ =>
      ∀ stopping, (m.calls n).pc = .timerLock stopping →
        (m.sessions (m.calls n).ses).callback = none →
          (m.sessions (m.calls n).ses).armed = false ∧ (m.sessions (m.calls n).ses).fired = 0
  | .session _ _ => True

end Manager

namespace Session

/-- `onDisconnect` has not deleted the entry yet. -/
def deleting (x : Session) : Bool :=
  match x.closing with
  | some .close | some .decide | some .delete => true
  | _ => false

/-- A callback runs and has not finalized the session yet. -/
def working (x : Session) : Bool :=
  match x.callback with
  | some .run | some .delete | some .mark => true
  | _ => false

/-- The number of times the timer is going to have an effect. -/
def pending (x : Session) : ℕ := x.armed.toNat + x.fired + x.working.toNat

/-- There is no connection, and `onDisconnect` has returned. -/
def Idle (x : Session) : Prop := x.busy = false

/-- There is nothing to come from the timer. -/
def Quiet (x : Session) : Prop := x.pending = 0

/-- The session is offline and is not going to delete the entry. -/
structure Dead (x : Session) : Prop where
  offline : x.isOnline = false
  conn : x.conn = false
  closing : x.deleting = false
  armed : x.armed = false
  fired : x.fired = 0
  run : x.callback ≠ some .run
  delete : x.callback ≠ some .delete

/-- The session is finalized, or is going to be. -/
def Finalizing (x : Session) : Prop :=
  x.finalized = true ∨ x.closing = some .mark ∨ x.callback = some .mark

/-- What holds of a session at all times if no callback comes too late. -/
structure Sound (x : Session) : Prop where
  online : x.isOnline = true → x.conn = true ∨ x.closing = some .close
  closed : x.closing ≠ none → x.conn = false
  single : x.pending ≤ 1
  quiet : x.conn = true ∨ x.deleting = true → x.Quiet

variable {x : Session}

theorem sound_new : new.Sound := ⟨nofun, nofun, by decide, fun _ => rfl⟩

theorem dead_new : new.Dead := ⟨rfl, rfl, rfl, rfl, rfl, nofun, nofun⟩

theorem step_new (event : Event) : new.step event = (new, false) := by
  cases event <;> rfl

theorem idle_iff : x.Idle ↔ x.conn = false ∧ x.closing = none := by
  simp [Idle, busy]

theorem Quiet.armed (quiet : x.Quiet) : x.armed = false := by
  unfold Quiet pending at quiet
  cases armed : x.armed with
  | false => rfl
  | true =>
      rw [armed, Bool.toNat_true] at quiet
      omega

theorem Quiet.fired (quiet : x.Quiet) : x.fired = 0 := by
  unfold Quiet pending at quiet
  omega

theorem Quiet.working (quiet : x.Quiet) : x.working = false := by
  unfold Quiet pending at quiet
  cases working : x.working with
  | false => rfl
  | true =>
      rw [working, Bool.toNat_true] at quiet
      omega

theorem Sound.offline (sound : x.Sound) (conn : x.conn = false) (later : x.closing ≠ some .close) :
    x.isOnline = false := by
  cases online : x.isOnline with
  | false => rfl
  | true => simpa [conn, later] using sound.online online

theorem Quiet.not_running (quiet : x.Quiet) :
    x.callback ≠ some .run ∧ x.callback ≠ some .delete := by
  have working := quiet.working
  unfold Session.working at working
  constructor
  · intro run
    simp [run] at working
  · intro delete
    simp [delete] at working

theorem Sound.dead (sound : x.Sound) (idle : x.Idle) (quiet : x.Quiet) : x.Dead := by
  rcases idle_iff.mp idle with ⟨conn, closing⟩
  exact ⟨sound.offline conn (by simp [closing]), conn, by simp [deleting, closing], quiet.armed,
    quiet.fired, quiet.not_running.1, quiet.not_running.2⟩

/-- Without its connection and its timer a session stays as it is. -/
theorem idle_step (idle : x.Idle) (quiet : x.Quiet) (event : Event) :
    (x.step event).1.Idle ∧ (x.step event).1.Quiet ∧ (x.step event).2 = false := by
  rcases idle_iff.mp idle with ⟨conn, closing⟩
  have armed := quiet.armed
  have fired := quiet.fired
  have working := quiet.working
  cases event with
  | close => simp [step, conn, idle, quiet]
  | disconnect keep => simp [step, closing, idle, quiet]
  | fire => simp [step, armed, idle, quiet]
  | lock => simp [step, fired, idle, quiet]
  | callback restart =>
      cases callback : x.callback with
      | none => simp [step, callback, idle, quiet]
      | some stage =>
          cases stage with
          | unlock =>
              refine ⟨?_, ?_, ?_⟩
              · simpa [step, callback, Idle, busy] using idle
              · simp [step, callback, Quiet, pending, armed, fired, Session.working]
              · simp [step, callback]
          | _ => simp [Session.working, callback] at working

theorem idle_of_idle (idle : x.Idle) (event : Event) : (x.step event).1.Idle := by
  rcases idle_iff.mp idle with ⟨conn, closing⟩
  cases event with
  | close => simpa [step, conn] using idle
  | disconnect keep => simpa [step, closing] using idle
  | fire =>
      unfold step
      dsimp only
      split <;> exact idle
  | lock =>
      unfold step
      dsimp only
      split <;> exact idle
  | callback restart =>
      unfold step
      dsimp only
      split
      · split <;> exact idle
      all_goals exact idle

theorem Dead.step (dead : x.Dead) (event : Event) :
    (x.step event).1.Dead ∧ (x.step event).2 = false := by
  rcases dead with ⟨offline, conn, closing, armed, fired, run, delete⟩
  have same : x.Dead := ⟨offline, conn, closing, armed, fired, run, delete⟩
  cases event with
  | close => simp [Session.step, conn, same]
  | disconnect keep =>
      cases stage : x.closing with
      | none => simp [Session.step, stage, same]
      | some stage' =>
          cases stage' with
          | close | decide | delete => simp [deleting, stage] at closing
          | mark | done =>
              simp only [Session.step, stage]
              exact ⟨⟨offline, conn, rfl, armed, fired, run, delete⟩, trivial⟩
  | fire => simp [Session.step, armed, same]
  | lock => simp [Session.step, fired, same]
  | callback restart =>
      cases stage : x.callback with
      | none => simp [Session.step, stage, same]
      | some stage' =>
          cases stage' with
          | run => exact absurd stage run
          | delete => exact absurd stage delete
          | mark | unlock =>
              simp only [Session.step, stage]
              exact ⟨⟨offline, conn, closing, armed, fired, nofun, nofun⟩, trivial⟩

/-- A step of the timer, or of nothing that counts. -/
theorem Sound.mono {y : Session} (sound : x.Sound) (online : y.isOnline = x.isOnline)
    (conn : y.conn = x.conn) (closing : y.closing = x.closing) (fewer : y.pending ≤ x.pending) :
    y.Sound := by
  refine ⟨?_, ?_, Nat.le_trans fewer sound.single, ?_⟩
  · rw [online, conn, closing]
    exact sound.online
  · rw [conn, closing]
    exact sound.closed
  · intro open_
    have before : x.conn = true ∨ x.deleting = true := by
      simpa only [deleting, conn, closing] using open_
    exact Nat.eq_zero_of_le_zero (Nat.le_trans fewer (Nat.le_of_eq (sound.quiet before)))

theorem Sound.disconnect (sound : x.Sound) (keep : Bool) : (x.step (.disconnect keep)).1.Sound := by
  unfold Session.step
  cases stage : x.closing with
  | none => exact sound
  | some stage' =>
      have conn : x.conn = false := sound.closed (by simp [stage])
      cases stage' with
      | close =>
          refine ⟨nofun, fun _ => conn, sound.single, fun _ => ?_⟩
          exact sound.quiet (.inr (by simp [deleting, stage]))
      | decide =>
          have online := sound.offline conn (by simp [stage])
          have quiet := sound.quiet (.inr (by simp [deleting, stage]))
          dsimp only
          split
          · refine ⟨by simp [online], fun _ => conn, ?_, by simp [conn, deleting]⟩
            have none := quiet.working
            unfold working at none
            simp [pending, quiet.fired, working, none]
          · exact ⟨by simp [online], fun _ => conn, sound.single, fun _ => quiet⟩
      | delete | mark =>
          have online := sound.offline conn (by simp [stage])
          exact ⟨by simp [online], fun _ => conn, sound.single, by simp [conn, deleting]⟩
      | done =>
          have online := sound.offline conn (by simp [stage])
          exact ⟨by simp [online], nofun, sound.single, by simp [conn, deleting]⟩

theorem pending_callback (single : x.pending ≤ 1) (restart : Bool) :
    (x.step (.callback restart)).1.pending ≤ x.pending := by
  unfold step
  cases stage : x.callback with
  | none => exact Nat.le_refl _
  | some stage' =>
      simp only [pending, working, stage] at single ⊢
      cases stage' with
      | run =>
          dsimp only
          split
          · have armed : x.armed.toNat = 0 := by
              simp only [Bool.toNat_true] at single
              omega
            simp [armed]
            omega
          · simp
      | _ => simp

theorem Sound.step (sound : x.Sound) (event : Event) : (x.step event).1.Sound := by
  cases event with
  | close =>
      unfold Session.step
      dsimp only
      split
      · rename_i conn
        exact ⟨fun _ => .inr rfl, fun _ => rfl, sound.single, fun _ => sound.quiet (.inl conn)⟩
      · exact sound
  | disconnect keep => exact sound.disconnect keep
  | fire =>
      unfold Session.step
      dsimp only
      split
      · rename_i armed
        refine sound.mono rfl rfl rfl ?_
        simp only [pending, armed, working, Bool.toNat_true, Bool.toNat_false]
        omega
      · exact sound
  | lock =>
      unfold Session.step
      dsimp only
      split
      · rename_i free
        refine sound.mono rfl rfl rfl ?_
        simp only [pending, working, free.1, Bool.toNat_true, Bool.toNat_false]
        omega
      · exact sound
  | callback restart =>
      refine sound.mono ?_ ?_ ?_ (pending_callback sound.single restart)
      all_goals
        unfold Session.step
        dsimp only
        split
        · split <;> rfl
        all_goals rfl

theorem deletes_cases {event : Event} (deletes : (x.step event).2 = true) :
    (∃ keep, event = .disconnect keep ∧ x.closing = some .delete) ∨
      ∃ restart, event = .callback restart ∧ x.callback = some .delete := by
  cases event with
  | close | fire | lock =>
      simp only [step] at deletes
      split at deletes <;> cases deletes
  | disconnect keep =>
      refine .inl ⟨keep, rfl, ?_⟩
      simp only [step] at deletes
      split at deletes
      · cases deletes
      · split at deletes <;> cases deletes
      · assumption
      all_goals cases deletes
  | callback restart =>
      refine .inr ⟨restart, rfl, ?_⟩
      simp only [step] at deletes
      split at deletes
      · split at deletes <;> cases deletes
      · assumption
      all_goals cases deletes

/-- A session that deletes the entry has nothing more to do, and is going to be finalized. -/
theorem Sound.deletes (sound : x.Sound) {event : Event} (deletes : (x.step event).2 = true) :
    (x.step event).1.Dead ∧ (x.step event).1.Finalizing := by
  rcases deletes_cases deletes with ⟨keep, rfl, stage⟩ | ⟨restart, rfl, stage⟩
  · have quiet := sound.quiet (.inr (by simp [deleting, stage]))
    have conn : x.conn = false := sound.closed (by simp [stage])
    have online := sound.offline conn (by simp [stage])
    simp only [Session.step, stage]
    exact ⟨⟨online, conn, rfl, quiet.armed, quiet.fired, quiet.not_running.1, quiet.not_running.2⟩,
      .inr (.inl rfl)⟩
  · -- the timer does not run while there is a connection
    have noisy : ¬x.Quiet := fun quiet => quiet.not_running.2 stage
    have conn : x.conn = false := Bool.eq_false_iff.mpr fun conn => noisy (sound.quiet (.inl conn))
    have closing : x.deleting = false :=
      Bool.eq_false_iff.mpr fun deleting => noisy (sound.quiet (.inr deleting))
    have online := sound.offline conn fun same => by simp [deleting, same] at closing
    have single := sound.single
    simp only [pending, working, stage, Bool.toNat_true] at single
    have armed : x.armed = false := by
      cases armed : x.armed with
      | false => rfl
      | true =>
          rw [armed, Bool.toNat_true] at single
          omega
    have fired : x.fired = 0 := by omega
    simp only [Session.step, stage]
    exact ⟨⟨online, conn, closing, armed, fired, nofun, nofun⟩, .inr (.inr rfl)⟩

theorem finalized_step (finalized : x.finalized = true) (event : Event) :
    (x.step event).1.finalized = true := by
  cases event with
  | close | fire | lock =>
      dsimp only [Session.step]
      split <;> exact finalized
  | disconnect keep =>
      dsimp only [Session.step]
      split
      · exact finalized
      · split <;> exact finalized
      · exact finalized
      · rfl
      all_goals exact finalized
  | callback restart =>
      dsimp only [Session.step]
      split
      · split <;> exact finalized
      · exact finalized
      · rfl
      all_goals exact finalized

/-- Only the disconnect takes its mark away, and it finalizes the session. -/
theorem Sound.closing_mark (sound : x.Sound) (mark : x.closing = some .mark) (event : Event) :
    (x.step event).1.Finalizing := by
  cases event with
  | close =>
      have closed := sound.closed (by simp [mark])
      simp only [Session.step, closed, Bool.false_eq_true, if_false]
      exact .inr (.inl mark)
  | disconnect keep =>
      simp only [Session.step, mark]
      exact .inl rfl
  | fire | lock =>
      dsimp only [Session.step]
      split <;> exact .inr (.inl mark)
  | callback restart =>
      right
      left
      dsimp only [Session.step]
      split
      · split <;> exact mark
      all_goals exact mark

theorem callback_mark (mark : x.callback = some .mark) (event : Event) :
    (x.step event).1.Finalizing := by
  cases event with
  | close | fire =>
      dsimp only [Session.step]
      split <;> exact .inr (.inr mark)
  | disconnect keep =>
      right
      right
      dsimp only [Session.step]
      split
      · exact mark
      · split <;> exact mark
      all_goals exact mark
  | lock =>
      simp only [Session.step, mark, reduceCtorEq, false_and, if_false]
      exact .inr (.inr mark)
  | callback restart =>
      simp only [Session.step, mark]
      exact .inl rfl

/-- A session that is going to be finalized is, in the end. -/
theorem Sound.finalizing (sound : x.Sound) (finalizing : x.Finalizing) (event : Event) :
    (x.step event).1.Finalizing := by
  rcases finalizing with finalized | mark | mark
  · exact .inl (finalized_step finalized event)
  · exact sound.closing_mark mark event
  · exact callback_mark mark event

end Session

end VolantMQ.Clients.Takeover
