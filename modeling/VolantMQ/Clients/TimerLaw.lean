import VolantMQ.Clients.Session

/-!
# The law of the session timer

When a will is published and when a session is closed, stated from the request of the connection
and the way it ended, and the proof that every timeline keeps to it. The argument follows the
session through the stages of its timer: armed for the first time, armed again for the rest of the
expiry interval, and closed.
-/

namespace VolantMQ.Clients

open Lib Packet

variable {ω : Type}

namespace Connect

variable (req : Connect ω) (ending : Ending)

/-- The session ends with the connection. -/
def Killed : Prop := req.reConfig.killOnDisconnect = true ∨ req.expireAt ending = some 0

instance : Decidable (req.Killed ending) := inferInstanceAs (Decidable (_ ∨ _))

/-- The will that the ending leaves to be published. -/
def owed : Option ω := if ending.will then req.will else none

/-- The will that waits for the timer. -/
def delayed : Option ω :=
  if req.Killed ending ∨ req.reConfig.willDelay = 0 then none else req.owed ending

/-- The seconds after which the timer publishes a will. -/
def delay : ℕ :=
  match req.expireAt ending with
  | none => req.reConfig.willDelay.toNat
  | some e => min req.reConfig.willDelay.toNat e.toNat

/-- When the will is due after a connection that ended at `t₀`. -/
def willDue (t₀ : Int) : Int :=
  if req.reConfig.willDelay = 0 ∨ req.Killed ending then t₀ else t₀ + req.delay ending * second

/-- When and why the session is closed. -/
def closeDue (t₀ : Int) : Int × ExitReason :=
  if req.Killed ending then (t₀, .clean)
  else
    match req.expireAt ending with
    | some e => (t₀ + seconds e, .expired)
    | none =>
        (if (req.delayed ending).isSome then t₀ + seconds req.reConfig.willDelay else t₀, .shutdown)

/-- A will is published once, when it is due. -/
def publications (t₀ : Int) (horizon : Int) : List (Int × ω) :=
  if req.willDue ending t₀ ≤ horizon then
    (req.owed ending).toList.map fun m => (req.willDue ending t₀, m)
  else []

/-- The session is closed once, when it is due. -/
def closings (t₀ : Int) (horizon : Int) : List (Int × ExitReason) :=
  if (req.closeDue ending t₀).1 ≤ horizon then [req.closeDue ending t₀] else []

/-- The first period of the timer. -/
def firstPeriod : UInt32 :=
  match req.expireAt ending with
  | none => if (req.delayed ending).isSome then req.reConfig.willDelay else 0
  | some e =>
      if (req.delayed ending).isSome ∧ req.reConfig.willDelay < e then req.reConfig.willDelay
      else e

/-- What is left of the expiry interval after the first period. -/
def restOfExpiry : Option UInt32 :=
  (req.expireAt ending).map fun e =>
    if (req.delayed ending).isSome ∧ req.reConfig.willDelay < e then e - req.reConfig.willDelay
    else 0

end Connect

/-- The publication in an event, if it is one. -/
def Event.published? : Int × Event ω → Option (Int × ω)
  | (t, .publish m) => some (t, m)
  | _ => none

/-- The end of the session in an event, if it is one. -/
def Event.closed? : Int × Event ω → Option (Int × ExitReason)
  | (t, .signalClose reason) => some (t, reason)
  | _ => none

namespace Episode

def published (episode : Episode ω) : List (Int × ω) := episode.events.filterMap Event.published?

def closed (episode : Episode ω) : List (Int × ExitReason) :=
  episode.events.filterMap Event.closed?

/-- The last instant of an episode, or the present. -/
def horizon (episode : Episode ω) (now : Int) : Int := episode.resumed.getD now

end Episode

section Requests

variable {req : Connect ω} {ending : Ending}

theorem Connect.expireAt_none (missing : req.expireAt ending = none) :
    req.reConfig.expireIn = none := by
  simp only [Connect.expireAt] at missing
  split at missing
  · exact missing
  · split at missing
    · simp at missing
    · exact missing

/-- Only a session that has no expiry interval, or an empty one, is killed. -/
theorem Connect.expireAt_of_kill (kill : req.reConfig.killOnDisconnect = true) :
    req.expireAt ending = none ∨ req.expireAt ending = some 0 := by
  simp only [Connect.reConfig, decide_eq_true_eq] at kill
  rcases kill with old | zero
  · have before : ¬ProtocolV50 ≤ req.version := by
      intro five
      exact absurd (UInt8.le_trans five old.1) (by decide)
    have other : req.version ≠ ProtocolV50 := by
      intro five
      exact before (five ▸ UInt8.le_refl _)
    left
    simp only [Connect.expireAt, Connect.reConfig, if_neg before]
    split <;> simp [other]
  · right
    simp only [Connect.expireAt, Connect.reConfig, zero]
    split
    · rfl
    · split
      · rename_i val accepted
        simp only [true_and, ne_eq, not_not] at accepted
        rw [accepted.2]
      · rfl

theorem Connect.delayed_eq_some {m : ω} (waits : req.delayed ending = some m) :
    ¬req.Killed ending ∧ req.reConfig.willDelay ≠ 0 ∧ req.owed ending = some m := by
  unfold Connect.delayed at waits
  split at waits
  · simp at waits
  · rename_i later
    rw [not_or] at later
    exact ⟨later.1, later.2, waits⟩

/-- A will that does not wait for the timer is due at once. -/
theorem Connect.willDue_of_delayed_none (prompt : req.delayed ending = none) (t₀ : Int) :
    (req.owed ending).toList.map (fun m => (req.willDue ending t₀, m)) =
      (req.owed ending).toList.map fun m => (t₀, m) := by
  unfold Connect.delayed at prompt
  split at prompt
  · rename_i now
    rw [Connect.willDue, if_pos now.symm]
  · rw [prompt]
    rfl

end Requests

/-- An online session with the configuration of a request. -/
structure Session.Configured (s : Session ω) (req : Connect ω) : Prop where
  will : s.will = req.will
  expireIn : s.expireIn = req.reConfig.expireIn
  willDelay : s.willDelay = req.reConfig.willDelay
  killOnDisconnect : s.killOnDisconnect = req.reConfig.killOnDisconnect
  isOnline : s.isOnline = true
  timer : s.timer = none
  finalized : s.finalized = false

/-- What `runExpiry` leaves behind. -/
structure Session.Armed (s : Session ω) (req : Connect ω) (ending : Ending) (t₀ : Int) : Prop where
  alive : ¬req.Killed ending
  timer : s.timer = some (t₀ + seconds (req.firstPeriod ending))
  will : s.will = req.delayed ending
  willDelay : s.willDelay = req.reConfig.willDelay
  expireIn : s.expireIn = req.restOfExpiry ending
  expiringSince : s.expiringSince = t₀
  finalized : s.finalized = false

/-- The will has been published, and the timer runs for the rest of the expiry interval. -/
structure Session.Rearmed (s : Session ω) (req : Connect ω) (ending : Ending) (t₀ : Int)
    (e : UInt32) : Prop where
  alive : ¬req.Killed ending
  expiry : req.expireAt ending = some e
  earlier : req.reConfig.willDelay < e
  timer : s.timer = some (t₀ + seconds e)
  will : s.will = none
  expireIn : s.expireIn = some 0
  expiringSince : s.expiringSince = t₀
  finalized : s.finalized = false

/-- Where an offline session is at an instant, and what it has published and closed so far. -/
inductive Stage (req : Connect ω) (ending : Ending) (t₀ now : Int) (s : Session ω)
    (published : List (Int × ω)) (closed : List (Int × ExitReason)) : Prop where
  | first (armed : s.Armed req ending t₀) (ahead : now < t₀ + seconds (req.firstPeriod ending))
      (prompt : published =
        if (req.delayed ending).isSome then [] else (req.owed ending).toList.map fun m => (t₀, m))
      (unclosed : closed = [])
  | again (e : UInt32) (m : ω) (rearmed : s.Rearmed req ending t₀ e)
      (waited : req.delayed ending = some m)
      (passed : t₀ + seconds req.reConfig.willDelay ≤ now) (ahead : now < t₀ + seconds e)
      (late : published = [(t₀ + seconds req.reConfig.willDelay, m)]) (unclosed : closed = [])
  | finished (timer : s.timer = none) (finalized : s.finalized = true)
      (passed : (req.closeDue ending t₀).1 ≤ now)
      (all : published = (req.owed ending).toList.map fun m => (req.willDue ending t₀, m))
      (once : closed = [req.closeDue ending t₀])

section Stages

variable {req : Connect ω} {ending : Ending} {t₀ now : Int} {s : Session ω}
  {published : List (Int × ω)} {closed : List (Int × ExitReason)}

theorem seconds_nonneg (n : UInt32) : 0 ≤ seconds n := by
  unfold seconds second
  omega

theorem seconds_lt {a b : UInt32} (less : a < b) : seconds a < seconds b := by
  have less : a.toNat < b.toNat := less
  unfold seconds second
  omega

theorem seconds_sub {a b : UInt32} (le : b ≤ a) : seconds b + seconds (a - b) = seconds a := by
  have bound : b.toNat ≤ a.toNat := le
  unfold seconds second
  rw [UInt32.toNat_sub_of_le a b le]
  omega

/-- When a will that waits for the timer is due. -/
theorem willDue_of_delayed {m : ω} (waits : req.delayed ending = some m) (t₀ : Int) :
    req.willDue ending t₀ = t₀ + seconds (req.firstPeriod ending) := by
  rcases Connect.delayed_eq_some waits with ⟨alive, later, -⟩
  have late : ¬(req.reConfig.willDelay = 0 ∨ req.Killed ending) := not_or.mpr ⟨later, alive⟩
  rw [Connect.willDue, if_neg late, Connect.delay, Connect.firstPeriod]
  cases req.expireAt ending with
  | none => simp only [waits, Option.isSome_some, if_true, seconds]
  | some e =>
      by_cases earlier : req.reConfig.willDelay < e
      · have less : req.reConfig.willDelay.toNat < e.toNat := earlier
        simp only [waits, Option.isSome_some, earlier, and_self, if_true, seconds]
        rw [Nat.min_eq_left (by omega)]
      · have le : e.toNat ≤ req.reConfig.willDelay.toNat := Nat.le_of_not_lt earlier
        simp only [earlier, and_false, if_false, seconds]
        rw [Nat.min_eq_right le]

/-- The session is not closed before the timer fires for the first time. -/
theorem firstPeriod_le_closeDue (alive : ¬req.Killed ending) (t₀ : Int) :
    t₀ + seconds (req.firstPeriod ending) ≤ (req.closeDue ending t₀).1 := by
  rw [Connect.closeDue, if_neg alive, Connect.firstPeriod]
  cases req.expireAt ending with
  | none =>
      simp only
      split
      · exact le_refl _
      · simp [seconds]
  | some e =>
      simp only
      split
      · rename_i earlier
        have less := seconds_lt earlier.2
        omega
      · exact le_refl _

/-- The will is never due later than the end of the session. -/
theorem willDue_le_closeDue {m : ω} (owed : req.owed ending = some m) (t₀ : Int) :
    req.willDue ending t₀ ≤ (req.closeDue ending t₀).1 := by
  by_cases killed : req.Killed ending
  · rw [Connect.willDue, if_pos (.inr killed), Connect.closeDue, if_pos killed]
  · have bound := firstPeriod_le_closeDue killed t₀
    cases waits : req.delayed ending with
    | some m => exact willDue_of_delayed waits t₀ ▸ bound
    | none =>
        have zero : req.reConfig.willDelay = 0 := by
          by_contra later
          rw [Connect.delayed, if_neg (not_or.mpr ⟨killed, later⟩), owed] at waits
          simp at waits
        have wait := seconds_nonneg (req.firstPeriod ending)
        rw [Connect.willDue, if_pos (.inl zero)]
        omega

section Rest

variable (alive : ¬req.Killed ending)

include alive in
/-- Without an expiry interval the session is shut down when the timer fires. -/
theorem closeDue_of_rest_none (rest : req.restOfExpiry ending = none) (t₀ : Int) :
    req.closeDue ending t₀ = (t₀ + seconds (req.firstPeriod ending), .shutdown) := by
  have none := Option.map_eq_none_iff.mp rest
  rw [Connect.closeDue, if_neg alive, Connect.firstPeriod, none]
  simp only
  split <;> simp [seconds]

include alive in
/-- If the timer runs for the whole expiry interval, the session expires when it fires. -/
theorem closeDue_of_rest_zero (rest : req.restOfExpiry ending = some 0) (t₀ : Int) :
    req.closeDue ending t₀ = (t₀ + seconds (req.firstPeriod ending), .expired) := by
  rcases Option.map_eq_some_iff.mp rest with ⟨e, expiry, left⟩
  rw [Connect.closeDue, if_neg alive, Connect.firstPeriod, expiry]
  simp only
  split
  · rename_i earlier
    rw [if_pos earlier] at left
    have sum := seconds_sub (UInt32.le_of_lt earlier.2)
    have shorter := seconds_lt earlier.2
    rw [left] at sum
    simp only [seconds, UInt32.toNat_zero] at sum shorter
    omega
  · rfl

/-- If something is left of the expiry interval, the timer runs for the will first. -/
theorem split_of_rest {val : UInt32} (positive : val ≠ 0)
    (rest : req.restOfExpiry ending = some val) :
    ∃ e m, req.expireAt ending = some e ∧ req.delayed ending = some m ∧
      req.reConfig.willDelay < e ∧ req.firstPeriod ending = req.reConfig.willDelay ∧
      seconds req.reConfig.willDelay + seconds val = seconds e := by
  rcases Option.map_eq_some_iff.mp rest with ⟨e, expiry, left⟩
  split at left
  · rename_i earlier
    rcases Option.isSome_iff_exists.mp earlier.1 with ⟨m, waits⟩
    have period : req.firstPeriod ending = req.reConfig.willDelay := by
      rw [Connect.firstPeriod, expiry]
      exact if_pos earlier
    refine ⟨e, m, expiry, waits, earlier.2, period, ?_⟩
    rw [← left]
    exact seconds_sub (UInt32.le_of_lt earlier.2)
  · exact absurd left.symm positive

end Rest

/-- What the stages say about publications and closings is what was asked for. -/
theorem Stage.law (stage : Stage req ending t₀ now s published closed) (since : t₀ ≤ now) :
    published = req.publications ending t₀ now ∧ closed = req.closings ending t₀ now := by
  cases stage with
  | first armed ahead prompt unclosed =>
      have bound := firstPeriod_le_closeDue armed.alive t₀
      refine ⟨?_, by rw [unclosed, Connect.closings, if_neg (by omega)]⟩
      rw [prompt, Connect.publications]
      cases waits : req.delayed ending with
      | some m =>
          have due := willDue_of_delayed waits t₀
          simp only [Option.isSome_some, if_true]
          rw [if_neg (by omega)]
      | none =>
          simp only [Option.isSome_none, Bool.false_eq_true, if_false]
          rw [Connect.willDue_of_delayed_none waits]
          cases owed : req.owed ending with
          | none => simp
          | some m =>
              have due := congrArg (List.map Prod.fst) (Connect.willDue_of_delayed_none waits t₀)
              simp only [owed, Option.toList_some, List.map_cons, List.map_nil, List.cons.injEq,
                and_true] at due
              rw [due, if_pos since]
  | again e m rearmed waited passed ahead late unclosed =>
      rcases Connect.delayed_eq_some waited with ⟨alive, later, owed⟩
      have due := willDue_of_delayed waited t₀
      simp only [Connect.firstPeriod, rearmed.expiry, waited, Option.isSome_some, rearmed.earlier,
        and_self, if_true] at due
      have open' : ¬(req.closeDue ending t₀).1 ≤ now := by
        rw [Connect.closeDue, if_neg alive, rearmed.expiry]
        simp only
        omega
      rw [late, unclosed, Connect.publications, Connect.closings, due, if_pos passed, if_neg open',
        owed]
      exact ⟨rfl, rfl⟩
  | finished timer finalized passed all once =>
      refine ⟨?_, by rw [once, Connect.closings, if_pos passed]⟩
      rw [all, Connect.publications]
      cases owed : req.owed ending with
      | none => simp
      | some m =>
          have bound := willDue_le_closeDue owed t₀
          rw [if_pos (by omega)]

/-- The publications among the events of an instant. -/
def publishedAt (now : Int) (events : List (Event ω)) : List (Int × ω) :=
  (events.map fun event => (now, event)).filterMap Event.published?

/-- The closings among the events of an instant. -/
def closedAt (now : Int) (events : List (Event ω)) : List (Int × ExitReason) :=
  (events.map fun event => (now, event)).filterMap Event.closed?

section Simp

variable (event : Event ω) (first second : List (Event ω)) (will : Option ω) (reason : ExitReason)

@[simp] theorem publishedAt_append :
    publishedAt now (first ++ second) = publishedAt now first ++ publishedAt now second := by
  simp [publishedAt]

@[simp] theorem closedAt_append :
    closedAt now (first ++ second) = closedAt now first ++ closedAt now second := by
  simp [closedAt]

@[simp] theorem publishedAt_nil : publishedAt now ([] : List (Event ω)) = [] := rfl
@[simp] theorem closedAt_nil : closedAt now ([] : List (Event ω)) = [] := rfl

@[simp] theorem publishedAt_publish :
    publishedAt now (will.toList.map .publish) = will.toList.map fun m => (now, m) := by
  cases will <;> rfl

@[simp] theorem closedAt_publish : closedAt now (will.toList.map .publish) = [] := by
  cases will <;> rfl

@[simp] theorem publishedAt_shutdown : publishedAt now [(.shutdownSubscriber : Event ω)] = [] := rfl
@[simp] theorem closedAt_shutdown : closedAt now [(.shutdownSubscriber : Event ω)] = [] := rfl
@[simp] theorem publishedAt_close : publishedAt now [(.signalClose reason : Event ω)] = [] := rfl
@[simp] theorem closedAt_close :
    closedAt now [(.signalClose reason : Event ω)] = [(now, reason)] := rfl

end Simp

namespace Session

/-- `timerCallback` publishes what is left of the will and, without an interval to wait for, closes
the session. -/
theorem timerCallback_spec (s : Session ω) (now : Int) :
    publishedAt now (s.timerCallback now).2 = s.will.toList.map (fun m => (now, m)) ∧
      (s.timerCallback now).1.isOnline = s.isOnline ∧
      (s.timerCallback now).1.subtractions = s.subtractions ∧
      ((s.expireIn = none ∧ (s.timerCallback now).1.timer = none ∧
          (s.timerCallback now).1.finalized = true ∧
          closedAt now (s.timerCallback now).2 = [(now, .shutdown)]) ∨
        (s.expireIn = some 0 ∧ (s.timerCallback now).1.timer = none ∧
          (s.timerCallback now).1.finalized = true ∧
          closedAt now (s.timerCallback now).2 = [(now, .expired)]) ∨
        ∃ val, val ≠ 0 ∧ s.expireIn = some val ∧
          (s.timerCallback now).1.timer = some (now + seconds val) ∧
          (s.timerCallback now).1.will = none ∧ (s.timerCallback now).1.expireIn = some 0 ∧
          (s.timerCallback now).1.expiringSince = s.expiringSince ∧
          (s.timerCallback now).1.finalized = s.finalized ∧
          closedAt now (s.timerCallback now).2 = []) := by
  rcases s with
    ⟨created, subscriber, will, expireIn, willDelay, kill, since, timer, finalized, online, subs⟩
  cases will <;> cases expireIn with
  | none => simp [timerCallback, finalize, publishedAt, closedAt, List.filterMap_cons,
      Event.published?, Event.closed?]
  | some val =>
      by_cases zero : val = 0
      · cases subscriber <;> simp [timerCallback, finalize, zero, publishedAt, closedAt,
          List.filterMap_cons, Event.published?, Event.closed?]
      · simp [timerCallback, zero, publishedAt, closedAt, Event.published?, Event.closed?]

theorem fire_of_due {due : Int} (timer : s.timer = some due) (arrived : due ≤ now) :
    s.fire now = s.timerCallback now := by
  rw [fire, timer]
  exact if_pos arrived

theorem fire_of_ahead {due : Int} (timer : s.timer = some due) (ahead : now < due) :
    s.fire now = (s, []) := by
  rw [fire, timer]
  exact if_neg (by omega)

theorem fire_of_none (timer : s.timer = none) : s.fire now = (s, []) := by
  rw [fire, timer]

/-- Firing the timer leaves the connection and the subtractions alone. -/
theorem fire_keeps (s : Session ω) (now : Int) :
    (s.fire now).1.isOnline = s.isOnline ∧ (s.fire now).1.subtractions = s.subtractions := by
  have callback := s.timerCallback_spec now
  unfold fire
  split
  · split
    · exact ⟨callback.2.1, callback.2.2.1⟩
    · exact ⟨rfl, rfl⟩
  · exact ⟨rfl, rfl⟩

/-- The timer fires for the first time, if it is due. -/
theorem Armed.fire (armed : s.Armed req ending t₀)
    (arrived : now ≤ t₀ + seconds (req.firstPeriod ending))
    (prompt : published =
      if (req.delayed ending).isSome then [] else (req.owed ending).toList.map fun m => (t₀, m)) :
    Stage req ending t₀ now (s.fire now).1 (published ++ publishedAt now (s.fire now).2)
      (closedAt now (s.fire now).2) := by
  by_cases ahead : now < t₀ + seconds (req.firstPeriod ending)
  · rw [fire_of_ahead armed.timer ahead]
    exact .first armed ahead (by simpa using prompt) rfl
  · have due : now = t₀ + seconds (req.firstPeriod ending) := by omega
    rw [fire_of_due armed.timer (by omega)]
    have callback := s.timerCallback_spec now
    -- with the callback the publications are complete
    have all : published ++ publishedAt now (s.timerCallback now).2 =
        (req.owed ending).toList.map fun m => (req.willDue ending t₀, m) := by
      rw [prompt, callback.1, armed.will]
      cases waits : req.delayed ending with
      | some m =>
          rw [(Connect.delayed_eq_some waits).2.2, willDue_of_delayed waits t₀, due]
          rfl
      | none => simp [Connect.willDue_of_delayed_none waits]
    rcases callback.2.2.2 with ⟨missing, timer, finalized, closed⟩ |
      ⟨zero, timer, finalized, closed⟩ |
      ⟨val, positive, left, timer, will, expireIn, since, finalized, closed⟩
    · have close := closeDue_of_rest_none armed.alive (armed.expireIn.symm.trans missing) t₀
      rw [← due] at close
      exact .finished timer finalized (by rw [close]) all (by rw [closed, close])
    · have close := closeDue_of_rest_zero armed.alive (armed.expireIn.symm.trans zero) t₀
      rw [← due] at close
      exact .finished timer finalized (by rw [close]) all (by rw [closed, close])
    · rcases split_of_rest positive (armed.expireIn.symm.trans left) with
        ⟨e, m, expiry, waits, earlier, period, sum⟩
      have shorter := seconds_lt earlier
      rw [period] at due
      refine .again e m ⟨armed.alive, expiry, earlier, ?_, will, expireIn,
        since.trans armed.expiringSince, finalized.trans armed.finalized⟩ waits (by omega)
        (by omega) ?_ closed
      · rw [timer, due, Int.add_assoc, sum]
      · rw [all, (Connect.delayed_eq_some waits).2.2, willDue_of_delayed waits t₀, period]
        rfl

/-- The timer fires for the second time, if it is due. -/
theorem Rearmed.fire {e : UInt32} {m : ω} (rearmed : s.Rearmed req ending t₀ e)
    (waited : req.delayed ending = some m)
    (passed : t₀ + seconds req.reConfig.willDelay ≤ now) (arrived : now ≤ t₀ + seconds e)
    (late : published = [(t₀ + seconds req.reConfig.willDelay, m)]) :
    Stage req ending t₀ now (s.fire now).1 (published ++ publishedAt now (s.fire now).2)
      (closedAt now (s.fire now).2) := by
  by_cases ahead : now < t₀ + seconds e
  · rw [fire_of_ahead rearmed.timer ahead]
    exact .again e m rearmed waited passed ahead (by simpa using late) rfl
  · have due : now = t₀ + seconds e := by omega
    rw [fire_of_due rearmed.timer (by omega)]
    have callback := s.timerCallback_spec now
    have interval := rearmed.expireIn
    rcases callback.2.2.2 with ⟨missing, -⟩ | ⟨-, timer, finalized, closed⟩ |
      ⟨val, positive, left, -⟩
    · simp [missing] at interval
    · have close : req.closeDue ending t₀ = (now, .expired) := by
        rw [due, Connect.closeDue, if_neg rearmed.alive, rearmed.expiry]
      have period : req.firstPeriod ending = req.reConfig.willDelay := by
        rw [Connect.firstPeriod, rearmed.expiry]
        exact if_pos ⟨by rw [waited]; rfl, rearmed.earlier⟩
      refine .finished timer finalized (by rw [close]) ?_ (by rw [closed, close])
      rw [late, callback.1, rearmed.will, (Connect.delayed_eq_some waited).2.2,
        willDue_of_delayed waited t₀, period]
      rfl
    · rw [left, Option.some.injEq] at interval
      exact absurd interval positive

end Session

/-- A session whose connection has ended, before its timer is armed. -/
structure Session.Ended (s : Session ω) (req : Connect ω) (ending : Ending) : Prop where
  will : s.will =
    if ending.will ∧ (req.Killed ending ∨ req.reConfig.willDelay = 0) then none else req.will
  expireIn : s.expireIn = req.expireAt ending
  willDelay : s.willDelay = req.reConfig.willDelay
  killOnDisconnect : s.killOnDisconnect = true ↔ req.Killed ending
  isOnline : s.isOnline = false
  timer : s.timer = none
  finalized : s.finalized = false

/-- The interval that a connection leaves behind is the one it reports, if any. -/
theorem Session.Configured.expiry (configured : s.Configured req) :
    (if (req.expireAt ending).isSome then req.expireAt ending else s.expireIn) =
      req.expireAt ending := by
  cases expiry : req.expireAt ending with
  | none => simp [configured.expireIn, Connect.expireAt_none expiry]
  | some e => rfl

theorem Session.Configured.beginDisconnect (configured : s.Configured req) (t₀ : Int) :
    let result := s.beginDisconnect ⟨req.expireAt ending, ending.will, ending.hasSubscriptions⟩
    result.1.Ended req ending ∧ closedAt t₀ result.2 = [] ∧
      publishedAt t₀ result.2 = if (req.delayed ending).isSome then []
        else (req.owed ending).toList.map fun m => (t₀, m) := by
  have killed : (s.killOnDisconnect || req.expireAt ending == some 0) = true ↔
      req.Killed ending := by
    simp [Connect.Killed, configured.killOnDisconnect]
  simp only [Session.beginDisconnect, configured.expiry, killed, configured.willDelay]
  by_cases prompt : req.Killed ending ∨ req.reConfig.willDelay = 0
  · have none : req.delayed ending = none := if_pos prompt
    by_cases will : ending.will = true
    · rw [if_pos ⟨will, prompt⟩]
      refine ⟨⟨?_, rfl, rfl, killed, rfl, configured.timer, configured.finalized⟩, ?_, ?_⟩
      · rw [if_pos ⟨will, prompt⟩]
      · exact closedAt_publish s.will
      · rw [publishedAt_publish, configured.will, none, Connect.owed, if_pos will]
        rfl
    · rw [if_neg fun both => will both.1]
      refine ⟨⟨?_, rfl, rfl, killed, rfl, configured.timer, configured.finalized⟩, rfl, ?_⟩
      · rw [if_neg fun both => will both.1]
        exact configured.will
      · rw [none, Connect.owed, if_neg will]
        rfl
  · rw [if_neg fun both => prompt both.2]
    refine ⟨⟨?_, rfl, rfl, killed, rfl, configured.timer, configured.finalized⟩, rfl, ?_⟩
    · rw [if_neg fun both => prompt both.2]
      exact configured.will
    · rw [show req.delayed ending = req.owed ending from if_neg prompt]
      cases req.owed ending <;> rfl

theorem Session.Ended.releaseSubscriber (ended : s.Ended req ending) (p : DisconnectParams)
    (t₀ : Int) :
    (s.releaseSubscriber p).1.Ended req ending ∧ publishedAt t₀ (s.releaseSubscriber p).2 = [] ∧
      closedAt t₀ (s.releaseSubscriber p).2 = [] := by
  unfold Session.releaseSubscriber
  split
  · exact ⟨⟨ended.will, ended.expireIn, ended.willDelay, ended.killOnDisconnect, ended.isOnline,
      ended.timer, ended.finalized⟩, rfl, rfl⟩
  · exact ⟨ended, rfl, rfl⟩

/-- The first part of `runExpiry` keeps the will exactly if it is to be delayed. -/
theorem Session.Ended.delayWill (ended : s.Ended req ending) (alive : ¬req.Killed ending) :
    s.delayWill ending.will = ({ s with will := req.delayed ending },
      if (req.delayed ending).isSome then req.reConfig.willDelay else 0) := by
  have waits : (ending.will = true ∧ s.will.isSome = true ∧ 0 < s.willDelay) ↔
      (req.delayed ending).isSome = true := by
    have positive : 0 < s.willDelay ↔ ¬req.reConfig.willDelay = 0 := by
      rw [ended.willDelay]
      exact UInt32.pos_iff_ne_zero
    rw [positive, ended.will, Connect.delayed, Connect.owed]
    by_cases zero : req.reConfig.willDelay = 0 <;> by_cases will : ending.will = true <;>
      simp [zero, will, alive]
  rw [Session.delayWill]
  by_cases later : (req.delayed ending).isSome = true
  · rcases Option.isSome_iff_exists.mp later with ⟨m, delayed⟩
    rcases Connect.delayed_eq_some delayed with ⟨-, nonzero, owed⟩
    have same : s.will = req.delayed ending := by
      rw [ended.will, if_neg fun both => both.2.elim alive nonzero, delayed, ← owed, Connect.owed,
        if_pos (waits.mpr later).1]
    rw [if_pos (waits.mpr later), if_pos later, ← same]
    exact Prod.ext rfl ended.willDelay
  · rw [if_neg (waits.not.mpr later), if_neg later]
    rw [Option.not_isSome_iff_eq_none] at later
    rw [later]

/-- `runExpiry` after a connection that leaves something to wait for. -/
theorem Session.Ended.runExpiry (ended : s.Ended req ending) (alive : ¬req.Killed ending)
    (t₀ : Int) : (s.runExpiry t₀ ending.will).Armed req ending t₀ := by
  have positive : (req.delayed ending).isSome = true → 0 < req.reConfig.willDelay := by
    intro later
    rcases Option.isSome_iff_exists.mp later with ⟨m, delayed⟩
    exact UInt32.pos_iff_ne_zero.mpr (Connect.delayed_eq_some delayed).2.1
  rw [Session.runExpiry, ended.delayWill alive]
  simp only [Session.splitExpiry, ended.expireIn]
  cases expiry : req.expireAt ending with
  | none =>
      refine ⟨alive, ?_, rfl, ended.willDelay, ?_, rfl, ended.finalized⟩
      · rw [Connect.firstPeriod, expiry]
      · rw [Connect.restOfExpiry, expiry]
        rfl
  | some e =>
      by_cases earlier : (req.delayed ending).isSome = true ∧ req.reConfig.willDelay < e
      · have split : 0 < (if (req.delayed ending).isSome then req.reConfig.willDelay else 0) ∧
            (if (req.delayed ending).isSome then req.reConfig.willDelay else 0) < e := by
          rw [if_pos earlier.1]
          exact ⟨positive earlier.1, earlier.2⟩
        simp only [if_pos split]
        refine ⟨alive, ?_, rfl, ended.willDelay, ?_, rfl, ended.finalized⟩
        · simp only [Connect.firstPeriod, expiry, if_pos earlier, if_pos earlier.1]
        · simp only [Connect.restOfExpiry, expiry, Option.map_some, if_pos earlier,
            if_pos earlier.1]
      · have whole : ¬(0 < (if (req.delayed ending).isSome then req.reConfig.willDelay else 0) ∧
            (if (req.delayed ending).isSome then req.reConfig.willDelay else 0) < e) := by
          by_cases later : (req.delayed ending).isSome = true
          · rw [if_pos later]
            exact fun both => earlier ⟨later, both.2⟩
          · rw [if_neg later]
            exact fun both => absurd both.1 (by decide)
        simp only [if_neg whole]
        refine ⟨alive, ?_, rfl, ended.willDelay, ?_, rfl, ended.finalized⟩
        · simp only [Connect.firstPeriod, expiry, if_neg earlier]
        · simp only [Connect.restOfExpiry, expiry, Option.map_some, if_neg earlier]

/-- No subtraction has wrapped around. -/
def Session.Unwrapped (s : Session ω) : Prop := ∀ pair ∈ s.subtractions, pair.2 ≤ pair.1

/-- `runExpiry` subtracts the smaller from the larger interval. -/
theorem Session.runExpiry_keeps (s : Session ω) (now : Int) (will : Bool) :
    (s.runExpiry now will).isOnline = s.isOnline ∧
      (s.Unwrapped → (s.runExpiry now will).Unwrapped) := by
  have first : (s.delayWill will).1.isOnline = s.isOnline ∧
      (s.delayWill will).1.subtractions = s.subtractions := by
    unfold Session.delayWill
    split <;> exact ⟨rfl, rfl⟩
  have second : ∀ (s : Session ω) (period : UInt32),
      (s.splitExpiry period).1.isOnline = s.isOnline ∧
        (s.Unwrapped → (s.splitExpiry period).1.Unwrapped) := by
    intro s period
    unfold Session.splitExpiry
    split
    · exact ⟨rfl, id⟩
    · split
      · rename_i less
        refine ⟨rfl, fun unwrapped pair member => ?_⟩
        rcases List.mem_append.mp member with old | new
        · exact unwrapped pair old
        · rw [List.mem_singleton.mp new]
          exact UInt32.le_of_lt less.2
      · exact ⟨rfl, id⟩
  have split := second (s.delayWill will).1 (s.delayWill will).2
  refine ⟨split.1.trans first.1, fun unwrapped => split.2 ?_⟩
  rw [Session.Unwrapped, first.2]
  exact unwrapped

/-- The last part of `onDisconnect`: the session is closed at once, or its timer is armed. -/
theorem Session.Ended.endDisconnect (ended : s.Ended req ending) (t₀ : Int) :
    let result := s.endDisconnect t₀
      ⟨req.expireAt ending, ending.will, ending.hasSubscriptions⟩
    result.1.isOnline = false ∧ publishedAt t₀ result.2 = [] ∧
      ((result.1.timer = none ∧ result.1.finalized = true ∧ (req.closeDue ending t₀).1 = t₀ ∧
          req.delayed ending = none ∧ closedAt t₀ result.2 = [req.closeDue ending t₀]) ∨
        (result.1.Armed req ending t₀ ∧ closedAt t₀ result.2 = [])) := by
  simp only [Session.endDisconnect, ended.killOnDisconnect]
  by_cases killed : req.Killed ending
  · have close : req.closeDue ending t₀ = (t₀, .clean) := if_pos killed
    rw [if_pos killed, close]
    exact ⟨ended.isOnline, rfl, .inl ⟨ended.timer, rfl, rfl, if_pos (.inl killed), rfl⟩⟩
  · rw [if_neg killed]
    by_cases nothing : s.expireIn.isNone = true ∧ s.willDelay = 0
    · have expiry : req.expireAt ending = none := by
        rw [← ended.expireIn]
        exact Option.isNone_iff_eq_none.mp nothing.1
      have prompt : req.delayed ending = none :=
        if_pos (.inr (ended.willDelay.symm.trans nothing.2))
      have close : req.closeDue ending t₀ = (t₀, .shutdown) := by
        rw [Connect.closeDue, if_neg killed, expiry, prompt]
        rfl
      rw [if_pos nothing, close]
      exact ⟨ended.isOnline, rfl, .inl ⟨ended.timer, rfl, rfl, prompt, rfl⟩⟩
    · have waits : (s.expireIn.isSome = true ∧ s.expireIn ≠ some 0) ∨ 0 < s.willDelay := by
        rw [ended.expireIn, ended.willDelay] at nothing ⊢
        rcases Decidable.not_and_iff_not_or_not.mp nothing with there | positive
        · refine .inl ⟨by simpa [Option.isSome_iff_ne_none] using there, fun zero => ?_⟩
          exact killed (.inr zero)
        · exact .inr (UInt32.pos_iff_ne_zero.mpr positive)
      have same : (if (req.expireAt ending).isSome then req.expireAt ending else s.expireIn) =
          s.expireIn := by
        rw [ended.expireIn]
        split <;> rfl
      rw [if_neg nothing, if_pos waits, same]
      refine ⟨?_, rfl, .inr ⟨ended.runExpiry killed t₀, rfl⟩⟩
      rw [(Session.runExpiry_keeps _ _ _).1]
      exact ended.isOnline

/-- What `onDisconnect` and the timer, if it is due at once, make of an online session. -/
theorem Session.Configured.onDisconnect (configured : s.Configured req) (t₀ : Int) :
    let result := s.onDisconnect t₀
      ⟨req.expireAt ending, ending.will, ending.hasSubscriptions⟩
    result.1.isOnline = false ∧
      Stage req ending t₀ t₀ (result.1.fire t₀).1
        (publishedAt t₀ result.2 ++ publishedAt t₀ (result.1.fire t₀).2)
        (closedAt t₀ result.2 ++ closedAt t₀ (result.1.fire t₀).2) := by
  have first := @Session.Configured.beginDisconnect _ _ ending _ configured t₀
  have second := first.1.releaseSubscriber
    ⟨req.expireAt ending, ending.will, ending.hasSubscriptions⟩ t₀
  have third := second.1.endDisconnect t₀
  simp only [Session.onDisconnect, publishedAt_append, closedAt_append, first.2.1, first.2.2,
    second.2.1, second.2.2, third.2.1, List.append_nil, List.nil_append]
  refine ⟨third.1, ?_⟩
  rcases third.2.2 with ⟨timer, finalized, close, prompt, closed⟩ | ⟨armed, closed⟩
  · rw [Session.fire_of_none timer, closed]
    refine .finished timer finalized (by rw [close]) ?_ rfl
    rw [Connect.willDue_of_delayed_none prompt, prompt]
    simp
  · rw [closed, List.nil_append]
    have wait := seconds_nonneg (req.firstPeriod ending)
    exact armed.fire (by omega) rfl

/-- One unit of time. -/
theorem Stage.tick (stage : Stage req ending t₀ now s published closed) :
    Stage req ending t₀ (now + 1) (s.fire (now + 1)).1
      (published ++ publishedAt (now + 1) (s.fire (now + 1)).2)
      (closed ++ closedAt (now + 1) (s.fire (now + 1)).2) := by
  cases stage with
  | first armed ahead prompt unclosed =>
      rw [unclosed, List.nil_append]
      exact armed.fire (by omega) prompt
  | again e m rearmed waited passed ahead late unclosed =>
      rw [unclosed, List.nil_append]
      exact rearmed.fire waited (by omega) (by omega) late
  | finished timer finalized passed all once =>
      rw [Session.fire_of_none timer]
      exact .finished timer finalized (by omega) (by simpa using all) (by simpa using once)

end Stages

namespace Episode

/-- An episode whose connection has ended did what was asked for up to an instant. -/
def Follows (episode : Episode ω) (t₀ : Int) (ending : Ending) (horizon : Int) : Prop :=
  episode.published = episode.request.publications ending t₀ horizon ∧
    episode.closed = episode.request.closings ending t₀ horizon

/-- The session between two connections, or during one. -/
def Fits (episode : Episode ω) (session : Session ω) (now : Int) : Prop :=
  match episode.ended with
  | none => session.Configured episode.request ∧ episode.events = []
  | some (t₀, ending) => session.isOnline = false ∧ t₀ ≤ now ∧
      Stage episode.request ending t₀ now session episode.published episode.closed

/-- What the session did for a connection: its will is published at most once, only when it was
left to be published and exactly when it is due, unless the session is resumed before; and a session
with an expiry interval is closed as expired at the end of that interval and at no other time. -/
structure TimerLaw (episode : Episode ω) (now : Int) : Prop where
  once : episode.published.length ≤ 1
  own : ∀ t m, (t, m) ∈ episode.published → ∃ t₀ ending, episode.ended = some (t₀, ending) ∧
    ending.will = true ∧ episode.request.will = some m ∧
    t = episode.request.willDue ending t₀ ∧ t ≤ episode.horizon now
  due : ∀ t₀ ending m, episode.ended = some (t₀, ending) → ending.will = true →
    episode.request.will = some m → episode.request.willDue ending t₀ ≤ episode.horizon now →
    (episode.request.willDue ending t₀, m) ∈ episode.published
  expired : ∀ t₀ ending e t, episode.ended = some (t₀, ending) →
    episode.request.expireAt ending = some e → 0 < e →
    ((t, .expired) ∈ episode.closed ↔ t = t₀ + seconds e ∧ t ≤ episode.horizon now)

theorem timerLaw_of_follows {episode : Episode ω} {t₀ now : Int} {ending : Ending}
    (ended : episode.ended = some (t₀, ending))
    (follows : episode.Follows t₀ ending (episode.horizon now)) : episode.TimerLaw now := by
  rcases follows with ⟨published, closed⟩
  refine ⟨?_, ?_, ?_, ?_⟩
  · rw [published, Connect.publications]
    split
    · cases episode.request.owed ending <;> simp
    · simp
  · intro t m member
    rw [published, Connect.publications] at member
    split at member
    · rename_i arrived
      rw [Connect.owed] at member
      split at member
      · rename_i will
        simp only [List.mem_map, Option.mem_toList, Prod.mk.injEq] at member
        rcases member with ⟨m, mine, rfl, rfl⟩
        exact ⟨t₀, ending, ended, will, mine, rfl, arrived⟩
      · simp at member
    · simp at member
  · intro t₁ other m here will mine arrived
    rw [ended, Option.some.injEq, Prod.mk.injEq] at here
    rcases here with ⟨rfl, rfl⟩
    rw [published, Connect.publications, if_pos arrived, Connect.owed, if_pos will, mine]
    simp
  · intro t₁ other e t here expiry positive
    rw [ended, Option.some.injEq, Prod.mk.injEq] at here
    rcases here with ⟨rfl, rfl⟩
    have alive : ¬episode.request.Killed ending := by
      have nonzero : e ≠ 0 := UInt32.pos_iff_ne_zero.mp positive
      rintro (kill | zero)
      · have none := @Connect.expireAt_of_kill _ _ ending kill
        rw [expiry] at none
        simp [nonzero] at none
      · rw [expiry] at zero
        simp [nonzero] at zero
    have close : episode.request.closeDue ending t₀ = (t₀ + seconds e, .expired) := by
      rw [Connect.closeDue, if_neg alive, expiry]
    rw [closed, Connect.closings, close]
    split
    · rename_i arrived
      simp only [List.mem_singleton, Prod.mk.injEq, and_true]
      exact ⟨fun same => ⟨same, by omega⟩, fun both => both.1⟩
    · rename_i ahead
      simp only [List.not_mem_nil, false_iff, not_and]
      intro same
      omega

end Episode

namespace Timeline

/-- What holds at all times. -/
structure Inv (s : Timeline ω) : Prop where
  unwrapped : s.session.Unwrapped
  past : ∀ episode ∈ s.past, ∃ t₀ ending t₁, episode.ended = some (t₀, ending) ∧
    episode.resumed = some t₁ ∧ episode.Follows t₀ ending t₁
  present : ∀ episode, s.current = some episode →
    episode.resumed = none ∧ episode.Fits s.session s.now
  idle : s.current = none → s.session.isOnline = false ∧ s.session.timer = none

theorem inv_new (now : Int) : (new now : Timeline ω).Inv where
  unwrapped := by simp [Session.Unwrapped, new, Session.new]
  past := by simp [new]
  present := by simp [new]
  idle := fun _ => ⟨rfl, rfl⟩

theorem unwrapped_onDisconnect {session : Session ω} (unwrapped : session.Unwrapped) (now : Int)
    (p : DisconnectParams) : (session.onDisconnect now p).1.Unwrapped := by
  have first : (session.beginDisconnect p).1.subtractions = session.subtractions := by
    simp only [Session.beginDisconnect]
    split <;> split <;> rfl
  have second : ∀ s : Session ω, (s.releaseSubscriber p).1.subtractions = s.subtractions := by
    intro s
    unfold Session.releaseSubscriber
    split <;> rfl
  have third : ∀ s : Session ω, s.Unwrapped → (s.endDisconnect now p).1.Unwrapped := by
    intro s before
    unfold Session.endDisconnect
    split
    · exact before
    · split
      · exact before
      · split
        · exact (Session.runExpiry_keeps _ _ _).2 before
        · exact before
  have kept : ((session.beginDisconnect p).1.releaseSubscriber p).1.Unwrapped := by
    rw [Session.Unwrapped, second, first]
    exact unwrapped
  exact third _ kept

theorem Inv.connect {s : Timeline ω} (inv : s.Inv) (request : Connect ω) :
    (s.connect request).Inv := by
  by_cases online : s.session.isOnline = true
  · rw [Timeline.connect, Session.setOnline, if_pos online]
    exact inv
  · -- the current episode, if there is one, has ended and is now complete
    have complete : ∀ episode ∈ (s.current.map fun episode =>
        { episode with resumed := some s.now }).toList, ∃ t₀ ending t₁,
        episode.ended = some (t₀, ending) ∧ episode.resumed = some t₁ ∧
          episode.Follows t₀ ending t₁ := by
      intro episode member
      rcases Option.map_eq_some_iff.mp (Option.mem_toList.mp member) with ⟨old, held, rfl⟩
      have fits := (inv.present old held).2
      unfold Episode.Fits at fits
      split at fits
      · exact absurd fits.1.isOnline online
      · rename_i t₀ ending ended
        exact ⟨t₀, ending, s.now, ended, rfl, fits.2.2.law fits.2.1⟩
    have begun : ∀ session : Session ω, session.timer = none → session.Unwrapped →
        (s.begin session request).Inv := by
      intro session timer unwrapped
      refine ⟨unwrapped, ?_, ?_, by simp [Timeline.begin]⟩
      · intro episode member
        rcases List.mem_append.mp member with old | new
        · exact inv.past episode old
        · exact complete episode new
      · intro episode held
        rw [← Option.some.inj held]
        exact ⟨rfl, ⟨rfl, rfl, rfl, rfl, rfl, timer, rfl⟩, rfl⟩
    rw [Timeline.connect, Session.setOnline, if_neg online]
    split
    · rename_i status
      simp only [Prod.mk.injEq] at status
      split at status <;> simp at status
    · rename_i session status
      simp only [Prod.mk.injEq] at status
      exact begun session (by rw [← status.1]) (by rw [← status.1]; exact inv.unwrapped)
    · rename_i session status
      simp only [Prod.mk.injEq] at status
      exact begun _ rfl (by rw [← status.1]; exact inv.unwrapped)

theorem Inv.disconnect {s : Timeline ω} (inv : s.Inv) (ending : Ending) :
    (s.disconnect ending).Inv := by
  unfold Timeline.disconnect
  split
  · rename_i episode held
    split
    · rename_i online
      have fits := (inv.present episode held).2
      unfold Episode.Fits at fits
      split at fits
      · have result := @Session.Configured.onDisconnect _ _ ending _ fits.1 s.now
        generalize answer : s.session.onDisconnect s.now
          ⟨episode.request.expireAt ending, ending.will, ending.hasSubscriptions⟩ = outcome at result
        have unwrapped : outcome.1.Unwrapped := answer ▸ unwrapped_onDisconnect inv.unwrapped _ _
        refine ⟨?_, inv.past, ?_, by simp [settle, record]⟩
        · rw [Session.Unwrapped, settle, record, (Session.fire_keeps _ _).2]
          exact unwrapped
        · intro later shown
          simp only [settle, record, Option.map_some, Option.some.injEq] at shown
          rw [← shown]
          refine ⟨(inv.present episode held).1, ?_⟩
          simp only [Episode.Fits, settle, record]
          refine ⟨by rw [(Session.fire_keeps _ _).1]; exact result.1, le_refl _, ?_⟩
          simpa [Episode.published, Episode.closed, fits.2, publishedAt, closedAt] using result.2
      · rw [fits.1] at online
        simp at online
    · exact inv
  · exact inv

theorem Inv.tick {s : Timeline ω} (inv : s.Inv) : (s.step .tick).Inv := by
  refine ⟨?_, inv.past, ?_, ?_⟩
  · rw [Session.Unwrapped, step, settle, record, (Session.fire_keeps _ _).2]
    exact inv.unwrapped
  · intro later shown
    rcases Option.map_eq_some_iff.mp shown with ⟨episode, held, rfl⟩
    have present := inv.present episode held
    refine ⟨present.1, ?_⟩
    have fits := present.2
    unfold Episode.Fits at fits
    split at fits
    · rename_i running
      have quiet := @Session.fire_of_none _ (s.now + 1) s.session fits.1.timer
      simp only [Episode.Fits, running, step, settle, record, quiet]
      exact ⟨fits.1, by simp [fits.2]⟩
    · rename_i t₀ ending ended
      simp only [Episode.Fits, ended, step, settle, record]
      refine ⟨by rw [(Session.fire_keeps _ _).1]; exact fits.1, by omega, ?_⟩
      simpa [Episode.published, Episode.closed, publishedAt, closedAt] using fits.2.2.tick
  · intro missing
    have idle := inv.idle (Option.map_eq_none_iff.mp missing)
    have quiet := @Session.fire_of_none _ (s.now + 1) s.session idle.2
    simp only [step, settle, record, quiet]
    exact idle

theorem Inv.step {s : Timeline ω} (inv : s.Inv) (op : Op ω) : (s.step op).Inv := by
  cases op with
  | connect request => exact inv.connect request
  | disconnect ending => exact inv.disconnect ending
  | tick => exact inv.tick

/-- What was done after a connection that ended is what was asked for. -/
theorem Inv.follows {s : Timeline ω} (inv : s.Inv) {episode : Episode ω}
    (member : episode ∈ s.episodes) {t₀ : Int} {ending : Ending}
    (ended : episode.ended = some (t₀, ending)) :
    episode.Follows t₀ ending (episode.horizon s.now) := by
  rcases List.mem_append.mp member with old | present
  · rcases inv.past episode old with ⟨begin, way, t₁, same, resumed, follows⟩
    rw [same, Option.some.injEq, Prod.mk.injEq] at ended
    rw [Episode.horizon, resumed, ← ended.1, ← ended.2]
    exact follows
  · have here := inv.present episode (Option.mem_toList.mp present)
    have fits := here.2
    rw [Episode.Fits, ended] at fits
    rw [Episode.horizon, here.1]
    exact fits.2.2.law fits.2.1

/-- A connection that has not ended has done nothing. -/
theorem Inv.running {s : Timeline ω} (inv : s.Inv) {episode : Episode ω}
    (member : episode ∈ s.episodes) (running : episode.ended = none) : episode.events = [] := by
  rcases List.mem_append.mp member with old | present
  · rcases inv.past episode old with ⟨t₀, ending, t₁, ended, -⟩
    rw [running] at ended
    cases ended
  · have fits := (inv.present episode (Option.mem_toList.mp present)).2
    rw [Episode.Fits, running] at fits
    exact fits.2

/-- In every timeline of a session, whatever the requests, the endings and the times between them,
every connection gets what the law says, and no subtraction of intervals wraps around. -/
theorem timerLaw_run (start : Int) (ops : List (Op ω)) :
    (∀ episode ∈ (ops.foldl Timeline.step (new start)).episodes,
        episode.TimerLaw (ops.foldl Timeline.step (new start)).now) ∧
      (ops.foldl Timeline.step (new start)).session.Unwrapped := by
  have inv := invariant_run Inv (fun _ op before => before.step op) (inv_new start) ops
  refine ⟨?_, inv.unwrapped⟩
  intro episode member
  cases ended : episode.ended with
  | none =>
      have nothing := inv.running member ended
      refine ⟨?_, ?_, ?_, ?_⟩ <;> simp [Episode.published, Episode.closed, nothing, ended]
  | some pair =>
      rcases pair with ⟨t₀, ending⟩
      exact Episode.timerLaw_of_follows ended (inv.follows member ended)

/-- A connection that ended without its will has published nothing. -/
theorem Inv.published_eq_nil {s : Timeline ω} (inv : s.Inv) {episode : Episode ω}
    (member : episode ∈ s.episodes) {t₀ : Int} {ending : Ending}
    (ended : episode.ended = some (t₀, ending)) (silent : ending.will = false) :
    episode.published = [] := by
  have follows := (inv.follows member ended).1
  rw [follows, Connect.publications, Connect.owed, silent]
  simp

end Timeline

end VolantMQ.Clients
